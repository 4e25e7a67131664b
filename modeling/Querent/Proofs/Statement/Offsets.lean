import Querent.Statement.Offsets
import Querent.Proofs.Statement.Fields
import Querent.Proofs.Statement.Naming
import Querent.Proofs.Statement.Selecting

/-!
# Offsets stand between characters

A scan of bytes can only stop at a byte of ASCII: a quote, a parenthesis, a comma or the
letters of a keyword. Such a byte is a character by itself, since the bytes of all other
characters are 128 and above (`le_toNat_of_mem_bytes`). So a search of the bytes cuts
them where one of the characters cuts these (`cutKeyword?_bytes`), and each offset that
a scan finds is the length of what it has come over, in bytes. The slice between two
such lengths is the text between (`slice?_append`). The scans that go on from an offset
keep this: in front of it is a part of the text as a whole.
-/

namespace Querent.Statement.Offsets

open Text

variable {a b l rest kw xs bs : List Char} {n : Nesting} {c : Char} {s : String} {i : Nat}

/-! ## Bytes -/

@[simp] theorem bytes_nil : bytes [] = [] := rfl

@[simp] theorem bytes_append (a b : List Char) : bytes (a ++ b) = bytes a ++ bytes b := by
  simp only [bytes, Utf8.encode, List.flatMap_append, List.map_append]

theorem bytes_cons (c : Char) (l : List Char) : bytes (c :: l) = bytes [c] ++ bytes l :=
  bytes_append [c] l

theorem length_bytes (l : List Char) : (bytes l).length = l.utf8Encode.size := by
  simp [bytes, Utf8.encode, List.utf8Encode]

theorem length_bytes_toList (s : String) : (bytes s.toList).length = s.utf8ByteSize := by
  rw [length_bytes, String.utf8Encode_toList, String.size_toByteArray]

theorem toNat_ofNat_byte (b : UInt8) : (Char.ofNat b.toNat).toNat = b.toNat := by
  have hall : ∀ m : Fin 256, (Char.ofNat m).toNat = m := by decide +kernel
  exact hall ⟨b.toNat, b.toNat_lt⟩

/-- A character of ASCII is its own byte. -/
theorem bytes_of_ascii (h : c.toNat < 128) : bytes [c] = [c] := by
  have hsize : c.utf8Size = 1 := Char.utf8Size_eq_one_iff.mpr (Nat.le_of_lt_succ h)
  have hbyte : c.toUInt8.toNat = c.toNat := Nat.mod_eq_of_lt (Nat.lt_trans h (by decide))
  simp [bytes, Utf8.encode, String.utf8EncodeChar_eq_singleton hsize, hbyte]

/-- The bytes of every other character are none of ASCII. -/
theorem le_toNat_of_mem_bytes (h : 128 ≤ c.toNat) : ∀ b ∈ bytes [c], 128 ≤ b.toNat := by
  have hbytes : ∀ b ∈ String.utf8EncodeChar c, 128 ≤ b.toNat := by
    have hlong : ¬ c.val.toNat ≤ 0x7f := Nat.not_le.mpr h
    unfold String.utf8EncodeChar
    simp only [hlong, if_false]
    split_ifs <;>
      simp only [List.forall_mem_cons, List.not_mem_nil, false_imp_iff, implies_true,
        UInt8.toNat_ofNat', and_true] <;>
      omega
  intro b hb
  obtain ⟨byte, hbyte, rfl⟩ := List.mem_map.mp hb
  rw [toNat_ofNat_byte]
  exact hbytes byte (by simpa [Utf8.encode] using hbyte)

theorem bytes_ne_nil (c : Char) : bytes [c] ≠ [] := by
  simp [bytes, Utf8.encode, String.utf8EncodeChar_ne_nil]

theorem isGap_of_le_toNat (h : ∀ b ∈ l, 128 ≤ b.toNat) : IsGap l := by
  intro b hb
  have hle := h b hb
  refine ⟨⟨?_, ?_, ?_⟩, fun hword => ?_⟩
  · rintro rfl
    exact absurd hle (by decide)
  · rintro rfl
    exact absurd hle (by decide)
  · rintro rfl
    exact absurd hle (by decide)
  · have := toNat_of_wordChar hword
    omega

theorem isGap_bytes (h : 128 ≤ c.toNat) : IsGap (bytes [c]) :=
  isGap_of_le_toNat (le_toNat_of_mem_bytes h)

theorem isGap_singleton (h : 128 ≤ c.toNat) : IsGap [c] :=
  isGap_of_le_toNat (by simpa using h)

theorem bytes_of_wordChar (h : ∀ c ∈ l, isWordChar c) : bytes l = l := by
  induction l with
  | nil => rfl
  | cons c rest ih =>
    obtain ⟨hc, hrest⟩ := List.forall_mem_cons.mp h
    have hascii : c.toNat < 128 := by
      have := toNat_of_wordChar hc
      omega
    rw [bytes_cons, bytes_of_ascii hascii, ih hrest]
    rfl

theorem bytes_keyword (hkw : IsKeyword kw) : bytes kw = kw := by
  refine bytes_of_wordChar fun c hc => ?_
  have hlower : c.isLower := List.all_eq_true.mp hkw.2 c hc
  show (((c.isUpper || c.isLower) || c.isDigit) || decide (c = '_')) = true
  rw [hlower, Bool.or_true, Bool.true_or, Bool.true_or]

theorem head?_bytes (l : List Char) :
    (bytes l).head?.any isWordChar = l.head?.any isWordChar := by
  cases l with
  | nil => rfl
  | cons c rest =>
    rw [bytes_cons, List.head?_append_of_ne_nil _ (bytes_ne_nil c)]
    rcases Nat.lt_or_ge c.toNat 128 with hascii | hwide
    · rw [bytes_of_ascii hascii]
      rfl
    · have hbyte : ¬ (bytes [c]).head?.any isWordChar := by
        intro hword
        obtain ⟨b, hb, hword⟩ := (Option.any_eq_true _ _).mp hword
        exact (isGap_bytes hwide b (List.mem_of_head? hb)).2 hword
      have hchar : ¬ isWordChar c := (isGap_singleton hwide c List.mem_cons_self).2
      simp_all

/-! ## Keywords on bytes -/

theorem dropKeyword?_gap {k : Char} (hk : k.isLower) (hxs : IsGap xs) (hne : xs ≠ [])
    (l : List Char) : dropKeyword? (k :: kw) (xs ++ l) = none := by
  obtain ⟨x, more, rfl⟩ := List.exists_cons_of_ne_nil hne
  refine if_neg fun hx => (hxs x List.mem_cons_self).2 (isWordChar_of_toLower ?_)
  rwa [hx]

theorem dropKeyword?_bytes (hkw : kw.all Char.isLower) (l : List Char) :
    dropKeyword? kw (bytes l) = (dropKeyword? kw l).map bytes := by
  induction kw generalizing l with
  | nil => rfl
  | cons k kw ih =>
    obtain ⟨hk, hkw⟩ := Bool.and_eq_true_iff.mp hkw
    cases l with
    | nil => rfl
    | cons c rest =>
      rw [bytes_cons]
      rcases Nat.lt_or_ge c.toNat 128 with hascii | hwide
      · rw [bytes_of_ascii hascii]
        simp only [List.singleton_append, dropKeyword?]
        split_ifs
        · exact ih hkw rest
        · rfl
      · rw [dropKeyword?_gap hk (isGap_bytes hwide) (bytes_ne_nil c)]
        have hnone : dropKeyword? (k :: kw) ([c] ++ rest) = none :=
          dropKeyword?_gap hk (isGap_singleton hwide) (List.cons_ne_nil _ _) rest
        rw [List.singleton_append] at hnone
        rw [hnone]
        rfl

theorem wholeWord?_bytes (hkw : IsKeyword kw) (afterWord : Bool) (l : List Char) :
    wholeWord? kw afterWord (bytes l) = (wholeWord? kw afterWord l).map bytes := by
  rw [wholeWord?, wholeWord?, dropKeyword?_bytes hkw.2]
  cases dropKeyword? kw l with
  | none => split_ifs <;> rfl
  | some tail =>
    simp only [Option.map_some, head?_bytes]
    split_ifs <;> rfl

/-- A search goes over a gap to what is behind it. -/
theorem cutKeyword?_gap_append (hkw : IsKeyword kw) (hxs : IsGap xs) (hne : xs ≠ [])
    (n : Nesting) (afterWord : Bool) (l : List Char) :
    cutKeyword? kw n afterWord (xs ++ l) =
      (cutKeyword? kw n false l).map fun (before, behind) => (xs ++ before, behind) := by
  induction xs generalizing afterWord with
  | nil => exact absurd rfl hne
  | cons x more ih =>
    obtain ⟨⟨hplain, hword⟩, hmore⟩ := List.forall_mem_cons.mp hxs
    have hnone : wholeWord? kw afterWord (x :: (more ++ l)) = none := by
      obtain ⟨k, rest, rfl⟩ := List.exists_cons_of_ne_nil hkw.1
      have hdrop : dropKeyword? (k :: rest) (x :: more ++ l) = none :=
        dropKeyword?_gap (Bool.and_eq_true_iff.mp hkw.2).1 hxs hne l
      rw [List.cons_append] at hdrop
      rw [wholeWord?, hdrop, ite_self]
    simp only [List.cons_append, cutKeyword?, hnone, ite_self, step_of_plain hplain,
      Bool.eq_false_of_not_eq_true hword]
    cases more with
    | nil => rfl
    | cons y more =>
      rw [ih hmore (List.cons_ne_nil _ _), Option.map_map]
      rfl

/-- **A search of the bytes is one of the characters.** -/
theorem cutKeyword?_bytes (hkw : IsKeyword kw) (n : Nesting) (afterWord : Bool)
    (l : List Char) : cutKeyword? kw n afterWord (bytes l) =
      (cutKeyword? kw n afterWord l).map fun (before, behind) => (bytes before, bytes behind) := by
  induction l generalizing n afterWord with
  | nil => rfl
  | cons c rest ih =>
    rw [bytes_cons]
    rcases Nat.lt_or_ge c.toNat 128 with hascii | hwide
    · have hcons : ∀ before, bytes (c :: before) = c :: bytes before := by
        intro before
        rw [bytes_cons, bytes_of_ascii hascii, List.singleton_append]
      have hwhole := wholeWord?_bytes hkw afterWord (c :: rest)
      rw [hcons] at hwhole
      rw [bytes_of_ascii hascii, List.singleton_append]
      simp only [cutKeyword?, hwhole, ih]
      have hhere : (if n.isTop c then (wholeWord? kw afterWord (c :: rest)).map bytes else none) =
          (if n.isTop c then wholeWord? kw afterWord (c :: rest) else none).map bytes := by
        split_ifs <;> rfl
      rw [hhere]
      cases (if n.isTop c then wholeWord? kw afterWord (c :: rest) else none) with
      | some tail => rfl
      | none => simp only [Option.map_none, Option.map_map, Function.comp_def, hcons]
    · have hchar : cutKeyword? kw n afterWord ([c] ++ rest) = _ :=
        cutKeyword?_gap_append hkw (isGap_singleton hwide) (List.cons_ne_nil _ _) n afterWord rest
      rw [List.singleton_append] at hchar
      rw [cutKeyword?_gap_append hkw (isGap_bytes hwide) (bytes_ne_nil c), hchar, ih,
        Option.map_map, Option.map_map]
      refine congrFun (congrArg _ (funext fun cut => ?_)) _
      show (bytes [c] ++ bytes cut.1, bytes cut.2) = (bytes ([c] ++ cut.1), bytes cut.2)
      rw [bytes_append]

/-! ## The search by offsets -/

/-- The offsets at top level are those of the bytes met there. -/
theorem topLevel_eq (n : Nesting) (i : Nat) (bs : List Char) :
    topLevel n i bs = ((List.range bs.length).filter fun j =>
      bs[j]?.any (n.after (bs.take j)).isTop).map (i + ·) := by
  induction bs generalizing n i with
  | nil => rfl
  | cons b rest ih =>
    have hrest : topLevel (n.step b) (i + 1) rest =
        (((List.range rest.length).map Nat.succ).filter fun j =>
          (b :: rest)[j]?.any (n.after ((b :: rest).take j)).isTop).map (i + ·) := by
      rw [ih, List.filter_map, List.map_map]
      refine List.map_congr_left fun j _ => ?_
      show i + 1 + j = i + (j + 1)
      omega
    rw [List.length_cons, List.range_succ_eq_map, topLevel]
    by_cases htop : n.isTop b
    · rw [if_pos htop, List.filter_cons_of_pos (by exact htop), hrest]
      rfl
    · rw [if_neg htop, List.filter_cons_of_neg (by exact htop), hrest]

theorem byteSlice?_of_le {i j : Nat} (hij : i ≤ j) (hj : j ≤ bs.length) :
    byteSlice? bs i j = some ((bs.drop i).take (j - i)) :=
  if_pos ⟨hij, hj⟩

theorem wordBefore_eq (hi : i ≤ bs.length) :
    wordBefore bs i = some ((bs.take i).getLast?.any isWordChar) := by
  rw [wordBefore]
  split_ifs with hzero
  · rw [hzero]
    rfl
  · have hlt : i - 1 < bs.length := by omega
    rw [List.getLast?_eq_getElem?, List.length_take, Nat.min_eq_left hi,
      List.getElem?_take_of_lt (by omega), List.getElem?_eq_getElem hlt]
    rfl

theorem wordBehind_eq (hi : i ≤ bs.length) :
    wordBehind bs i = some ((bs.drop i).head?.any isWordChar) := by
  rw [wordBehind, List.head?_drop]
  split_ifs with hend
  · rw [List.getElem?_eq_none (Nat.le_of_eq hend.symm)]
    rfl
  · rw [List.getElem?_eq_getElem (by omega)]
    rfl

/-- Every byte that the search asks for is there. -/
theorem standsAt_eq (hne : kw ≠ []) (bs : List Char) (i : Nat) : standsAt kw bs i = some (decide
    (((bs.drop i).take kw.length).map Char.toLower = kw ∧ ¬ (bs.take i).getLast?.any isWordChar ∧
      ¬ (bs.drop (i + kw.length)).head?.any isWordChar)) := by
  simp only [standsAt]
  by_cases hstop : i + kw.length ≤ bs.length
  · rw [if_pos hstop, byteSlice?_of_le (Nat.le_add_right _ _) hstop, wordBefore_eq (by omega),
      wordBehind_eq hstop, Nat.add_sub_cancel_left]
    by_cases hword : ((bs.drop i).take kw.length).map Char.toLower = kw
    · cases (bs.take i).getLast?.any isWordChar <;>
        cases (bs.drop (i + kw.length)).head?.any isWordChar <;>
        simp [hword, -List.map_take]
    · simp [hword, -List.map_take]
  · have hshort : ¬ ((bs.drop i).take kw.length).map Char.toLower = kw := by
      intro hword
      have hlength := congrArg List.length hword
      have hpos := List.length_pos_iff.mpr hne
      simp only [List.length_map, List.length_take, List.length_drop] at hlength
      omega
    rw [if_neg hstop, decide_eq_false fun h => hshort h.1]

/-- The search by offsets finds the first place of the keyword. -/
theorem findM?_topLevel (hkw : IsKeyword kw) (bs : List Char) :
    (topLevel .outside 0 bs).findM? (standsAt kw bs) = some (wordPlaces kw bs).head? := by
  have hstands : standsAt kw bs = fun i => pure (decide
      (((bs.drop i).take kw.length).map Char.toLower = kw ∧
        ¬ (bs.take i).getLast?.any isWordChar ∧
        ¬ (bs.drop (i + kw.length)).head?.any isWordChar)) := funext (standsAt_eq hkw.1 bs)
  have hzero : (fun j => 0 + j) = id := funext Nat.zero_add
  rw [hstands, List.findM?_pure, topLevel_eq, hzero, List.map_id, List.find?_filter,
    ← List.head?_filter, wordPlaces]
  refine congrArg (fun places : List Nat => some places.head?) (List.filter_congr fun i hi => ?_)
  obtain ⟨b, hb⟩ : ∃ b, bs[i]? = some b :=
    ⟨_, List.getElem?_eq_getElem (List.mem_range.mp hi)⟩
  have hplain : ((bs.drop i).take kw.length).map Char.toLower = kw → IsPlain b := by
    intro hword
    have hpos := List.length_pos_iff.mpr hkw.1
    refine isPlain_of_wordChar (isWordChar_of_spelled hkw hword b ?_)
    refine List.mem_of_getElem? (i := 0) ?_
    rw [List.getElem?_take_of_lt hpos, List.getElem?_drop, Nat.add_zero, hb]
  rw [hb, Option.any_some, decide_eq_decide, decide_eq_true_eq, isTop_iff, wordAt_iff]
  tauto

/-- **The search by offsets is that of the characters.** -/
theorem findKeyword_eq {word : String} (hkw : IsKeyword word.toList) (l : List Char) :
    findKeyword (String.ofList l) word =
      some ((cutKeyword? word.toList .outside false l).map
        fun (before, _) => (bytes before).length) := by
  have hcut := cutKeyword?_bytes hkw .outside false l
  rw [cutKeyword?_eq hkw] at hcut
  have hfirst := congrArg (Option.map fun cut : List Char × List Char => cut.1.length) hcut
  rw [findKeyword, bytes_keyword hkw, findM?_topLevel hkw, String.toList_ofList]
  rw [Option.map_map, Option.map_map] at hfirst
  refine congrArg some (Eq.trans ?_ hfirst)
  cases hplace : (wordPlaces word.toList (bytes l)).head? with
  | none => rfl
  | some i =>
    have hle := ((mem_wordPlaces hkw).mp (List.mem_of_head? hplace)).le_length hkw
    simp only [Option.map_some, Function.comp_apply, List.length_take]
    rw [Nat.min_eq_left (by omega)]

/-! ## Slices -/

/-- The bytes of a part of a text end between two characters of it. -/
theorem isValid_of_append (hs : s.toList = a ++ b) :
    String.Pos.Raw.IsValid s ⟨(bytes a).length⟩ := by
  have hlength := length_bytes_toList (String.ofList a)
  rw [String.toList_ofList] at hlength
  rw [String.Pos.Raw.isValid_iff_exists_append]
  refine ⟨String.ofList a, String.ofList b, ?_, String.Pos.Raw.ext hlength⟩
  rw [← String.ofList_append, ← hs, String.ofList_toList]

/-- **A part of a text is the slice between the offsets of its ends.** -/
theorem slice?_append (hs : s.toList = a ++ (b ++ rest)) :
    slice? s (bytes a).length (bytes (a ++ b)).length = some (String.ofList b) := by
  have hstart := isValid_of_append hs
  have hstop : String.Pos.Raw.IsValid s ⟨(bytes (a ++ b)).length⟩ :=
    isValid_of_append (hs.trans (List.append_assoc a b rest).symm)
  have hle : (bytes a).length ≤ (bytes (a ++ b)).length := by simp
  have hbehind : (a.utf8Encode ++ (b.utf8Encode ++ rest.utf8Encode)).extract
      ((bytes a).length + 0) ((bytes a).length + (bytes b).length) = b.utf8Encode := by
    rw [ByteArray.extract_append_size_add' (length_bytes a),
      ByteArray.extract_append_eq_left (length_bytes b)]
  rw [slice?, dif_pos ⟨hle, hstart, hstop⟩, Option.some.injEq, ← String.toByteArray_inj,
    String.toByteArray_extract, String.toByteArray_ofList, ← String.utf8Encode_toList, hs,
    List.utf8Encode_append, List.utf8Encode_append, String.offset_pos, String.offset_pos,
    bytes_append, List.length_append]
  exact hbehind

/-- What follows a part of a text is the slice from its end on. -/
theorem slice?_behind (hs : s.toList = a ++ b) :
    slice? s (bytes a).length s.utf8ByteSize = some (String.ofList b) := by
  have hend : s.toList = a ++ (b ++ []) := by rw [hs, List.append_nil]
  rw [← length_bytes_toList, hs]
  exact slice?_append hend

/-! ## Fields -/

theorem topLevel_append (n : Nesting) (i : Nat) (xs ys : List Char) :
    topLevel n i (xs ++ ys) = topLevel n i xs ++ topLevel (n.after xs) (i + xs.length) ys := by
  induction xs generalizing n i with
  | nil => rfl
  | cons x more ih =>
    have hoffset : i + (x :: more).length = i + 1 + more.length := by
      rw [List.length_cons]
      omega
    have hnext : n.after (x :: more) = (n.step x).after more := rfl
    simp only [List.cons_append, topLevel, ih, hoffset, hnext]
    split_ifs <;> rfl

theorem after_bytes (n : Nesting) (c : Char) : n.after (bytes [c]) = n.step c := by
  rcases Nat.lt_or_ge c.toNat 128 with hascii | hwide
  · rw [bytes_of_ascii hascii]
    rfl
  · rw [after_of_plain fun b hb => (isGap_bytes hwide b hb).1,
      step_of_plain (isGap_singleton hwide c List.mem_cons_self).1]

/-- No comma is met at top level in the bytes of a character that is none there. -/
theorem ne_comma_of_mem_topLevel (hc : ¬ (c = ',' ∧ n.isTop c)) {j : Nat}
    (hj : j ∈ topLevel n i (bytes [c])) :
    ∃ k b, j = i + k ∧ (bytes [c])[k]? = some b ∧ b ≠ ',' := by
  rw [topLevel_eq] at hj
  obtain ⟨k, hk, rfl⟩ := List.mem_map.mp hj
  obtain ⟨b, hb, htop⟩ := (Option.any_eq_true _ _).mp (List.mem_filter.mp hk).2
  refine ⟨k, b, rfl, hb, ?_⟩
  rintro rfl
  rcases Nat.lt_or_ge c.toNat 128 with hascii | hwide
  · rw [bytes_of_ascii hascii] at hb htop
    obtain ⟨rfl, rfl⟩ : k = 0 ∧ c = ',' := by
      cases k <;> simp_all
    exact hc ⟨rfl, htop⟩
  · exact absurd (le_toNat_of_mem_bytes hwide _ (List.mem_of_getElem? hb)) (by decide)

theorem splitFrom_append {passed : List Nat} (start : Nat) (offsets : List Nat)
    (h : ∀ j ∈ passed, ∃ b, (bytes s.toList)[j]? = some b ∧ b ≠ ',') :
    splitFrom s start (passed ++ offsets) = splitFrom s start offsets := by
  induction passed with
  | nil => rfl
  | cons j more ih =>
    obtain ⟨⟨b, hb, hne⟩, hmore⟩ := List.forall_mem_cons.mp h
    rw [List.cons_append, splitFrom, hb]
    simp only [Option.bind_eq_bind, Option.bind_some, if_neg hne]
    exact ih hmore

theorem trimmed_ofList (l : List Char) : trimmed (String.ofList l) = String.ofList (trim l) := by
  rw [trimmed, String.toList_ofList]

/-- A comma ends the field that begins behind `a`. -/
theorem splitFrom_comma {current : List Char} (hs : s.toList = a ++ (current ++ ',' :: rest))
    (offsets : List Nat) :
    splitFrom s (bytes a).length ((bytes (a ++ current)).length :: offsets) =
      (splitFrom s ((bytes (a ++ current)).length + 1) offsets).map
        (String.ofList (trim current) :: ·) := by
  have hbyte : (bytes s.toList)[(bytes (a ++ current)).length]? = some ',' := by
    rw [hs, ← List.append_assoc, bytes_append, bytes_cons, bytes_of_ascii (by decide),
      List.getElem?_append_right (Nat.le_refl _), Nat.sub_self]
    rfl
  rw [splitFrom, hbyte]
  simp only [Option.bind_eq_bind, Option.bind_some, if_true, slice?_append hs, trimmed_ofList]
  cases splitFrom s ((bytes (a ++ current)).length + 1) offsets <;> rfl

/-- Every other character is passed over. -/
theorem splitFrom_passed (hs : s.toList = a ++ c :: rest) (hc : ¬ (c = ',' ∧ n.isTop c))
    (start : Nat) (offsets : List Nat) :
    splitFrom s start (topLevel n (bytes a).length (bytes [c]) ++ offsets) =
      splitFrom s start offsets := by
  refine splitFrom_append start offsets fun j hj => ?_
  obtain ⟨k, b, rfl, hb, hne⟩ := ne_comma_of_mem_topLevel hc hj
  have hk : k < (bytes [c]).length := (List.getElem?_eq_some_iff.mp hb).1
  refine ⟨b, ?_, hne⟩
  rw [hs, bytes_append, bytes_cons, List.getElem?_append_right (Nat.le_add_right _ _),
    Nat.add_sub_cancel_left, List.getElem?_append_left hk, hb]

/-- A split that has come behind `current` in a field that begins behind `a`. -/
theorem splitFrom_eq {current first : List Char} {more : List (List Char)}
    (hs : s.toList = a ++ (current ++ rest)) (hcut : cutCommas n rest = first :: more) :
    splitFrom s (bytes a).length (topLevel n (bytes (a ++ current)).length (bytes rest)) =
      some (String.ofList (trim (current ++ first)) ::
        more.map fun field => String.ofList (trim field)) := by
  induction rest generalizing a current first more n with
  | nil =>
    obtain ⟨rfl, rfl⟩ := List.cons.inj hcut
    rw [List.append_nil] at hs
    rw [bytes_nil, topLevel, splitFrom, slice?_behind hs, List.append_nil, ← trimmed_ofList]
    rfl
  | cons c rest ih =>
    obtain ⟨part, parts, hparts⟩ := List.exists_cons_of_ne_nil (cutCommas_ne_nil (n.step c) rest)
    have hoffset : (bytes (a ++ current)).length + (bytes [c]).length =
        (bytes (a ++ current ++ [c])).length := by
      rw [bytes_append _ [c], List.length_append]
    rw [bytes_cons, topLevel_append, after_bytes, hoffset]
    rw [cutCommas] at hcut
    by_cases hcomma : c = ',' ∧ n.isTop c
    · rw [if_pos hcomma] at hcut
      obtain ⟨rfl, rfl⟩ := List.cons.inj hcut
      obtain ⟨rfl, htop⟩ := hcomma
      have hbyte : bytes [','] = [','] := bytes_of_ascii (by decide)
      have hbehind : s.toList = a ++ current ++ [','] ++ ([] ++ rest) := by simpa using hs
      have hnext := ih hbehind hparts
      rw [List.append_nil, List.nil_append, ← hoffset] at hnext
      rw [← hoffset, hbyte, topLevel, if_pos htop, topLevel, List.singleton_append,
        splitFrom_comma hs, hparts, List.append_nil]
      exact congrArg (Option.map _) hnext
    · rw [if_neg hcomma] at hcut
      simp only [hparts] at hcut
      obtain ⟨rfl, rfl⟩ := List.cons.inj hcut
      have hhere : s.toList = a ++ current ++ c :: rest := by rw [hs, List.append_assoc]
      have hbehind : s.toList = a ++ (current ++ [c] ++ rest) := by simpa using hs
      have hnext := ih hbehind hparts
      rw [splitFrom_passed hhere hcomma, List.append_assoc, hnext, List.append_assoc,
        List.singleton_append]

theorem splitFields_eq (s : String) : splitFields s = some (Statement.splitFields s) := by
  obtain ⟨first, more, hcut⟩ :=
    List.exists_cons_of_ne_nil (cutCommas_ne_nil .outside s.toList)
  have hwhole : s.toList = [] ++ ([] ++ s.toList) := rfl
  have hsplit := splitFrom_eq hwhole hcut
  rw [splitFields, Statement.splitFields, splitFieldChars, hcut, List.map_map]
  exact hsplit

/-! ## Names -/

theorem bytes_spelled {word : List Char} (hkw : IsKeyword kw) (hword : word.map Char.toLower = kw) :
    (bytes word).length = kw.length := by
  rw [bytes_of_wordChar (isWordChar_of_spelled hkw hword), ← hword, List.length_map]

/-- The offset at which an alias is found is that of the `as` before it; if there is no
alias, it is the one found before. -/
inductive Marks (field : String) (found? : Option Nat) :
    Option (List Char) → Option Nat → Prop where
  | none : Marks field found? none found?
  | some {before behind : List Char} {i : Nat} (hs : field.toList = before ++ behind)
      (hi : i + 2 = (bytes before).length) : Marks field found? (some behind) (some i)

/-- One step of the search for aliases. -/
theorem aliasFrom_eq {field : String} (hs : field.toList = a ++ rest) (found? : Option Nat) :
    aliasFrom field (bytes a).length found? =
      match cutKeyword? ['a', 's'] .outside false rest with
      | none => some found?
      | some (before, _) =>
        aliasFrom field ((bytes (a ++ before)).length + 2) (some (bytes (a ++ before)).length) := by
  rw [aliasFrom]
  split
  · next hnone =>
    rw [slice?_behind hs] at hnone
    cases hnone
  · next text htext =>
    rw [slice?_behind hs] at htext
    obtain rfl := Option.some.inj htext
    have has : IsKeyword "as".toList := isKeyword_as
    have hfind : findKeyword (String.ofList rest) "as" =
        some ((cutKeyword? ['a', 's'] .outside false rest).map
          fun (before, _) => (bytes before).length) := findKeyword_eq has rest
    rw [hfind]
    cases cutKeyword? ['a', 's'] .outside false rest with
    | none => rfl
    | some cut => simp only [Option.map_some, bytes_append, List.length_append]

/-- The search for aliases finds the last one, wherever it starts anew. -/
theorem aliasFrom_marks {field : String} (hs : field.toList = a ++ rest) (found? : Option Nat) :
    ∃ i?, aliasFrom field (bytes a).length found? = some i? ∧
      Marks field found? (afterLastAs? rest) i? := by
  induction rest using wellFounded_resumes.induction generalizing a found? with
  | h rest ih =>
    rw [aliasFrom_eq hs]
    cases hcut : cutKeyword? ['a', 's'] .outside false rest with
    | none =>
      rw [afterLastAs?_of_cut_none hcut]
      exact ⟨found?, rfl, .none⟩
    | some cut =>
      obtain ⟨before, behind⟩ := cut
      obtain ⟨word, hrest, hword, -⟩ := exists_of_cutKeyword? isKeyword_as hcut
      have hbehind : field.toList = a ++ before ++ word ++ behind := by
        rw [hs, hrest]
        simp only [List.append_assoc]
      have hlength : (bytes (a ++ before)).length + 2 = (bytes (a ++ before ++ word)).length := by
        rw [bytes_append _ word, List.length_append, bytes_spelled isKeyword_as hword]
        rfl
      rw [afterLastAs?_of_cut hcut]
      obtain ⟨i?, hfound, hmarks⟩ :=
        ih behind ⟨before, hcut⟩ hbehind (some (bytes (a ++ before)).length)
      rw [← hlength] at hfound
      refine ⟨i?, hfound, ?_⟩
      cases hlast : afterLastAs? behind with
      | none =>
        rw [hlast] at hmarks
        cases hmarks
        exact .some hbehind hlength
      | some last =>
        rw [hlast] at hmarks
        cases hmarks with
        | some hs hi => exact .some hs hi

theorem isEmpty_toList (s : String) : s.isEmpty = s.toList.isEmpty := by
  rw [Bool.eq_iff_iff, String.isEmpty_iff, List.isEmpty_iff, String.toList_eq_nil_iff]

theorem fieldName_eq (s : String) : fieldName s = some (Statement.fieldName s) := by
  have hfield : (trimmed s).toList = [] ++ trim s.toList := by
    rw [trimmed, String.toList_ofList, List.nil_append]
  obtain ⟨i?, hfound, hmarks⟩ := aliasFrom_marks hfield none
  rw [bytes_nil, List.length_nil] at hfound
  simp only [fieldName, hfound, Option.bind_eq_bind, Option.bind_some, Statement.fieldName,
    fieldNameChars]
  cases hlast : afterLastAs? (trim s.toList) with
  | none =>
    rw [hlast] at hmarks
    cases hmarks
    rfl
  | some behind =>
    rw [hlast] at hmarks
    cases hmarks with
    | some hs hi =>
      simp only [hi, slice?_behind hs, Option.bind_some, trimmed_ofList, isEmpty_toList,
        String.toList_ofList]
      split_ifs <;> rfl

/-! ## Columns -/

theorem columnsOf_eq (fields table : List Char) :
    columnsOf (String.ofList fields) (String.ofList table) =
      some (Statement.columnsOf fields table) := by
  have hnames : fieldName = fun s => pure (Statement.fieldName s) := funext fieldName_eq
  rw [columnsOf, String.toList_ofList, Statement.columnsOf]
  rcases trim fields with - | ⟨c, rest⟩
  · rfl
  · by_cases hc : c = '*'
    · subst hc
      simp only [isEmpty_toList, String.toList_ofList]
    · split
      · contradiction
      · next heq => exact absurd (List.cons.inj heq).1 hc
      · have hfields : (Statement.splitFields (String.ofList (c :: rest))).map Statement.fieldName =
            (splitFieldChars (c :: rest)).map fun f => String.ofList (fieldNameChars f) := by
          simp only [Statement.splitFields, Statement.fieldName, List.map_map, Function.comp_def,
            String.toList_ofList]
        rw [splitFields_eq, hnames]
        simp only [Option.bind_eq_bind, Option.bind_some, List.mapM_pure, hfields]
        rfl

theorem columnsBehind_eq (rest : List Char) : columnsBehind (String.ofList rest) =
    some (match cutKeyword? "from".toList .outside false rest with
      | some (fields, behind) => Statement.columnsOf fields (firstWord behind)
      | none => Statement.columnsOf rest []) := by
  rw [columnsBehind, findKeyword_eq isKeyword_from, Option.bind_eq_bind, Option.bind_some]
  cases hcut : cutKeyword? "from".toList .outside false rest with
  | none => exact columnsOf_eq rest []
  | some cut =>
    obtain ⟨fields, behind⟩ := cut
    obtain ⟨word, hrest, hword, -⟩ := exists_of_cutKeyword? isKeyword_from hcut
    have hfront : (String.ofList rest).toList = [] ++ (fields ++ (word ++ behind)) := by
      rw [String.toList_ofList, hrest, List.nil_append]
    have hbehind : (String.ofList rest).toList = (fields ++ word) ++ behind := by
      rw [String.toList_ofList, hrest, List.append_assoc]
    have hlength : (bytes (fields ++ word)).length = (bytes fields).length + 4 := by
      rw [bytes_append, List.length_append, bytes_spelled isKeyword_from hword]
      rfl
    have hlist := slice?_append hfront
    have htail := slice?_behind hbehind
    rw [hlength] at htail
    simp only [bytes_nil, List.length_nil, List.nil_append] at hlist
    simp only [Option.map_some, htail, hlist, Option.bind_eq_bind, Option.bind_some,
      String.toList_ofList]
    exact columnsOf_eq fields (firstWord behind)

theorem selectColumns_eq (s : String) : selectColumns s = some (Statement.selectColumns s) := by
  simp only [selectColumns, Statement.selectColumns, findKeyword_eq isKeyword_select,
    Option.bind_eq_bind, Option.bind_some]
  cases hcut : cutKeyword? "select".toList .outside false (statementCore s.toList) with
  | none => rfl
  | some cut =>
    obtain ⟨before, rest⟩ := cut
    obtain ⟨word, hcore, hword, -⟩ := exists_of_cutKeyword? isKeyword_select hcut
    cases before with
    | nil =>
      have hbehind : (String.ofList (statementCore s.toList)).toList = word ++ rest := by
        rw [String.toList_ofList, hcore, List.nil_append]
      have htail := slice?_behind hbehind
      rw [bytes_spelled isKeyword_select hword] at htail
      have hsix : slice? (String.ofList (statementCore s.toList)) 6
          (String.ofList (statementCore s.toList)).utf8ByteSize = some (String.ofList rest) := htail
      simp only [Option.map_some, bytes_nil, List.length_nil, if_true, hsix, Option.bind_some]
      exact columnsBehind_eq rest
    | cons c front =>
      have hlater : ¬ some (bytes (c :: front)).length = some 0 := by
        rw [Option.some.injEq, List.length_eq_zero_iff, bytes_cons]
        exact List.append_ne_nil_of_left_ne_nil (bytes_ne_nil c) _
      simp only [Option.map_some, if_neg hlater]
      rfl

/-- **No scan asks for a part of a text that does not exist.** Every slice that is taken
to find the columns of a statement, the fields of a list or the name of a field stands
between two characters of its text, and every byte that is looked at is there: the
scans by offsets have an answer for every text. It is that of the scans by characters. -/
theorem scans_answer (s : String) :
    selectColumns s = some (Statement.selectColumns s) ∧
      splitFields s = some (Statement.splitFields s) ∧
      fieldName s = some (Statement.fieldName s) :=
  ⟨selectColumns_eq s, splitFields_eq s, fieldName_eq s⟩

end Querent.Statement.Offsets
