import Querent.Proofs.Foreign.Payloads
import Querent.Proofs.Foreign.Rows
import Querent.Proofs.Text.Passing

/-!
# Values in the keeping of a library

A procedure passes a value to a row as a tag and a pointer to where the value stands. What
the library makes of the pointer depends on the tag: it keeps the bytes of a text up to the
zero byte, the eight bytes of a word, the low byte of a word that is a truth value, or
nothing. Reading the row back, it is given the tag again and a pointer to what was kept,
with other bytes behind. The two conventions fit: a row reads back as the values that the
library took.
-/

namespace Querent

/-- The value is no text with a NUL. -/
def Value.Passable : Value → Prop
  | .text s => Querent.Passable s
  | _ => True

instance : DecidablePred Value.Passable
  | .text s => inferInstanceAs (Decidable (Querent.Passable s))
  | .null | .date _ | .time _ | .float _ | .int _ | .uint _ | .bool _ =>
    inferInstanceAs (Decidable True)

namespace Foreign

/-! ## Payloads -/

/-- The bytes of a text that is passed by a pointer: those before the first zero byte, and it. -/
def cString (s : String) : Memory := (Text.Utf8.encode s.toList).takeWhile (· ≠ 0) ++ [0]

/-- What a library keeps of a cell under a tag. Under no other tag, and of no other cell, a
value is passed. -/
def Cell.payload? (tag : Int8) (cell : Cell) : Option Memory :=
  match tag.toInt, cell with
  | 0, _ => some []
  | 1, .text s => some (cString s)
  | 2, .word w | 3, .word w | 4, .word w | 5, .word w | 6, .word w => some (wordBytes w)
  | 9, .word w => some [w.toUInt8]
  | _, _ => none

/-- The bytes that are kept of a value. -/
def payload : Value → Memory
  | .null => []
  | .text s => cString s
  | .date n | .time n | .int n => wordBytes n.toUInt64
  | .uint n => wordBytes n
  | .float x => wordBytes x.bits
  | .bool b => [if b then 1 else 0]

/-- What is passed of a value is kept whole. -/
theorem payload?_ofValue {v : Value} {cell : Cell} (h : Cell.ofValue? v = some cell) :
    cell.payload? v.type.tag.toInt8 = some (payload v) := by
  cases v with
  | text s =>
    rw [Cell.ofValue?] at h
    split at h
    · cases h
    · cases h
      rfl
  | bool b =>
    cases h
    cases b <;> rfl
  | null | date n | time n | float x | int n | uint n =>
    cases h
    rfl

theorem passable_iff {v : Value} : v.Passable ↔ (Cell.ofValue? v).isSome := by
  cases v with
  | text s =>
    rw [Value.Passable, Querent.Passable, ← nulPosition?_eq_none_iff, Cell.ofValue?]
    cases Text.Utf8.nulPosition? s.toList <;> simp
  | null | date n | time n | float x | int n | uint n | bool b =>
    exact iff_of_true trivial rfl

/-- The bytes that are kept of a value are this value, whatever stands behind them. -/
theorem standsAt_payload {v : Value} (h : v.Passable) (rest : Memory) :
    StandsAt v.type (payload v ++ rest) v := by
  cases v with
  | null => exact .nothing _
  | text s =>
    have hzero : 0 ∉ Text.Utf8.encode s.toList := fun hmem =>
      Text.Utf8.ne_zero_of_mem_encode h 0 hmem rfl
    have hbytes : (Text.Utf8.encode s.toList).takeWhile (· ≠ 0) = Text.Utf8.encode s.toList :=
      List.takeWhile_eq_self_iff.mpr fun b hb => decide_eq_true (ne_of_mem_of_not_mem hb hzero)
    rw [payload, cString, hbytes, List.append_assoc]
    have hstands := StandsAt.text hzero (Text.Utf8.transcribed_encode _) rest
    rwa [String.ofList_toList] at hstands
  | date n => exact .date n rest
  | time n => exact .time n rest
  | float x => exact .float x rest
  | int n => exact .int n rest
  | uint n => exact .uint n rest
  | bool b =>
    cases b with
    | false => exact .bool 0 rest
    | true => exact .bool 1 rest

/-! ## Fields that a library keeps -/

/-- A field as a library keeps it: the tag that it came with, and the payload. -/
structure StoredField where
  tag : Int8
  payload : Memory
  deriving DecidableEq, Repr

/-- What is kept of a value. -/
def stored (v : Value) : StoredField := ⟨v.type.tag.toInt8, payload v⟩

/-- The field is given back: its tag, and a pointer to the payload if there is any. -/
def StoredField.ShownBy (f : StoredField) (x : PlainField) : Prop :=
  x.2 = f.tag.toInt64 ∧ (f.payload ≠ [] → ∃ rest, x.1 = some (f.payload ++ rest))

/-- The library keeps what is added to the row `h`, and gives it back under the handle `c`;
`Holds` says what it keeps in a state. A code that is not zero says that it does not take a
field, and is not lost with its high bits. -/
structure HostTable.Stores {σ : Type} (t : HostTable σ) (h c : Handle)
    (Holds : σ → List StoredField → Prop) : Prop where
  add : ∀ tag cell payload, Cell.payload? tag cell = some payload → ∀ s fields, Holds s fields →
    let answer := t.add h tag cell s
    (answer.1 = 0 → Holds answer.2 (fields ++ [⟨tag, payload⟩])) ∧
      (answer.1 ≠ 0 → Signals answer.1 ∧ Holds answer.2 fields)
  field : ∀ fields i f, fields[i]? = some f → ∀ s, Holds s fields →
    f.ShownBy (t.field c (Int64.ofNat i) s).1 ∧ Holds (t.field c (Int64.ofNat i) s).2 fields
  fieldCount : ∀ count, t.fieldCount = some count → ∀ s fields, Holds s fields →
    (count c s).1.toInt = fields.length ∧ Holds (count c s).2 fields

/-- The library takes the values one after the other, but for those that cannot be passed. -/
inductive HostTable.Takes {σ : Type} (t : HostTable σ) (h : Handle) : σ → List Value → Prop
  | nil {s} : Takes t h s []
  | taken {s v vs cell} : Cell.ofValue? v = some cell →
    (t.add h v.type.tag.toInt8 cell s).1 = 0 →
    Takes t h (t.add h v.type.tag.toInt8 cell s).2 vs → Takes t h s (v :: vs)
  | unpassed {s v vs} : ¬ v.Passable → Takes t h s vs → Takes t h s (v :: vs)

theorem ofTag?_tag (type : ValueType) :
    ValueType.ofTag? type.tag.toInt8.toInt64.toInt32 = some type := by
  cases type <;> rfl

/-- Only of null nothing is kept. -/
theorem eq_null_of_payload {v : Value} (h : payload v = []) : v = .null := by
  cases v with
  | null => rfl
  | text s => simp [payload, cString] at h
  | date n | time n | float x | int n | uint n => simp [payload, wordBytes] at h
  | bool b => cases h

/-- A value that is kept is decoded as this value. -/
theorem decodeField_stored {v : Value} (h : v.Passable) {x : PlainField}
    (hx : (stored v).ShownBy x) : decodeField.uncurry x = v := by
  obtain ⟨pointer, tag⟩ := x
  obtain ⟨htag, hpointer⟩ := hx
  obtain rfl : tag = v.type.tag.toInt8.toInt64 := htag
  by_cases hnone : payload v = []
  · -- the pointer may be null or lead anywhere
    obtain rfl := eq_null_of_payload hnone
    cases pointer <;> rfl
  · obtain ⟨rest, hrest⟩ := hpointer hnone
    obtain rfl : pointer = some (payload v ++ rest) := hrest
    simp only [Function.uncurry_apply_pair, decodeField, ofTag?_tag,
      (standsAt_payload h rest).decodeAs]

/-! ## Adding and reading -/

/-- The values that were taken, by the codes that adding them returned. -/
def accepted (vs : List Value) (codes : List Code) : List Value :=
  ((vs.zip codes).filter (·.2 = Code.ok)).map (·.1)

theorem accepted_cons (v : Value) (vs : List Value) (code : Code) (codes : List Code) :
    accepted (v :: vs) (code :: codes) =
      (if code = Code.ok then [v] else []) ++ accepted vs codes := by
  by_cases hcode : code = Code.ok <;> simp [accepted, hcode]

section Row

variable {σ : Type} {t : HostTable σ} {h c : Handle} {Holds : σ → List StoredField → Prop}
  {v : Value} {vs : List Value} {s : σ} {fields : List StoredField}

theorem mapM_cons_apply {ι α : Type} (f : ι → StateM σ α) (i : ι) (l : List ι) (s : σ) :
    (i :: l).mapM f s =
      ((f i s).1 :: (l.mapM f (f i s).2).1, (l.mapM f (f i s).2).2) := by
  rw [List.mapM_cons]
  rfl

/-- A text with a NUL is refused, and the library is not asked. -/
theorem add_of_not_passable (hv : ¬ v.Passable) :
    t.library.host.add h v s = (Code.invalid, s) := by
  rw [passable_iff, Option.not_isSome_iff_eq_none] at hv
  simp only [HostTable.library, HostTable.hostCalls, hv]
  rfl

theorem passable_of_add (hadd : (t.library.host.add h v s).1 = Code.ok) : v.Passable := by
  by_contra hv
  rw [add_of_not_passable hv] at hadd
  cases hadd

/-- No text with a NUL was taken. -/
theorem passable_of_accepted :
    ∀ v ∈ accepted vs (vs.mapM (t.library.host.add h) s).1, v.Passable := by
  induction vs generalizing s with
  | nil => simp [accepted]
  | cons v vs ih =>
    rw [mapM_cons_apply, accepted_cons]
    intro v' hv'
    rcases List.mem_append.mp hv' with hfirst | hlater
    · split at hfirst
      · next hcode =>
        obtain rfl := List.mem_singleton.mp hfirst
        exact passable_of_add hcode
      · cases hfirst
    · exact ih v' hlater

/-- A value that can be passed is given to the library once, under its tag, and the answer is
the answer of the library, cut to 32 bits. -/
theorem add_of_cell {cell : Cell} (hcell : Cell.ofValue? v = some cell) :
    t.library.host.add h v s = ((t.add h v.type.tag.toInt8 cell s).1.toInt32,
      (t.add h v.type.tag.toInt8 cell s).2) := by
  simp only [HostTable.library, HostTable.hostCalls, hcell]
  rfl

/-- Of values that the library takes only the texts with a NUL are missing. -/
theorem HostTable.Takes.accepted_eq (htakes : t.Takes h s vs) :
    accepted vs (vs.mapM (t.library.host.add h) s).1 = vs.filter (·.Passable) := by
  induction htakes with
  | nil => rfl
  | @taken s v vs cell hcell hzero _ ih =>
    have hv : v.Passable := passable_iff.mpr (by rw [hcell]; rfl)
    have hcode : (t.add h v.type.tag.toInt8 cell s).1.toInt32 = Code.ok := by rw [hzero]; rfl
    rw [mapM_cons_apply, accepted_cons, add_of_cell hcell]
    dsimp only
    rw [if_pos hcode, ih, List.filter_cons_of_pos (by simpa using hv)]
    rfl
  | @unpassed s v vs hv _ ih =>
    have hcode : Code.invalid ≠ Code.ok := by decide
    rw [mapM_cons_apply, accepted_cons, add_of_not_passable hv]
    dsimp only
    rw [if_neg hcode, ih, List.filter_cons_of_neg (by simpa using hv)]
    rfl

namespace HostTable.Stores

variable (ht : t.Stores h c Holds)

include ht

/-- The library takes a value and keeps it, or says that it does not. -/
theorem add_holds (hs : Holds s fields) :
    Holds (t.library.host.add h v s).2 (fields ++
      (if (t.library.host.add h v s).1 = Code.ok then [v] else []).map stored) := by
  cases hcell : Cell.ofValue? v with
  | none =>
    have hv : ¬ v.Passable := by simp [passable_iff, hcell]
    have hrefused : Code.invalid ≠ Code.ok := by decide
    rw [add_of_not_passable hv]
    dsimp only
    rw [if_neg hrefused, List.map_nil, List.append_nil]
    exact hs
  | some cell =>
    obtain ⟨htaken, hrefused⟩ := ht.add _ cell _ (payload?_ofValue hcell) s fields hs
    rw [add_of_cell hcell]
    dsimp only
    by_cases hzero : (t.add h v.type.tag.toInt8 cell s).1 = 0
    · have hcode : (t.add h v.type.tag.toInt8 cell s).1.toInt32 = Code.ok := by rw [hzero]; rfl
      rw [if_pos hcode]
      exact htaken hzero
    · -- a refusal is heard, so the value does not count as taken
      obtain ⟨hsignals, hkept⟩ := hrefused hzero
      have hcode : (t.add h v.type.tag.toInt8 cell s).1.toInt32 ≠ Code.ok := hsignals
      rw [if_neg hcode, List.map_nil, List.append_nil]
      exact hkept

/-- All that was taken is kept, in its order: the induction is on the values. -/
theorem adds_hold (hs : Holds s fields) :
    Holds (vs.mapM (t.library.host.add h) s).2
      (fields ++ (accepted vs (vs.mapM (t.library.host.add h) s).1).map stored) := by
  induction vs generalizing s fields with
  | nil => simpa [accepted] using hs
  | cons v vs ih =>
    rw [mapM_cons_apply, accepted_cons, List.map_append, ← List.append_assoc]
    exact ih (ht.add_holds hs)

theorem field_reads {kept : List Value} (hkept : ∀ v ∈ kept, v.Passable) (i : Nat)
    (hi : i < kept.length) :
    Reads (Holds · (kept.map stored)) (t.library.results.field c i) kept[i] := by
  intro s hs
  have hfield : (kept.map stored)[i]? = some (stored kept[i]) := by simp [hi]
  obtain ⟨hshown, hs'⟩ := ht.field _ i _ hfield s hs
  exact ⟨decodeField_stored (hkept _ (List.getElem_mem hi)) hshown, hs'⟩

theorem count_reads (hcount : t.fieldCount.isSome) (kept : List Value) :
    Reads (Holds · (kept.map stored)) (t.library.results.fieldCount c) kept.length := by
  obtain ⟨count, hsome⟩ := Option.isSome_iff_exists.mp hcount
  show Reads _ (countFields (t.fieldCount.map (· c)) _) _
  rw [hsome]
  refine countFields_reads fun s hs => ?_
  obtain ⟨hlength, hs'⟩ := ht.fieldCount count hsome s _ hs
  exact ⟨by rw [hlength, List.length_map], hs'⟩

end HostTable.Stores

end Row

end Foreign

open Foreign

/-- **Values read back.** A procedure adds values to a row of a library that keeps what it
takes. What it took is then kept, in its order; and in every state in which it is kept, the
fields are read as these values, with the types, numbers, bits and texts that they had, one
by one and, where the library tells how many there are, as a row. If the library answers
that it takes all that it is given, only the texts with a NUL are missing. Each value that
can be passed is given to the library once, under the tag of its type, and its answer is
passed on, cut to 32 bits; the texts with a NUL are refused as invalid, and the library is
not asked. -/
theorem taken_reads_back {σ : Type} {t : HostTable σ} {h c : Handle}
    {Holds : σ → List StoredField → Prop} (ht : t.Stores h c Holds) {s : σ} (hs : Holds s [])
    (vs : List Value) :
    let added := vs.mapM (t.library.host.add h) s
    let taken := accepted vs added.1
    Holds added.2 (taken.map stored) ∧
      (∀ s', Holds s' (taken.map stored) →
        ((List.range taken.length).mapM (t.library.results.field c) s').1 = taken) ∧
      (t.fieldCount.isSome → ∀ w : World σ, Holds w.lib (taken.map stored) →
        (Batch.row t.library ⟨c⟩ w).1 = taken) ∧
      (t.Takes h s vs → taken = vs.filter (·.Passable)) ∧
      (∀ v s', v.Passable → ∃ cell, cell.payload? v.type.tag.toInt8 = some (payload v) ∧
        t.library.host.add h v s' = ((t.add h v.type.tag.toInt8 cell s').1.toInt32,
          (t.add h v.type.tag.toInt8 cell s').2)) ∧
      ∀ text s', ¬ Passable text → t.library.host.add h (.text text) s' = (Code.invalid, s') := by
  intro added taken
  have passable : ∀ v ∈ taken, v.Passable := passable_of_accepted
  refine ⟨ht.adds_hold hs, ?_, ?_, fun htakes => htakes.accepted_eq, ?_, ?_⟩
  · intro s' hs'
    exact (reads_range (ht.field_reads passable) s' hs').1
  · intro hcount w hw
    exact (batch_row_reads (ht.count_reads hcount taken) (ht.field_reads passable) w hw).1
  · intro v s' hv
    obtain ⟨cell, hcell⟩ := Option.isSome_iff_exists.mp (passable_iff.mp hv)
    exact ⟨cell, payload?_ofValue hcell, add_of_cell hcell⟩
  · intro text s' htext
    exact add_of_not_passable htext

/-- A library whose state is the fields of one row, as many as it has room for. Behind each
payload stands a byte that is none of it. -/
def Foreign.keeping (room : Nat) : HostTable (List StoredField) where
  execute := fun _ _ => pure (2, none)
  wrap := fun _ => pure none
  makeSuccess := pure none
  makeError := fun _ _ => pure none
  makeReport := none
  makeRow := fun _ => (some ⟨1⟩, [])
  release := fun _ _ => pure ()
  kind := fun _ => pure 0x23
  status := fun _ => pure 1
  errorCode := fun _ => pure 0
  details := fun _ => pure none
  report := none
  atEnd := fun _ => pure 0
  add := fun _ tag cell fields =>
    match cell.payload? tag with
    | some payload =>
      if fields.length < room then (0, fields ++ [⟨tag, payload⟩]) else (5, fields)
    | none => (2, fields)
  capacity := fun _ => pure 8192
  closeRow := fun _ => pure 0
  openCursor := fun _ => pure 0
  closeCursor := fun _ => pure ()
  fetch := fun _ => pure 8
  batch := fun h => pure (some h)
  nextRow := fun _ => pure 8
  copyRow := fun h => pure (some h)
  fieldCount := some fun _ fields => (Int64.ofNat fields.length, fields)
  field := fun _ i fields =>
    match fields[i.toInt.toNat]? with
    | some f => ((some (f.payload ++ [0xAA]), f.tag.toInt64), fields)
    | none => ((none, 0), fields)

theorem Foreign.keeping_add (room : Nat) (h : Handle) {tag : Int8} {cell : Cell}
    {payload : Memory} (hpayload : cell.payload? tag = some payload) (fields : List StoredField) :
    (keeping room).add h tag cell fields =
      if fields.length < room then (0, fields ++ [⟨tag, payload⟩]) else (5, fields) := by
  dsimp only [keeping]
  rw [hpayload]

/-- It takes values as long as there is room. -/
theorem Foreign.keeping_takes {room : Nat} (h : Handle) (vs : List Value)
    {fields : List StoredField} (hroom : fields.length + vs.length ≤ room) :
    (keeping room).Takes h fields vs := by
  induction vs generalizing fields with
  | nil => exact .nil
  | cons v vs ih =>
    rw [List.length_cons] at hroom
    cases hcell : Cell.ofValue? v with
    | none =>
      exact .unpassed (by simp [passable_iff, hcell]) (ih (by omega))
    | some cell =>
      have hadd := keeping_add room h (payload?_ofValue hcell) fields
      rw [if_pos (by omega)] at hadd
      refine .taken hcell (by rw [hadd]) (ih ?_)
      rw [hadd, List.length_append, List.length_singleton]
      omega

theorem Foreign.keeping_stores (room : Nat) (hroom : room < 2 ^ 63) (h c : Handle) :
    (keeping room).Stores h c fun s fields => s = fields ∧ fields.length ≤ room where
  add := by
    rintro tag cell payload hpayload s fields ⟨rfl, hlength⟩
    have hfull : (5 : Int64) ≠ 0 ∧ Signals 5 := by
      unfold Signals
      decide
    rw [keeping_add room _ hpayload]
    by_cases hlt : s.length < room
    · rw [if_pos hlt]
      refine ⟨fun _ => ⟨rfl, ?_⟩, fun hne => absurd rfl hne⟩
      rw [List.length_append]
      exact hlt
    · rw [if_neg hlt]
      exact ⟨fun hzero => absurd hzero hfull.1, fun _ => ⟨hfull.2, rfl, hlength⟩⟩
  field := by
    rintro fields i f hf s ⟨rfl, hlength⟩
    have hi : i < s.length := (List.getElem?_eq_some_iff.mp hf).1
    have hindex : (Int64.ofNat i).toInt.toNat = i := by
      rw [Int64.toInt_ofNat_of_lt (by omega), Int.toNat_natCast]
    dsimp only [keeping]
    rw [hindex, hf]
    exact ⟨⟨rfl, fun _ => ⟨_, rfl⟩⟩, rfl, hlength⟩
  fieldCount := by
    rintro count hcount s fields ⟨rfl, hlength⟩
    cases hcount
    exact ⟨Int64.toInt_ofNat_of_lt (by omega), rfl, hlength⟩

/-- A value of each type, and a text that is refused. -/
theorem taken_reads_back_each_type :
    let t := keeping 100
    let vs : List Value := [.int (-5), .text "né\x00e", .text "né", .null, .bool true, .bool false,
      .uint 0xFFFFFFFFFFFFFFFF, .date (-1), .time 0, .float ⟨0x7FF8000000000001⟩]
    let added := vs.mapM (t.library.host.add ⟨1⟩) []
    added.1 = [0, 2, 0, 0, 0, 0, 0, 0, 0, 0] ∧
      (Batch.row t.library ⟨⟨1⟩⟩ (.start added.2)).1 = [.int (-5), .text "né", .null, .bool true,
        .bool false, .uint 0xFFFFFFFFFFFFFFFF, .date (-1), .time 0,
        .float ⟨0x7FF8000000000001⟩] := by
  intro t vs added
  have stores := keeping_stores 100 (by decide) ⟨1⟩ ⟨1⟩
  have codes : added.1 = [0, 2, 0, 0, 0, 0, 0, 0, 0, 0] := by decide +kernel
  obtain ⟨holds, -, row, all, -⟩ := taken_reads_back stores ⟨rfl, Nat.zero_le _⟩ vs
  have taken := all (keeping_takes ⟨1⟩ vs (by decide))
  refine ⟨codes, (row rfl (.start added.2) holds).trans (taken.trans ?_)⟩
  decide +kernel

end Querent
