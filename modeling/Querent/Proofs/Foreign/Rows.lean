import Mathlib.Algebra.Ring.Nat
import Mathlib.Data.List.Forall2
import Mathlib.Data.List.TakeWhile
import Querent.Playback.Tables
import Querent.Proofs.Foreign.Delivery

/-!
# Rows with and without a count

A library gives a row field by field: a pointer and a tag for each index, and a null
pointer for every index past the end. Recent builds also tell the number of fields; where
they do not, the fields are counted by asking for one after the other, up to the first null
pointer and to a bound. A null pointer is also the value of a field, so the two ways come
to the same row exactly if all pointers lead somewhere and the row is not wider than the
bound. Otherwise the row ends early.
-/

namespace Querent

namespace Foreign

variable {σ α : Type}

/-! ## Steps under an invariant -/

/-- In a state that has the invariant the step gives the answer `a`, and keeps the
invariant. -/
def Reads (Inv : σ → Prop) (act : StateM σ α) (a : α) : Prop :=
  ∀ s, Inv s → (act s).1 = a ∧ Inv (act s).2

namespace Reads

variable {β ι : Type} {Inv : σ → Prop} {act : StateM σ α} {a : α}

theorem pure (a : α) : Reads Inv (Pure.pure a) a := fun _ hs => ⟨rfl, hs⟩

theorem bind {f : α → StateM σ β} {b : β} (ha : Reads Inv act a) (hf : Reads Inv (f a) b) :
    Reads Inv (act >>= f) b := by
  intro s hs
  obtain ⟨h, hs'⟩ := ha s hs
  rw [bind_apply, h]
  exact hf _ hs'

theorem mapM {f : ι → StateM σ α} {l : List ι} {as : List α}
    (h : List.Forall₂ (fun i a => Reads Inv (f i) a) l as) : Reads Inv (l.mapM f) as := by
  induction h with
  | nil => exact pure []
  | cons ha _ ih =>
    rw [List.mapM_cons]
    exact bind ha (bind ih (pure _))

/-- The world keeps the invariant if the library does. -/
theorem call (ha : Reads Inv act a) : Reads (fun w : World σ => Inv w.lib) (Querent.call act) a :=
  fun w hw => ha w.lib hw

end Reads

/-- What is read one by one makes the list. -/
theorem reads_range {Inv : σ → Prop} {f : Nat → StateM σ α} {l : List α}
    (h : ∀ i, (hi : i < l.length) → Reads Inv (f i) l[i]) :
    Reads Inv ((List.range l.length).mapM f) l := by
  refine Reads.mapM (List.forall₂_iff_get.mpr ⟨List.length_range, fun i _ hi => ?_⟩)
  simpa using h i hi

/-- A row is read field by field, up to the count. -/
theorem batch_row_reads {Inv : σ → Prop} {L : Library σ} {h : Handle} {row : Row}
    (hcount : Reads Inv (L.results.fieldCount h) row.length)
    (hfield : ∀ i, (hi : i < row.length) → Reads Inv (L.results.field h i) row[i]) :
    Reads (fun w : World σ => Inv w.lib) (Batch.row L ⟨h⟩) row := by
  refine Reads.bind hcount.call ?_
  exact reads_range fun i hi => (hfield i hi).call

/-- A count that the library gives is believed. -/
theorem countFields_reads {Inv : σ → Prop} {count : StateM σ Int64} {n : Nat}
    {field : Nat → StateM σ (Option Memory × Int64)}
    (h : ∀ s, Inv s → (count s).1.toInt = n ∧ Inv (count s).2) :
    Reads Inv (countFields (some count) field) n := by
  intro s hs
  obtain ⟨hn, hs'⟩ := h s hs
  exact ⟨by rw [← Int.toNat_natCast n, ← hn]; rfl, hs'⟩

/-! ## The fields that a library gives -/

/-- A field as a library gives it: the pointer and the tag. -/
abbrev PlainField := Option Memory × Int64

/-- Under the handle `h` the functions give this row, in states that have the invariant.
Past its end each pointer is null. The count tells how many fields there are. -/
structure Accessors.Presents (t : Accessors σ) (h : Handle) (row : List PlainField)
    (Inv : σ → Prop) : Prop where
  fieldCount : ∃ count, t.fieldCount = some count ∧
    ∀ s, Inv s → (count h s).1.toInt = row.length ∧ Inv (count h s).2
  field : ∀ i f, row[i]? = some f → Reads Inv (t.field h (Int64.ofNat i)) f
  past : ∀ i : Int64, row.length ≤ i.toInt → ∀ s, Inv s →
    (t.field h i s).1.1 = none ∧ Inv (t.field h i s).2

/-- The same library in a build that does not tell the number of fields. -/
def ClientTable.probing (t : ClientTable σ) : ClientTable σ := { t with fieldCount := none }

@[inherit_doc ClientTable.probing]
def HostTable.probing (t : HostTable σ) : HostTable σ := { t with fieldCount := none }

/-- The fields that probing counts: those before the first null pointer, within the bound. -/
def probed (row : List PlainField) : List PlainField :=
  (row.take maxProbed).takeWhile (·.1.isSome)

/-- The values of the fields. -/
def decoded (row : List PlainField) : Row := row.map decodeField.uncurry

variable {row : List PlainField}

theorem probed_isPrefix (row : List PlainField) : probed row <+: row :=
  (List.takeWhile_prefix _).trans (List.take_prefix _ _)

/-- Probing loses no field of a row exactly if each has a pointer and the bound is not passed. -/
theorem probed_eq_iff : probed row = row ↔ row.length ≤ maxProbed ∧ ∀ f ∈ row, f.1.isSome := by
  constructor
  · intro h
    have hshort : row.length ≤ maxProbed := by
      have hle := (List.takeWhile_prefix (·.1.isSome) (l := row.take maxProbed)).length_le
      rw [← probed, h, List.length_take] at hle
      omega
    rw [probed, List.take_of_length_le hshort, List.takeWhile_eq_self_iff] at h
    exact ⟨hshort, h⟩
  · rintro ⟨hshort, hsome⟩
    rw [probed, List.take_of_length_le hshort, List.takeWhile_eq_self_iff]
    exact hsome

theorem probed_replicate {f : PlainField} (hf : f.1.isSome) (n : Nat) :
    probed (List.replicate n f) = List.replicate (min maxProbed n) f := by
  rw [probed, List.take_replicate, List.takeWhile_replicate, if_pos hf]

theorem decoded_probed_eq_iff : decoded (probed row) = decoded row ↔
    row.length ≤ maxProbed ∧ ∀ f ∈ row, f.1.isSome := by
  rw [← probed_eq_iff]
  constructor
  · intro h
    have hlength := congrArg List.length h
    rw [decoded, decoded, List.length_map, List.length_map] at hlength
    exact (probed_isPrefix row).eq_of_length hlength
  · exact congrArg decoded

namespace Accessors.Presents

variable {t : Accessors σ} {h : Handle} {Inv : σ → Prop} (ht : t.Presents h row Inv)

include ht

theorem counted_reads :
    Reads Inv (countFields (t.fieldCount.map (· h)) fun i => t.field h (Int64.ofNat i))
      row.length := by
  obtain ⟨count, hcount, hn⟩ := ht.fieldCount
  rw [hcount]
  exact countFields_reads hn

/-- From the index `i` on, probing passes the fields that have a pointer. -/
theorem probe_reads (left i : Nat) (hi : i + left < 2 ^ 63) :
    Reads Inv (probe (fun i => t.field h (Int64.ofNat i)) left i)
      (i + (((row.drop i).take left).takeWhile (·.1.isSome)).length) := by
  induction left generalizing i with
  | zero => simpa [probe] using Reads.pure i
  | succ left ih =>
    by_cases hlt : i < row.length
    · obtain ⟨f, hf⟩ : ∃ f, row[i]? = some f := ⟨_, List.getElem?_eq_getElem hlt⟩
      have hdrop : row.drop i = f :: row.drop (i + 1) := by
        rw [List.drop_eq_getElem_cons hlt]
        rw [List.getElem?_eq_getElem hlt, Option.some_inj] at hf
        rw [hf]
      rw [probe, hdrop, List.take_succ_cons]
      refine Reads.bind (ht.field i f hf) ?_
      obtain ⟨pointer, tag⟩ := f
      cases pointer with
      | none => simpa using Reads.pure i
      | some m =>
        have hnext := ih (i + 1) (by omega)
        rw [List.takeWhile_cons_of_pos rfl, List.length_cons]
        rwa [Nat.add_right_comm, Nat.add_assoc] at hnext
    · have hindex : (Int64.ofNat i).toInt = i := Int64.toInt_ofNat_of_lt (by omega)
      have hge : (row.length : Int) ≤ (Int64.ofNat i).toInt := by omega
      rw [List.drop_eq_nil_of_le (by omega)]
      intro s hs
      obtain ⟨hnone, hs'⟩ := ht.past _ hge s hs
      rw [probe, bind_apply]
      generalize t.field h (Int64.ofNat i) s = answer at hnone hs' ⊢
      obtain ⟨⟨pointer, tag⟩, s'⟩ := answer
      obtain rfl : pointer = none := hnone
      exact ⟨by simp, hs'⟩

theorem probed_reads :
    Reads Inv (countFields none fun i => t.field h (Int64.ofNat i)) (probed row).length := by
  have hprobe := ht.probe_reads maxProbed 0 (by decide)
  rw [Nat.zero_add, List.drop_zero] at hprobe
  exact hprobe

/-- A field within the row is decoded. -/
theorem field_reads {part : List PlainField} (hpart : part <+: row) (i : Nat)
    (hi : i < (decoded part).length) :
    Reads Inv (do return decodeField.uncurry (← t.field h (Int64.ofNat i))) (decoded part)[i] := by
  have hi' : i < part.length := by simpa [decoded] using hi
  have hf : row[i]? = some part[i] := List.prefix_iff_getElem?.mp hpart i hi'
  have hvalue : (decoded part)[i] = decodeField.uncurry part[i] := List.getElem_map _
  rw [hvalue]
  exact Reads.bind (ht.field i _ hf) (Reads.pure _)

end Accessors.Presents

/-- The fields in front that are counted make the row. -/
theorem batch_row_counted {L : Library σ} {t : Accessors σ} {h : Handle} {Inv : σ → Prop}
    {part : List PlainField} (ht : t.Presents h row Inv) (hpart : part <+: row)
    (hcount : Reads Inv (L.results.fieldCount h) part.length)
    (hfield : ∀ i, L.results.field h i =
      do return decodeField.uncurry (← t.field h (Int64.ofNat i))) :
    Reads (fun w : World σ => Inv w.lib) (Batch.row L ⟨h⟩) (decoded part) := by
  refine batch_row_reads ?_ fun i hi => ?_
  · rw [decoded, List.length_map]
    exact hcount
  · rw [hfield]
    exact ht.field_reads hpart i hi

end Foreign

/-! ## A library that is played back -/

namespace Playback

open Foreign

/-- A field as the functions give it. -/
def RawField.plain (f : RawField) : PlainField := (f.payload.map inMemory, f.tag)

variable {c : RowCopy} {s : State} {h : Handle}

theorem RowCopy.field?_ofNat (hendless : c.endless = false) {i : Nat} (hi : i < 2 ^ 63) :
    c.field? (Int64.ofNat i) = c.current[i]? := by
  have hindex : (Int64.ofNat i).toInt = i := Int64.toInt_ofNat_of_lt hi
  have hnonneg : ¬ Int64.ofNat i < 0 := by
    rw [Int64.lt_iff_toInt_lt, hindex, Int64.toInt_zero]
    omega
  rw [field?, if_neg hnonneg, hindex, Int.toNat_natCast, hendless]
  cases c.current[i]? <;> rfl

theorem field_eq (hfind : find? h s = (some (.rows c), s)) (i : Int64) :
    field h i s = (((c.field? i).map RawField.plain).getD (none, 0), s) := by
  rw [field, bind_apply, hfind]
  dsimp only
  cases c.field? i <;> rfl

/-- Both libraries present the row at which a copy is. -/
theorem presents {t : Accessors State} (hcount : t.fieldCount = some fieldCount)
    (hfield : t.field = field) (hfind : find? h s = (some (.rows c), s)) (hown : c.count = none)
    (hendless : c.endless = false) (hlength : c.current.length < 2 ^ 63) :
    t.Presents h (c.current.map RawField.plain) (· = s) where
  fieldCount := by
    refine ⟨fieldCount, hcount, ?_⟩
    rintro s rfl
    have hanswer : fieldCount h s = (Int64.ofNat c.current.length, s) := by
      rw [fieldCount, bind_apply, hfind]
      simp [hown]
    rw [hanswer]
    exact ⟨by simpa using Int64.toInt_ofNat_of_lt hlength, rfl⟩
  field := by
    rintro i f hf _ rfl
    have hf' : c.current[i]?.map RawField.plain = some f := by simpa using hf
    have hi : i < c.current.length := by
      by_contra hge
      rw [List.getElem?_eq_none (by omega)] at hf'
      cases hf'
    rw [hfield, field_eq hfind, RowCopy.field?_ofNat hendless (by omega), hf']
    exact ⟨rfl, rfl⟩
  past := by
    rintro i hi _ rfl
    have hi' : (c.current.length : Int) ≤ i.toInt := by simpa using hi
    have hnone : c.field? i = none := by
      have hnonneg : ¬ i < 0 := by
        rw [Int64.lt_iff_toInt_lt, Int64.toInt_zero]
        omega
      rw [RowCopy.field?, if_neg hnonneg, List.getElem?_eq_none (by omega), hendless]
      rfl
    rw [hfield, field_eq hfind, hnone]
    exact ⟨rfl, rfl⟩

/-- A library that has one copy of one row. -/
def showing (row : RawRow) : State where
  script := ⟨.client, [], 0, 0, [], [], 8192, 0, 0⟩
  last := 1
  items := [(1, .rows ⟨[row], 0, none, false⟩)]

theorem presents_showing {t : Accessors State} (hcount : t.fieldCount = some fieldCount)
    (hfield : t.field = field) {row : RawRow} (hlength : row.length < 2 ^ 63) :
    t.Presents ⟨1⟩ (row.map RawField.plain) (· = showing row) :=
  presents (c := ⟨[row], 0, none, false⟩) hcount hfield rfl rfl rfl hlength

end Playback

open Foreign

/-- **With and without a count.** A client library and a library for procedures give the
same row, field by field. Builds that tell the number of fields come to the values of all
fields, in both bindings. Builds that do not come to the values before the first null
pointer, of at most 4096 fields, in both bindings. So the builds agree exactly on the rows
that are not wider than this and have no null pointer. -/
theorem counting_agrees {σ τ : Type} {ct : ClientTable σ} {ht : HostTable τ}
    {row : List PlainField} {h : Handle} {Inv : σ → Prop} (hc : ct.accessors.Presents h row Inv)
    {h' : Handle} {Inv' : τ → Prop} (hh : ht.accessors.Presents h' row Inv')
    {w : World σ} (hw : Inv w.lib) {w' : World τ} (hw' : Inv' w'.lib) :
    (Batch.row ct.library ⟨h⟩ w).1 = decoded row ∧
      (Batch.row ht.library ⟨h'⟩ w').1 = decoded row ∧
      (Batch.row ct.probing.library ⟨h⟩ w).1 = decoded (probed row) ∧
      (Batch.row ht.probing.library ⟨h'⟩ w').1 = decoded (probed row) ∧
      (decoded (probed row) = decoded row ↔
        row.length ≤ maxProbed ∧ ∀ f ∈ row, f.1.isSome) := by
  have whole : row <+: row := List.prefix_refl row
  have part : probed row <+: row := probed_isPrefix row
  refine ⟨?_, ?_, ?_, ?_, decoded_probed_eq_iff⟩
  · exact (batch_row_counted hc whole hc.counted_reads (fun _ => rfl) w hw).1
  · exact (batch_row_counted hh whole hh.counted_reads (fun _ => rfl) w' hw').1
  · exact (batch_row_counted hc part hc.probed_reads (fun _ => rfl) w hw).1
  · exact (batch_row_counted hh part hh.probed_reads (fun _ => rfl) w' hw').1

/-- Two fields, the second one null by its tag and not by its pointer. -/
theorem counting_agrees_two_fields :
    let row : Playback.RawRow := [⟨5, some (wordBytes 7)⟩, ⟨0, some []⟩]
    let client := (Playback.clientTable .full)
    let host := (Playback.hostTable .full)
    let w : World Playback.State := .start (Playback.showing row)
    (Batch.row client.library ⟨⟨1⟩⟩ w).1 = [.int 7, .null] ∧
      (Batch.row client.probing.library ⟨⟨1⟩⟩ w).1 = (Batch.row client.library ⟨⟨1⟩⟩ w).1 ∧
      (Batch.row host.probing.library ⟨⟨1⟩⟩ w).1 = (Batch.row host.library ⟨⟨1⟩⟩ w).1 := by
  intro row client host w
  have hclient : client.accessors.Presents ⟨1⟩ _ (· = Playback.showing row) :=
    Playback.presents_showing rfl rfl (by decide)
  have hhost : host.accessors.Presents ⟨1⟩ _ (· = Playback.showing row) :=
    Playback.presents_showing rfl rfl (by decide)
  have hw : w.lib = Playback.showing row := rfl
  obtain ⟨counted, counted', probed, probed', agree⟩ := counting_agrees hclient hhost hw hw
  have same := agree.mpr (by decide)
  refine ⟨?_, ?_, ?_⟩
  · rw [counted]
    decide +kernel
  · rw [counted, probed, same]
  · rw [counted', probed', same]

/-- A null pointer in the middle ends the row where fields are probed, in both bindings; and
of 4097 fields the last one is lost. -/
theorem probing_loses_fields :
    let row : Playback.RawRow := [⟨5, some (wordBytes 1)⟩, ⟨0, none⟩, ⟨5, some (wordBytes 2)⟩]
    let wide : Playback.RawRow := List.replicate 4097 ⟨9, some [1]⟩
    let client := (Playback.clientTable .full)
    let host := (Playback.hostTable .full)
    let w : World Playback.State := .start (Playback.showing row)
    let w' : World Playback.State := .start (Playback.showing wide)
    (Batch.row client.library ⟨⟨1⟩⟩ w).1 = [.int 1, .null, .int 2] ∧
      (Batch.row host.library ⟨⟨1⟩⟩ w).1 = [.int 1, .null, .int 2] ∧
      (Batch.row client.probing.library ⟨⟨1⟩⟩ w).1 = [.int 1] ∧
      (Batch.row host.probing.library ⟨⟨1⟩⟩ w).1 = [.int 1] ∧
      (Batch.row client.library ⟨⟨1⟩⟩ w').1 = List.replicate 4097 (.bool true) ∧
      (Batch.row client.probing.library ⟨⟨1⟩⟩ w').1 = List.replicate 4096 (.bool true) := by
  intro row wide client host w w'
  have hwide : client.accessors.Presents ⟨1⟩
      (List.replicate 4097 (Playback.RawField.plain ⟨9, some [1]⟩))
      (· = Playback.showing wide) := by
    rw [← List.map_replicate]
    refine Playback.presents_showing rfl rfl ?_
    rw [List.length_replicate]
    decide
  have value : decodeField.uncurry (Playback.RawField.plain ⟨9, some [1]⟩) = .bool true := by
    decide +kernel
  refine ⟨by decide +kernel, by decide +kernel, by decide +kernel, by decide +kernel, ?_, ?_⟩
  · rw [(batch_row_counted hwide (List.prefix_refl _) hwide.counted_reads (fun _ => rfl) w' rfl).1,
      decoded, List.map_replicate, value]
  · rw [(batch_row_counted hwide (probed_isPrefix _) hwide.probed_reads (fun _ => rfl) w' rfl).1,
      probed_replicate rfl, decoded, List.map_replicate, value]
    rfl

end Querent
