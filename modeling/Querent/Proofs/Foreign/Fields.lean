import Mathlib.Algebra.Ring.Int.Defs
import Querent.Proofs.Foreign.Payloads
import Querent.Proofs.Foreign.Rows

/-!
# Fields by their tags

A field is a pointer with a tag behind it. Each of the eight types of the table has a tag
and a form of payload, and what stands in memory in this form is one value. A null pointer is
null, and so is a field with a tag that is not in the table. The tag is a long, but only its
low 32 bits are looked up; so a tag of more bits can be taken for that of a type. These are
the only fields that are read wrongly.
-/

namespace Querent

namespace Foreign

/-! ## What a field should be -/

/-- The value of a field by the table of types. -/
inductive FieldValue : Option Memory → Int64 → Value → Prop
  | missing (tag : Int64) : FieldValue none tag .null
  | typed {type : ValueType} {m : Memory} {v : Value} (h : StandsAt type m v) :
      FieldValue (some m) type.tag.toInt64 v
  | unknown {m : Memory} {tag : Int64} (h : ∀ type : ValueType, tag ≠ type.tag.toInt64) :
      FieldValue (some m) tag .null

variable {type type' : ValueType} {m : Memory} {v : Value} {tag : Int64} {pointer : Option Memory}

/-! ## Tags -/

/-- The tag has the low 32 bits of the type's. -/
def Names (tag : Int64) (type : ValueType) : Prop :=
  (2 ^ 32 : Int) ∣ tag.toInt - type.tag.toInt

theorem ofTag?_eq_some_iff {tag : Int32} : ValueType.ofTag? tag = some type ↔ tag = type.tag := by
  constructor
  · intro h
    rw [← Int32.toInt_inj]
    unfold ValueType.ofTag? at h
    split at h <;> cases h <;> assumption
  · rintro rfl
    cases type <;> rfl

theorem names_iff : Names tag type ↔ ValueType.ofTag? tag.toInt32 = some type := by
  have hfits : type.tag.toInt.bmod (2 ^ 32) = type.tag.toInt := by cases type <;> rfl
  rw [ofTag?_eq_some_iff, ← Int32.toInt_inj, Int64.toInt_toInt32]
  conv_rhs => rw [← hfits, Int.bmod_eq_bmod_iff_bmod_sub_eq_zero]
  exact Int.dvd_iff_bmod_eq_zero

theorem names_tag (type : ValueType) : Names type.tag.toInt64 type := by
  rw [Names, Int32.toInt_toInt64, Int.sub_self]
  exact Int.dvd_zero _

theorem Names.unique (h : Names tag type) (h' : Names tag type') : type = type' :=
  Option.some_inj.mp ((names_iff.mp h).symm.trans (names_iff.mp h'))

/-- A tag of 32 bits names the type whose tag it is, or none. -/
theorem Names.eq_of_fits (h : Names tag type) (hlow : -2 ^ 31 ≤ tag.toInt)
    (hhigh : tag.toInt < 2 ^ 31) : tag = type.tag.toInt64 := by
  have hsmall : 0 ≤ type.tag.toInt ∧ type.tag.toInt ≤ 9 := by cases type <;> decide
  rw [← Int64.toInt_inj, Int32.toInt_toInt64]
  rw [Names] at h
  omega

theorem decodeField_of_names (h : Names tag type) :
    decodeField (some m) tag = decodeAs m type := by
  rw [decodeField, names_iff.mp h]

theorem decodeField_of_unnamed (h : ∀ type, ¬ Names tag type) :
    decodeField (some m) tag = .null := by
  have hnone : ValueType.ofTag? tag.toInt32 = none := by
    rw [Option.eq_none_iff_forall_ne_some]
    exact fun type htype => h type (names_iff.mpr htype)
  rw [decodeField, hnone]

/-- There is a pointer, and the tag is that of no type but has the low bits of one which is
not that of null. -/
def Mistaken (pointer : Option Memory) (tag : Int64) : Prop :=
  pointer.isSome ∧ ∃ type, Names tag type ∧ type ≠ .nothing ∧ tag ≠ type.tag.toInt64

/-- A field is read as what it should be, unless its tag is mistaken for another. -/
theorem FieldValue.decodeField_eq_iff (h : FieldValue pointer tag v) :
    decodeField pointer tag = v ↔ ¬ Mistaken pointer tag := by
  cases h with
  | missing => exact iff_of_true rfl fun hmistaken => Bool.false_ne_true hmistaken.1
  | @typed type m v h =>
    refine iff_of_true ((decodeField_of_names (names_tag type)).trans h.decodeAs) ?_
    rintro ⟨-, type', hnames, -, hne⟩
    obtain rfl := hnames.unique (names_tag type)
    exact hne rfl
  | @unknown m tag h =>
    by_cases hnamed : ∃ type, Names tag type
    · obtain ⟨type, hnames⟩ := hnamed
      rw [decodeField_of_names hnames, decodeAs_eq_null_iff]
      constructor
      · rintro rfl ⟨-, type', hnames', hsome, -⟩
        exact hsome (hnames'.unique hnames)
      · intro hnot
        by_contra hsome
        exact hnot ⟨rfl, type, hnames, hsome, h type⟩
    · rw [not_exists] at hnamed
      refine iff_of_true (decodeField_of_unnamed hnamed) ?_
      rintro ⟨-, type, hnames, -⟩
      exact hnamed type hnames

theorem not_mistaken_of_fits (hlow : -2 ^ 31 ≤ tag.toInt) (hhigh : tag.toInt < 2 ^ 31) :
    ¬ Mistaken pointer tag := by
  rintro ⟨-, type, hnames, -, hne⟩
  exact hne (hnames.eq_of_fits hlow hhigh)

end Foreign

open Foreign

/-- **Fields by their tags.** By the table of types a field is a value of the type whose tag
it has, or null where it has no pointer or any other tag. For all pointers and tags, it is
read as this value unless its tag is mistaken: then it is read as a value of the type whose
tag has the same low 32 bits. No tag of 32 bits is mistaken. Any memory that goes as far as
a type needs holds one value of the type, texts that are not UTF-8 included. -/
theorem fields_decoded (pointer : Option Memory) (tag : Int64) :
    (∀ v, FieldValue pointer tag v →
      (decodeField pointer tag = v ↔ ¬ Mistaken pointer tag)) ∧
    (∀ m type v, pointer = some m → Names tag type → StandsAt type m v →
      decodeField pointer tag = v) ∧
    (-2 ^ 31 ≤ tag.toInt → tag.toInt < 2 ^ 31 → ¬ Mistaken pointer tag) ∧
    ∀ type m, (∃! v, StandsAt type m v) ↔ Reaches m type := by
  refine ⟨fun v => FieldValue.decodeField_eq_iff, ?_, not_mistaken_of_fits,
    fun type m => existsUnique_standsAt⟩
  rintro m type v rfl hnames hstands
  exact (decodeField_of_names hnames).trans hstands.decodeAs

/-- A text that ends within a character, a tag of no type, a null pointer, and a mistaken
tag. -/
theorem fields_decoded_each_way :
    let m : Memory := [0x6E, 0xC3, 0x00, 0x41]
    decodeField (some m) 1 = .text "n\uFFFD" ∧ decodeField (some m) 7 = .null ∧
      decodeField none (-4294967287) = .null ∧ decodeField (some m) (-4294967287) = .bool true := by
  intro m
  have broken : Text.Utf8.Transcribed [0x6E, 0xC3] ['n', '\uFFFD'] :=
    Text.Utf8.transcribed_iff.mpr (by decide)
  have text : FieldValue (some m) 1 (.text "n\uFFFD") :=
    .typed (.text (by decide) broken [0x41])
  have unknown : FieldValue (some m) 7 .null := .unknown fun type => by cases type <;> decide
  have names : Names (-4294967287) .bool := by
    unfold Names
    decide
  obtain ⟨textRead, -, fits, -⟩ := fields_decoded (some m) 1
  obtain ⟨unknownRead, -, fits', -⟩ := fields_decoded (some m) 7
  obtain ⟨missingRead, -⟩ := fields_decoded none (-4294967287)
  obtain ⟨-, named, -⟩ := fields_decoded (some m) (-4294967287)
  refine ⟨(textRead _ text).mpr (fits (by decide) (by decide)),
    (unknownRead _ unknown).mpr (fits' (by decide) (by decide)), ?_, ?_⟩
  · exact (missingRead _ (.missing _)).mpr fun mistaken => Bool.false_ne_true mistaken.1
  · exact named m .bool _ rfl names (.bool 0x6E [0xC3, 0x00, 0x41])

/-- The tag is that of no type. Its low bits are those of an integer's, and one is read, in
both bindings. -/
theorem cut_tag_mistaken :
    let tag : Int64 := 4294967301
    let row : Playback.RawRow := [⟨tag, some (wordBytes 1)⟩]
    let client := Playback.clientTable .full
    let host := Playback.hostTable .full
    let w : World Playback.State := .start (Playback.showing row)
    FieldValue (some (wordBytes 1)) tag .null ∧ decodeField (some (wordBytes 1)) tag = .int 1 ∧
      (Batch.row client.library ⟨⟨1⟩⟩ w).1 = [.int 1] ∧
      (Batch.row host.library ⟨⟨1⟩⟩ w).1 = [.int 1] := by
  exact ⟨.unknown fun type => by cases type <;> decide, by decide +kernel, by decide +kernel,
    by decide +kernel⟩

end Querent
