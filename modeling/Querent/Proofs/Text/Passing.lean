import Querent.Error

/-!
# Texts that can be passed

The library takes texts without NUL. Any other text is refused for its first NUL, which is
told by the bytes that stand before it.
-/

namespace Querent

open Text.Utf8 (encode nulPosition?)

/-- The text has no NUL. -/
def Passable (s : String) : Prop := '\x00' ∉ s.toList

instance : DecidablePred Passable := fun s => inferInstanceAs (Decidable ('\x00' ∉ s.toList))

theorem nulPosition?_eq_none_iff (cs : List Char) : nulPosition? cs = none ↔ '\x00' ∉ cs := by
  induction cs with
  | nil => simp [nulPosition?]
  | cons c cs ih =>
    rw [nulPosition?]
    split
    · next h => simp [h]
    · next h => simp [ih, Ne.symm h]

theorem nulPosition?_append {before : List Char} (h : '\x00' ∉ before) (after : List Char) :
    nulPosition? (before ++ '\x00' :: after) = some (encode before).length := by
  induction before with
  | nil => rfl
  | cons c before ih =>
    obtain ⟨hc, hbefore⟩ := not_or.mp (mt List.mem_cons.mpr h)
    have bytes : (encode (c :: before)).length = (encode before).length + c.utf8Size := by
      rw [encode, List.flatMap_cons, List.length_append, String.length_utf8EncodeChar, encode]
      exact Nat.add_comm _ _
    rw [List.cons_append, nulPosition?, if_neg (Ne.symm hc), ih hbefore, bytes]
    rfl

theorem passable?_of (s : String) :
    (Passable s ∧ passable? s = .ok s) ∨ (¬Passable s ∧ ∃ e, passable? s = .error e) := by
  unfold passable? Passable
  rw [← nulPosition?_eq_none_iff]
  cases nulPosition? s.toList with
  | none => exact Or.inl ⟨rfl, rfl⟩
  | some n => exact Or.inr ⟨by simp, _, rfl⟩

theorem passable?_of_nul {s : String} {before after : List Char}
    (hs : s.toList = before ++ '\x00' :: after) (h : '\x00' ∉ before) :
    passable? s = .error (.invalidArgument (.nul (encode before).length)) := by
  rw [passable?, hs, nulPosition?_append h]

end Querent
