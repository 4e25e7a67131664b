import Mathlib.Data.String.Basic
import Querent.Workspace.Object

/-!
# Slots

The slots of a workspace are in the strict order of their names, so each name
stands for one object. What is under a name after a change, and what the other
names stand for.
-/

namespace Querent.Workspace.Slots

/-- The names are in order, and each is there once. -/
def Sorted (s : Slots) : Prop := s.Pairwise (·.1 < ·.1)

variable {s : Slots} {name n : String} {o p : Object}

theorem get?_cons (e : String × Object) :
    get? (e :: s) n = if e.1 = n then some e.2 else get? s n := by
  simp only [get?, List.find?_cons]
  split <;> simp_all

/-! ## Taking away -/

theorem Sorted.erase (hs : s.Sorted) (name : String) : (s.erase name).Sorted :=
  hs.sublist List.filter_sublist

theorem get?_erase : (s.erase name).get? n = if n = name then none else s.get? n := by
  induction s with
  | nil => simp [Slots.erase, get?]
  | cons e s ih =>
    rw [Slots.erase, List.filter_cons]
    split
    · next he =>
      have he : e.1 ≠ name := by simpa using he
      rw [← Slots.erase, get?_cons, ih, get?_cons]
      by_cases hn : n = name
      · rw [if_neg (hn ▸ he), if_pos hn, if_pos hn]
      · rw [if_neg hn, if_neg hn]
    · next he =>
      have he : e.1 = name := by simpa using he
      rw [← Slots.erase, ih, get?_cons, he]
      by_cases hn : n = name
      · rw [if_pos hn, if_pos hn]
      · rw [if_neg hn, if_neg hn, if_neg (Ne.symm hn)]

theorem get?_erase_of_ne (hn : n ≠ name) : (s.erase name).get? n = s.get? n :=
  get?_erase.trans (if_neg hn)

/-- What is left under a name was there, and under another name. -/
theorem of_get?_erase (h : (s.erase name).get? n = some o) : n ≠ name ∧ s.get? n = some o := by
  rw [get?_erase] at h
  split at h
  · exact absurd h (by simp)
  · next hn => exact ⟨hn, h⟩

theorem erase_of_get?_none (h : s.get? name = none) : s.erase name = s := by
  rw [Slots.erase, List.filter_eq_self]
  intro e he
  have hnone : s.find? (·.1 = name) = none := Option.map_eq_none_iff.mp h
  simpa using List.find?_eq_none.mp hnone e he

/-- The first object is not among the others. -/
theorem erase_cons {e : String × Object} (hs : Sorted (e :: s)) : Slots.erase (e :: s) e.1 = s := by
  obtain ⟨he, -⟩ := List.pairwise_cons.mp hs
  rw [Slots.erase, List.filter_cons_of_neg (by simp), List.filter_eq_self]
  exact fun d hd => by simpa using ne_of_gt (he d hd)

/-- The object under a name, and the rest. -/
theorem perm_erase (hs : s.Sorted) (h : s.get? name = some o) :
    s.Perm ((name, o) :: s.erase name) := by
  induction s with
  | nil => simp [get?] at h
  | cons e s ih =>
    rw [get?_cons] at h
    split at h
    · next hname =>
      obtain rfl := Option.some.inj h
      obtain rfl := hname
      rw [erase_cons hs]
    · next hname =>
      have : Slots.erase (e :: s) name = e :: Slots.erase s name := by
        rw [Slots.erase, List.filter_cons_of_pos (by simpa using hname)]
        rfl
      rw [this]
      exact ((ih (List.pairwise_cons.mp hs).2 h).cons e).trans (List.Perm.swap _ _ _)

/-! ## Putting in -/

theorem set_cons (e : String × Object) : set name o (e :: s) =
    if e.1 = name then (name, o) :: s
    else if name < e.1 then (name, o) :: e :: s
    else e :: set name o s := rfl

theorem get?_set : (s.set name o).get? n = if n = name then some o else s.get? n := by
  induction s with
  | nil =>
    rw [set, get?_cons]
    simp [get?, eq_comm]
  | cons e s ih =>
    rw [set_cons, get?_cons]
    split
    · next he =>
      rw [get?_cons, he]
      by_cases hn : n = name
      · rw [if_pos hn.symm, if_pos hn]
      · rw [if_neg (Ne.symm hn), if_neg hn, if_neg (Ne.symm hn)]
    · next he =>
      split
      · rw [get?_cons, get?_cons]
        by_cases hn : n = name
        · rw [if_pos hn.symm, if_pos hn]
        · rw [if_neg (Ne.symm hn), if_neg hn]
      · rw [get?_cons, ih]
        by_cases hn : n = name
        · rw [if_pos hn, if_neg (hn ▸ he), if_pos hn]
        · rw [if_neg hn, if_neg hn]

@[simp] theorem get?_set_self : (s.set name o).get? name = some o :=
  get?_set.trans (if_pos rfl)

theorem get?_set_of_ne (hn : n ≠ name) : (s.set name o).get? n = s.get? n :=
  get?_set.trans (if_neg hn)

theorem mem_set {e : String × Object} (he : e ∈ s.set name o) : e = (name, o) ∨ e ∈ s := by
  induction s with
  | nil => exact Or.inl (List.mem_singleton.mp he)
  | cons d s ih =>
    rw [set_cons] at he
    split at he
    · exact (List.mem_cons.mp he).imp id (List.mem_cons_of_mem d)
    · split at he
      · exact List.mem_cons.mp he
      · rcases List.mem_cons.mp he with rfl | he
        · exact Or.inr List.mem_cons_self
        · exact (ih he).imp id (List.mem_cons_of_mem d)

theorem Sorted.set (hs : s.Sorted) (name : String) (o : Object) : (s.set name o).Sorted := by
  induction s with
  | nil => exact List.pairwise_singleton _ _
  | cons e s ih =>
    obtain ⟨he, hs⟩ := List.pairwise_cons.mp hs
    rw [set_cons]
    split
    · next hname => exact List.pairwise_cons.mpr ⟨hname ▸ he, hs⟩
    · next hname =>
      split
      · next hlt =>
        refine List.pairwise_cons.mpr ⟨?_, List.pairwise_cons.mpr ⟨he, hs⟩⟩
        intro d hd
        rcases List.mem_cons.mp hd with rfl | hd
        · exact hlt
        · exact lt_trans hlt (he d hd)
      · next hlt =>
        refine List.pairwise_cons.mpr ⟨?_, ih hs⟩
        intro d hd
        rcases mem_set hd with rfl | hd
        · exact lt_of_le_of_ne (not_lt.mp hlt) hname
        · exact he d hd

theorem erase_set : (s.set name o).erase name = s.erase name := by
  induction s with
  | nil => simp [set, Slots.erase]
  | cons e s ih =>
    rw [set_cons]
    split
    · next he => simp [Slots.erase, he]
    · next he =>
      split
      · simp [Slots.erase]
      · have keep (s : Slots) : Slots.erase (e :: s) name = e :: Slots.erase s name := by
          rw [Slots.erase, List.filter_cons_of_pos (by simpa using he)]
          rfl
        rw [keep, ih, keep]

/-- The object put in, and what is left of the others. -/
theorem perm_set (hs : s.Sorted) (name : String) (o : Object) :
    (s.set name o).Perm ((name, o) :: s.erase name) :=
  erase_set ▸ perm_erase (hs.set name o) get?_set_self

end Querent.Workspace.Slots
