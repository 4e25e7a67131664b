import Mathlib.Data.List.Nodup
import Querent.Server.State

/-!
# Tables of objects

Looking up what lives under a handle after each of the changes that the server
makes to its table.
-/

namespace Querent.Server.Table

variable (t : Table) (h k : Nat) (item : Item)

theorem get?_cons (e : Nat × Item) :
    get? (e :: t) h = if e.1 = h then some e.2 else get? t h := by
  simp only [get?, List.find?_cons]
  split <;> simp_all

theorem get?_append (t' : Table) : get? (t ++ t') h = (get? t h).or (get? t' h) := by
  simp only [get?, List.find?_append]
  cases t.find? (·.1 = h) <;> rfl

/-- A look-up after a new object was put at the end. -/
theorem get?_snoc (fresh : get? t k = none) :
    get? (t ++ [(k, item)]) h = if h = k then some item else get? t h := by
  rw [get?_append, get?_cons]
  by_cases hk : h = k
  · subst hk
    simp [fresh]
  · rw [if_neg (Ne.symm hk), if_neg hk]
    exact Option.or_none

theorem get?_erase : get? (erase t k) h = if h = k then none else get? t h := by
  induction t with
  | nil => simp [erase, get?]
  | cons e t ih =>
    rw [erase, List.filter_cons]
    split
    · next he =>
      rw [get?_cons, get?_cons]
      split
      · next hh => rw [if_neg (by simp_all)]
      · exact ih
    · next he =>
      have he : e.1 = k := by simpa using he
      rw [← erase, ih, get?_cons, he]
      by_cases hk : h = k
      · rw [if_pos hk, if_pos hk]
      · rw [if_neg hk, if_neg hk, if_neg (Ne.symm hk)]

/-- Nothing to take away. -/
theorem erase_of_get?_none (hget : get? t k = none) : erase t k = t := by
  rw [erase, List.filter_eq_self]
  intro e he
  have hnone : t.find? (·.1 = k) = none := Option.map_eq_none_iff.mp hget
  simpa using List.find?_eq_none.mp hnone e he

theorem get?_set :
    get? (set t k item) h = if h = k then (get? t k).map fun _ => item else get? t h := by
  induction t with
  | nil => simp [set, get?]
  | cons e t ih =>
    rw [set, List.map_cons, ← set, get?_cons, ih]
    by_cases hk : h = k
    · by_cases he : e.1 = k
      · simp [get?_cons, he, hk]
      · simp [get?_cons, he, hk]
    · by_cases he : e.1 = k
      · simp [get?_cons, he, hk, Ne.symm hk]
      · simp [get?_cons, he, hk]

theorem mem_of_get? {t : Table} {h : Nat} {item : Item} (hget : get? t h = some item) :
    (h, item) ∈ t := by
  obtain ⟨e, he, rfl⟩ := Option.map_eq_some_iff.mp hget
  have hkey : e.1 = h := by simpa using List.find?_some he
  exact hkey ▸ List.mem_of_find?_eq_some he

theorem get?_of_mem {t : Table} (distinct : (t.map (·.1)).Nodup) {e : Nat × Item}
    (he : e ∈ t) : get? t e.1 = some e.2 := by
  induction t with
  | nil => simp at he
  | cons d t ih =>
    rw [List.map_cons, List.nodup_cons] at distinct
    rw [get?_cons]
    rcases List.mem_cons.mp he with rfl | he
    · exact if_pos rfl
    · have hne : d.1 ≠ e.1 := fun h => distinct.1 (h ▸ List.mem_map_of_mem he)
      rw [if_neg hne, ih distinct.2 he]

/-- A change under one handle leaves the handles as they are. -/
theorem map_fst_set : (set t k item).map (·.1) = t.map (·.1) := by
  rw [set, List.map_map]
  refine List.map_congr_left fun e _ => ?_
  simp only [Function.comp_apply]
  split
  · next h => exact h.symm
  · rfl

end Querent.Server.Table
