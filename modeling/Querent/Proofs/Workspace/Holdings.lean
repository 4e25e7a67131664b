import Mathlib.Algebra.BigOperators.Group.List.Basic
import Querent.Proofs.Ownership.DbApi
import Querent.Proofs.Workspace.Slots
import Querent.Server.Installation

/-!
# What a workspace holds

The objects of a workspace hold results, rows and shares of sessions between
them. A step takes the object that it asks out of the account, does what it does
with that and what it makes, and puts back what is left. In the meantime all
other objects stay as they are, up to those that a new object replaces: they end.
-/

namespace Querent

/-- Giving a server its replies does not use it. -/
theorem Server.State.foldl_on (replies : List (String × Reply)) (s : State) :
    (replies.foldl (fun s (statement, reply) => s.on statement reply) s).objects = s.objects ∧
      (replies.foldl (fun s (statement, reply) => s.on statement reply) s).misuse =
        s.misuse := by
  induction replies generalizing s with
  | nil => exact ⟨rfl, rfl⟩
  | cons e replies ih => exact ih (s.on e.1 e.2)

/-- A server that was never used: it has no objects, and nothing was misused. -/
theorem Server.State.scripted_fresh (replies : List (String × Reply))
    (connectFailure : Option Code) (rowCapacity : Int32) :
    (scripted replies connectFailure rowCapacity).objects = [] ∧
      (scripted replies connectFailure rowCapacity).misuse = [] :=
  foldl_on replies { connectFailure, rowCapacity }

namespace Workspace

open Server (Keeps Accounts Frame Holdings owns share ifMade library)

def Object.holdings : Object → Holdings
  | connection c => c.holdings
  | result r => r.holdings
  | batch b => b.holdings
  | cursor c => c.holdings
  | dbConnection c => c.holdings
  | dbCursor c => c.holdings
  | procedure _ => 0
  | rowBuilder b => b.holdings
  | raw _ => 0

/-- Dropping an object ends all that it holds. -/
theorem Object.keeps_drop (o : Object) : Keeps (o.drop library) o.holdings fun _ => 0 := by
  cases o with
  | connection c => exact c.keeps_drop
  | result r => exact r.keeps_drop
  | batch b => exact b.keeps_release
  | cursor c => exact c.keeps_drop
  | dbConnection c => exact c.keeps_drop
  | dbCursor c => exact c.keeps_drop
  | rowBuilder b => exact b.keeps_drop
  | procedure | raw => exact Keeps.pure rfl

/-- The cursors of an object have a batch exactly while they read; a raw handle is
one of those that were given up. -/
def Object.Fit (given : List Handle) : Object → Prop
  | cursor c => c.Settled
  | dbCursor c => c.Settled
  | raw h => h ∈ given
  | _ => True

theorem Object.Fit.mono {given given' : List Handle} (hsub : given ⊆ given') {o : Object}
    (h : o.Fit given) : o.Fit given' := by
  cases o with
  | raw i => exact hsub h
  | cursor | dbCursor => exact h
  | connection | result | batch | dbConnection | procedure | rowBuilder => trivial

namespace Slots

/-- What all objects hold. -/
def total (s : Slots) : Holdings := (s.map (·.2.holdings)).sum

variable {s : Slots} {name : String} {o : Object}

theorem total_erase (hs : s.Sorted) (h : s.get? name = some o) :
    s.total = o.holdings + (s.erase name).total := by
  rw [total, ((perm_erase hs h).map _).sum_eq]
  rfl

theorem total_set (hs : s.Sorted) :
    (s.set name o).total = o.holdings + (s.erase name).total := by
  rw [total, ((perm_set hs name o).map _).sum_eq]
  rfl

/-- What one object holds is part of what all hold. -/
theorem mem_total (hs : s.Sorted) (h : s.get? name = some o) {i : Handle}
    (hi : i ∈ o.holdings.1) : i ∈ s.total.1 := by
  rw [total_erase hs h]
  exact Multiset.mem_add.mpr (Or.inl hi)

end Slots

/-! ## In the course of a step -/

theorem find?_apply {τ : Type} (name : String) (ws : Workspace τ) :
    find? name ws = (ws.slots.get? name, ws) := rfl

theorem run_apply {τ α : Type} (act : Action τ α) (ws : Workspace τ) :
    Workspace.run act ws = ((act ws.world).1, ⟨(act ws.world).2, ws.slots⟩) := rfl

/-- What a step is measured by: the workspace before it, the name of the object that
it asks, the handles that results have given up when it ends, those of them that
are spent, whether the step is fair to the server, and what is held besides. -/
structure Stage where
  before : Workspace Server.State
  asked : Option String
  given : List Handle
  spent : List Handle
  fair : Prop
  besides : Holdings

/-- What became so far of an object that a step does not ask: nothing changed, or
it has ended. -/
def Untouched (before world : World Server.State) (slots : Slots) (name : String) (o : Object) :
    Prop :=
  (slots.get? name = some o ∧
    ∀ h ∈ o.holdings.1, world.lib.objects.get? h.number = before.lib.objects.get? h.number) ∨
  ∀ h ∈ o.holdings.1, h.number ≤ world.lib.last ∧ world.lib.holds h = false

namespace Untouched

variable {before world world' : World Server.State} {slots slots' : Slots} {name : String}
  {o : Object} {F : Holdings}

theorem after (h : Untouched before world slots name o) (hf : Frame world world' F)
    (hmem : slots.get? name = some o → ∀ i ∈ o.holdings.1, i ∈ F.1) :
    Untouched before world' slots name o := by
  rcases h with ⟨hget, hitems⟩ | hgone
  · exact Or.inl ⟨hget, fun i hi => (hf.kept i (hmem hget i hi)).trans (hitems i hi)⟩
  · refine Or.inr fun i hi => ?_
    obtain ⟨hle, hno⟩ := hgone i hi
    exact ⟨hle.trans hf.last, hf.gone i hle hno⟩

theorem of_slots (h : Untouched before world slots name o)
    (hget : slots.get? name = some o → slots'.get? name = some o) :
    Untouched before world slots' name o :=
  h.imp (fun hu => ⟨hget hu.1, hu.2⟩) id

end Untouched

/-- A step has come this far, and has `X` in its hands. -/
structure Stage.At (σ : Stage) (X : Holdings) (world : World Server.State) (slots : Slots) :
    Prop where
  sorted : slots.Sorted
  fit : ∀ name o, slots.get? name = some o → o.Fit σ.given
  accounts : Accounts world (X + (slots.total + σ.besides))
  frame : Frame σ.before.world world 0
  misuse : σ.fair → world.lib.misuse = σ.before.world.lib.misuse
  spent : ∀ h ∈ σ.spent, h.number ≤ world.lib.last ∧ world.lib.objects.get? h.number = none
  others : ∀ name, σ.asked ≠ some name → ∀ o, σ.before.slots.get? name = some o →
    Untouched σ.before.world world slots name o

/-- A step has taken the object that it asks out of the account. It is still in its
slot. -/
structure Stage.Lends (σ : Stage) (name : String) (o : Object) (slots : Slots) : Prop where
  sorted : slots.Sorted
  there : slots.get? name = some o
  fit : o.Fit σ.given

namespace Stage.At

variable {σ : Stage} {X Y : Holdings} {world : World Server.State} {slots : Slots}
  {name : String} {o : Object}

theorem conv (h : σ.At X world slots) (heq : Y = X) : σ.At Y world slots := heq ▸ h

theorem spent_after {world' : World Server.State} {F : Holdings} (h : σ.At X world slots)
    (hf : Frame world world' F) {i : Handle} (hi : i ∈ σ.spent) :
    i.number ≤ world'.lib.last ∧ world'.lib.objects.get? i.number = none :=
  ⟨(h.spent i hi).1.trans hf.last, hf.dead (h.spent i hi).1 (h.spent i hi).2⟩

/-- Takes a part of what is in hand for an action. -/
theorem run {α : Type} {act : Action Server.State α} {post : α → Holdings}
    (h : σ.At (X + Y) world slots) (hact : Keeps act X post) :
    σ.At (post (act world).1 + Y) (act world).2 slots := by
  have ha := h.accounts
  rw [add_assoc] at ha
  obtain ⟨hend, hspares⟩ := hact world _ ha
  refine ⟨h.sorted, h.fit, by rw [add_assoc]; exact hend, ?_, ?_, ?_, ?_⟩
  · exact h.frame.trans hspares.toFrame.of_nothing
  · exact fun hf => hspares.misuse.trans (h.misuse hf)
  · exact fun i hi => h.spent_after hspares.toFrame hi
  · intro n hn o ho
    refine (h.others n hn o ho).after hspares.toFrame fun hget i hi => ?_
    have := Slots.mem_total h.sorted hget hi
    exact Multiset.mem_add.mpr (Or.inr (Multiset.mem_add.mpr (Or.inl this)))

/-- Accounts of slots do not change when the same objects are counted otherwise. -/
theorem reslot {slots' : Slots} (h : σ.At X world slots) (hs : slots'.Sorted)
    (hfit : ∀ name o, slots'.get? name = some o → o.Fit σ.given)
    (htotal : Y + slots'.total = X + slots.total)
    (hothers : ∀ name, σ.asked ≠ some name → ∀ o, slots.get? name = some o →
      slots'.get? name = some o) : σ.At Y world slots' where
  sorted := hs
  fit := hfit
  accounts := by
    rw [← add_assoc, htotal, add_assoc]
    exact h.accounts
  frame := h.frame
  misuse := h.misuse
  spent := h.spent
  others := fun n hn o ho => (h.others n hn o ho).of_slots (hothers n hn o)

/-- Puts back the object that was asked, as it is now. -/
theorem put {p : Object} (h : σ.At (p.holdings + X) world (slots.erase name))
    (hl : σ.Lends name o slots) (hfit : p.Fit σ.given) : σ.At X world (slots.set name p) := by
  refine h.reslot (hl.sorted.set name p) ?_ ?_ ?_
  · intro n q hq
    rw [Slots.get?_set] at hq
    split at hq
    · exact Option.some.inj hq ▸ hfit
    · next hn => exact h.fit n q ((Slots.get?_erase_of_ne hn).trans hq)
  · rw [Slots.total_set hl.sorted]
    abel
  · intro n _ q hq
    obtain ⟨hne, hq⟩ := Slots.of_get?_erase hq
    exact (Slots.get?_set_of_ne hne).trans hq

/-- The object that was asked has stayed in its place. -/
theorem keep (h : σ.At (o.holdings + X) world (slots.erase name))
    (hl : σ.Lends name o slots) : σ.At X world slots := by
  refine h.reslot hl.sorted ?_ ?_ ?_
  · intro n p hp
    by_cases hn : n = name
    · rw [hn, hl.there] at hp
      exact Option.some.inj hp ▸ hl.fit
    · exact h.fit n p ((Slots.get?_erase_of_ne hn).trans hp)
  · rw [Slots.total_erase hl.sorted hl.there]
    abel
  · exact fun n _ p hp => (Slots.of_get?_erase hp).2

/-- Takes the object that is asked out of the account. -/
theorem lend (h : σ.At X world slots) (hget : slots.get? name = some o)
    (hasked : σ.asked = some name) :
    σ.At (o.holdings + X) world (slots.erase name) ∧ σ.Lends name o slots := by
  refine ⟨h.reslot (h.sorted.erase name) ?_ ?_ ?_,
    h.sorted, hget, h.fit name o hget⟩
  · exact fun n p hp => h.fit n p (Slots.of_get?_erase hp).2
  · rw [Slots.total_erase h.sorted hget]
    abel
  · intro n hn p hp
    have hne : n ≠ name := fun heq => hn (heq ▸ hasked)
    exact (Slots.get?_erase_of_ne hne).trans hp

/-- The object that was asked makes something, and stays in its place. -/
theorem make {α : Type} {act : Action Server.State α} {made : α → Holdings}
    (h : σ.At (o.holdings + X) world (slots.erase name)) (hl : σ.Lends name o slots)
    (hact : Keeps act o.holdings fun a => made a + o.holdings) :
    σ.At (made (act world).1 + X) (act world).2 slots := by
  have h' := h.run hact
  rw [add_comm (made _), add_assoc] at h'
  exact h'.keep hl

/-- Takes an object that holds nothing away. -/
theorem forget (h : σ.At X world slots) (hget : slots.get? name = some o)
    (ho : o.holdings = 0) : σ.At X world (slots.erase name) where
  sorted := h.sorted.erase name
  fit := fun n p hp => h.fit n p (Slots.of_get?_erase hp).2
  accounts := by
    have ha := h.accounts
    rw [Slots.total_erase h.sorted hget, ho, zero_add] at ha
    exact ha
  frame := h.frame
  misuse := h.misuse
  spent := h.spent
  others := by
    intro n hn p hp
    rcases h.others n hn p hp with ⟨hp', hitems⟩ | hgone
    · by_cases heq : n = name
      · rw [heq, hget] at hp'
        obtain rfl := Option.some.inj hp'
        exact Or.inr (by simp [ho])
      · exact Or.inl ⟨(Slots.get?_erase_of_ne heq).trans hp', hitems⟩
    · exact Or.inr hgone

theorem store_eq (into : String) (o : Object) (world : World Server.State) (slots : Slots) :
    (Workspace.store Server.installation into o ⟨world, slots⟩).2 =
      ⟨(((slots.get? into).elim (pure ()) (Object.drop library)) world).2, slots.set into o⟩ := by
  rw [Workspace.store, bind_apply, find?_apply, bind_apply]
  dsimp only
  cases slots.get? into <;> rfl

/-- What is stored is under its name. -/
theorem store_there (into : String) (o : Object) (world : World Server.State) (slots : Slots) :
    (Workspace.store Server.installation into o ⟨world, slots⟩).2.slots.get? into = some o := by
  rw [store_eq]
  exact Slots.get?_set_self

/-- When a new object replaces an old one, the old one is what is to be dropped. -/
theorem store_accounts {into : String} {old : Object} (h : σ.At (o.holdings + X) world slots)
    (hold : slots.get? into = some old) :
    Accounts world (old.holdings + (X + ((slots.set into o).total + σ.besides))) := by
  have ha := h.accounts
  rw [Slots.total_erase h.sorted hold] at ha
  convert ha using 1
  rw [Slots.total_set h.sorted]
  abel

/-- Stores what is in hand. An object that was there has ended. -/
theorem store (h : σ.At (o.holdings + X) world slots) (into : String) (hfit : o.Fit σ.given) :
    let ws := (Workspace.store Server.installation into o ⟨world, slots⟩).2
    σ.At X ws.world ws.slots := by
  have hset (n : String) (p : Object) (hp : (slots.set into o).get? n = some p) :
      p.Fit σ.given := by
    rw [Slots.get?_set] at hp
    split at hp
    · exact Option.some.inj hp ▸ hfit
    · exact h.fit n p hp
  rw [store_eq]
  cases hold : slots.get? into with
  | none =>
    refine h.reslot (h.sorted.set into o) hset ?_ ?_
    · rw [Slots.total_set h.sorted, Slots.erase_of_get?_none hold]
      abel
    · intro n _ p hp
      have hne : n ≠ into := by
        rintro rfl
        rw [hold] at hp
        exact absurd hp (by simp)
      exact (Slots.get?_set_of_ne hne).trans hp
  | some old =>
    have ha := h.store_accounts hold
    obtain ⟨hend, hspares⟩ := old.keeps_drop world _ ha
    rw [zero_add] at hend
    have ended : ∀ i ∈ old.holdings.1, i.number ≤ (old.drop library world).2.lib.last ∧
        (old.drop library world).2.lib.holds i = false := fun i hi =>
      ⟨(ha.le_last (Multiset.mem_add.mpr (Or.inl hi))).trans hspares.last, ha.ended hend hi⟩
    refine ⟨h.sorted.set into o, hset, hend, h.frame.trans hspares.toFrame.of_nothing,
      fun hf => hspares.misuse.trans (h.misuse hf),
      fun i hi => h.spent_after hspares.toFrame hi, ?_⟩
    intro n hn p hp
    -- the object that was replaced has ended, the others are spared by its drop
    by_cases hne : n = into
    · rcases h.others n hn p hp with ⟨hget, -⟩ | hgone
      · rw [hne, hold] at hget
        exact Or.inr (Option.some.inj hget ▸ ended)
      · exact Or.inr fun i hi => ⟨(hgone i hi).1.trans hspares.last,
          hspares.gone i (hgone i hi).1 (hgone i hi).2⟩
    · have hu : Untouched σ.before.world world (slots.set into o) n p :=
        (h.others n hn p hp).of_slots (Slots.get?_set_of_ne hne).trans
      refine hu.after hspares.toFrame fun hget i hi => ?_
      have := Slots.mem_total (h.sorted.set into o) hget hi
      exact Multiset.mem_add.mpr (Or.inr (Multiset.mem_add.mpr (Or.inl this)))

/-- What is stored is as it was in hand. -/
theorem store_kept (h : σ.At (o.holdings + X) world slots) (into : String) {i : Handle}
    (hi : i ∈ o.holdings.1) :
    (Workspace.store Server.installation into o ⟨world, slots⟩).2.world.lib.objects.get?
      i.number = world.lib.objects.get? i.number := by
  rw [store_eq]
  cases hold : slots.get? into with
  | none => rfl
  | some old =>
    obtain ⟨-, hspares⟩ := old.keeps_drop world _ (h.store_accounts hold)
    have stored : i ∈ (slots.set into o).total.1 := by
      rw [Slots.total_set h.sorted]
      exact Multiset.mem_add.mpr (Or.inl hi)
    exact hspares.kept i (Multiset.mem_add.mpr (Or.inr (Multiset.mem_add.mpr (Or.inl stored))))

/-- A step in whose course something is stored may count from there. -/
theorem restage (h : σ.At X world slots) :
    Stage.At { σ with before := ⟨world, slots⟩, asked := none, spent := [], fair := True }
      X world slots where
  sorted := h.sorted
  fit := h.fit
  accounts := h.accounts
  frame := Frame.refl _ _
  misuse := fun _ => rfl
  spent := by simp
  others := fun n _ p hp => Or.inl ⟨hp, fun _ _ => rfl⟩

/-- Storing an object leaves the one that was asked as it is, or ends it. -/
theorem store_others (h : σ.At (o.holdings + X) world slots) (into : String)
    (hfit : o.Fit σ.given) {n : String} {p : Object} (hp : slots.get? n = some p) :
    let ws := (Workspace.store Server.installation into o ⟨world, slots⟩).2
    Untouched world ws.world ws.slots n p :=
  (h.restage.store into hfit).others n (by simp) p hp

end Stage.At

end Workspace

end Querent
