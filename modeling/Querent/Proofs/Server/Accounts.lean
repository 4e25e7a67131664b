import Mathlib.Algebra.Group.Prod
import Mathlib.Tactic.Abel
import Mathlib.Algebra.Order.Group.Multiset
import Querent.Proofs.Server.Table
import Querent.Proofs.Sessions

/-!
# Accounts of a server

What a program holds of a server is a sum: handles of results, cursors and rows,
and shares of sessions. The accounts of a world are in order if just what is held
lives, each handle is held once, and each open session has a holder. An action
*keeps* the accounts if it turns what it is given into what it answers with, and
spares all that is held besides.
-/

namespace Querent

namespace Server

/-! ## What is held -/

/-- Handles, and shares of sessions. -/
abbrev Holdings := Multiset Handle × Multiset SessionId

def owns (h : Handle) : Holdings := ({h}, 0)

def share (id : SessionId) : Holdings := (0, {id})

def ownsAll (hs : List Handle) : Holdings := (↑hs, 0)

theorem ownsAll_append (hs hs' : List Handle) :
    ownsAll (hs ++ hs') = ownsAll hs + ownsAll hs' :=
  Prod.ext (Multiset.coe_add hs hs').symm (zero_add 0).symm

theorem ownsAll_perm {hs hs' : List Handle} (h : hs.Perm hs') : ownsAll hs = ownsAll hs' :=
  congrArg (·, 0) (Multiset.coe_eq_coe.mpr h)

/-- What is held of something that was made, if it was. -/
def ifMade {ε α : Type} (held : α → Holdings) : Except ε α → Holdings
  | .ok a => held a
  | .error _ => 0

/-- What is held of a handle that was given, if it was. -/
def ifGiven (held : Handle → Holdings) : Option Handle → Holdings
  | some h => held h
  | none => 0

namespace State

variable (s : State) (h : Handle)

/-- A result, a cursor or rows live under the handle. -/
def holds : Bool := (s.objects.get? h.number).any (!isConnection ·)

/-- A connection lives under the handle. -/
def connected : Bool := (s.objects.get? h.number).any isConnection

theorem holds_iff : s.holds h ↔
    ∃ item, s.objects.get? h.number = some item ∧ isConnection item = false := by
  simp [holds, Option.any_eq_true]

theorem connected_iff : s.connected h ↔ s.objects.get? h.number = some .connection := by
  rw [connected, Option.any_eq_true]
  constructor
  · rintro ⟨item, hget, hitem⟩
    cases item <;> first | exact hget | simp [isConnection] at hitem
  · exact fun hget => ⟨_, hget, rfl⟩

theorem dead_iff : s.objects.get? h.number = none ↔ s.holds h = false ∧ s.connected h = false := by
  rw [holds, connected]
  cases s.objects.get? h.number with
  | none => simp
  | some item => cases item <;> simp [isConnection]

end State

/-- The handles of all that lives, connections left out. -/
def State.handles (s : State) : List Handle :=
  (s.objects.filter (!State.isConnection ·.2)).map (⟨·.1⟩)

theorem State.live_eq (s : State) : s.live = s.handles.length := by
  rw [live, List.countP_eq_length_filter, handles, List.length_map]

/-- The accounts of a world are in order, where `H` is all that is held. -/
structure Accounts (w : World State) (H : Holdings) : Prop where
  distinct : (w.lib.objects.map (·.1)).Nodup
  bounded : ∀ n, w.lib.last < n → w.lib.objects.get? n = none
  results : ∀ h, H.1.count h = (w.lib.holds h).toNat
  lines : ∀ h, w.lib.connected h ↔ ∃ id, w.line id = some h
  unshared : ∀ id id' h, w.line id = some h → w.line id' = some h → id = id'
  shares : ∀ id, H.2.count id = w.holders id
  held : ∀ id, (w.line id).isSome → 0 < w.holders id

/-- On the way from `w` to `w'` what `H` names was left as it was, no handle came back
that had gone, and no session that was closed is open again. -/
structure Frame (w w' : World State) (H : Holdings) : Prop where
  script : w'.lib.script = w.lib.script
  last : w.lib.last ≤ w'.lib.last
  kept : ∀ h ∈ H.1, w'.lib.objects.get? h.number = w.lib.objects.get? h.number
  gone : ∀ h, h.number ≤ w.lib.last → w.lib.holds h = false → w'.lib.holds h = false
  unconnected : ∀ h, h.number ≤ w.lib.last → w.lib.connected h = false →
    w'.lib.connected h = false
  shut : ∀ id, w.Shut id → w'.Shut id

/-- Besides, nothing was misused. -/
structure Spares (w w' : World State) (H : Holdings) : Prop extends Frame w w' H where
  misuse : w'.lib.misuse = w.lib.misuse

namespace Frame

variable {w w' w'' : World State} {H F : Holdings}

theorem refl (w : World State) (H : Holdings) : Frame w w H :=
  ⟨rfl, le_refl _, fun _ _ => rfl, fun _ _ h => h, fun _ _ h => h, fun _ h => h⟩

theorem trans (h : Frame w w' H) (h' : Frame w' w'' H) : Frame w w'' H where
  script := h'.script.trans h.script
  last := h.last.trans h'.last
  kept := fun i hi => (h'.kept i hi).trans (h.kept i hi)
  gone := fun i hi hw => h'.gone i (hi.trans h.last) (h.gone i hi hw)
  unconnected := fun i hi hw => h'.unconnected i (hi.trans h.last) (h.unconnected i hi hw)
  shut := fun id hid => h'.shut id (h.shut id hid)

theorem of_add (h : Frame w w' (H + F)) : Frame w w' F :=
  { h with kept := fun i hi => h.kept i (Multiset.mem_add.mpr (Or.inr hi)) }

/-- A world with the same objects. -/
theorem of_objects (hobj : w'.lib.objects = w.lib.objects) (hlast : w'.lib.last = w.lib.last)
    (hscr : w'.lib.script = w.lib.script) (hshut : ∀ id, w.Shut id → w'.Shut id) :
    Frame w w' H where
  script := hscr
  last := hlast.ge
  kept := fun _ _ => by rw [hobj]
  gone := fun _ _ h => by simpa only [State.holds, hobj] using h
  unconnected := fun _ _ h => by simpa only [State.connected, hobj] using h
  shut := hshut

/-- Where nothing lives, nothing will. -/
theorem dead (h : Frame w w' H) {i : Handle} (hle : i.number ≤ w.lib.last)
    (hi : w.lib.objects.get? i.number = none) : w'.lib.objects.get? i.number = none :=
  (State.dead_iff _ _).mpr ⟨h.gone i hle ((State.dead_iff _ _).mp hi).1,
    h.unconnected i hle ((State.dead_iff _ _).mp hi).2⟩

theorem of_nothing (h : Frame w w' H) : Frame w w' 0 :=
  { h with kept := fun _ hi => absurd hi (Multiset.notMem_zero _) }

end Frame

namespace Spares

variable {w w' w'' : World State} {H F : Holdings}

theorem refl (w : World State) (H : Holdings) : Spares w w H := ⟨Frame.refl w H, rfl⟩

theorem trans (h : Spares w w' H) (h' : Spares w' w'' H) : Spares w w'' H :=
  ⟨h.toFrame.trans h'.toFrame, h'.misuse.trans h.misuse⟩

theorem of_add (h : Spares w w' (H + F)) : Spares w w' F := ⟨h.toFrame.of_add, h.misuse⟩

end Spares

namespace Accounts

variable {w w' : World State} {H F : Holdings} {h : Handle}

theorem holds_of_mem (ha : Accounts w H) (hm : h ∈ H.1) : w.lib.holds h = true := by
  have hc := ha.results h
  have hpos := Multiset.count_pos.mpr hm
  cases hh : w.lib.holds h with
  | true => rfl
  | false =>
    rw [hh] at hc
    simp only [Bool.toNat_false] at hc
    omega

theorem mem_of_holds (ha : Accounts w H) (hh : w.lib.holds h = true) : h ∈ H.1 := by
  have hc := ha.results h
  rw [hh] at hc
  exact Multiset.count_pos.mp (by rw [hc]; exact Nat.zero_lt_one)

theorem holds_of_owned (ha : Accounts w (owns h + F)) : w.lib.holds h = true :=
  ha.holds_of_mem (Multiset.mem_add.mpr (Or.inl (Multiset.mem_singleton_self h)))

/-- What is under a handle that is held. -/
theorem item_of_owned (ha : Accounts w (owns h + F)) :
    ∃ item, w.lib.objects.get? h.number = some item ∧ State.isConnection item = false :=
  (w.lib.holds_iff h).mp ha.holds_of_owned

theorem mem_handles (ha : Accounts w H) : h ∈ w.lib.handles ↔ w.lib.holds h = true := by
  rw [State.handles, List.mem_map, State.holds_iff]
  constructor
  · rintro ⟨e, he, rfl⟩
    obtain ⟨he, hitem⟩ := List.mem_filter.mp he
    exact ⟨e.2, Table.get?_of_mem ha.distinct he, by simpa using hitem⟩
  · rintro ⟨item, hget, hitem⟩
    exact ⟨(h.number, item),
      List.mem_filter.mpr ⟨Table.mem_of_get? hget, by simpa using hitem⟩, rfl⟩

theorem handles_nodup (ha : Accounts w H) : w.lib.handles.Nodup := by
  have hn : ((w.lib.objects.filter (!State.isConnection ·.2)).map (·.1)).Nodup :=
    ha.distinct.sublist (List.filter_sublist.map _)
  have heq : w.lib.handles =
      ((w.lib.objects.filter (!State.isConnection ·.2)).map (·.1)).map Handle.mk := by
    rw [State.handles, List.map_map]
    rfl
  rw [heq]
  exact hn.map fun _ _ h => congrArg Handle.number h

/-- Nothing is held twice. -/
theorem nodup (ha : Accounts w H) : H.1.Nodup := by
  rw [Multiset.nodup_iff_count_le_one]
  intro h
  rw [ha.results]
  exact Bool.toNat_le _

/-- What lives is what is held. -/
theorem handles_eq (ha : Accounts w H) : (w.lib.handles : Multiset Handle) = H.1 := by
  refine (Multiset.Nodup.ext (Multiset.coe_nodup.mpr ha.handles_nodup) ha.nodup).mpr fun h => ?_
  rw [Multiset.mem_coe, ha.mem_handles]
  exact ⟨ha.mem_of_holds, ha.holds_of_mem⟩

/-- Without a holder of any session there is no open connection. -/
theorem openConnections_eq_zero (ha : Accounts w H) (hnone : H.2 = 0) :
    w.lib.openConnections = 0 := by
  rw [State.openConnections, List.countP_eq_zero]
  intro e he hconn
  have hget := Table.get?_of_mem ha.distinct he
  have hc : w.lib.connected ⟨e.1⟩ = true := by
    rw [State.connected, hget]
    exact hconn
  -- an open connection is that of a session, and such a session has a holder
  obtain ⟨id, hid⟩ := (ha.lines ⟨e.1⟩).mp hc
  have hpos := ha.held id (by rw [hid]; rfl)
  rw [← ha.shares, hnone] at hpos
  exact absurd hpos (by simp)

theorem not_mem_of_owned (ha : Accounts w (owns h + F)) : h ∉ F.1 := by
  have hn := ha.nodup
  rw [Prod.fst_add, owns, Multiset.singleton_add, Multiset.nodup_cons] at hn
  exact hn.1

/-- What is not held any more has ended. -/
theorem ended (ha : Accounts w (H + F)) (ha' : Accounts w' F) (hm : h ∈ H.1) :
    w'.lib.holds h = false := by
  by_contra hh
  have hF : h ∈ F.1 := ha'.mem_of_holds (by simpa using hh)
  have hn := ha.nodup
  rw [Prod.fst_add, Multiset.nodup_add] at hn
  exact Multiset.disjoint_left.mp hn.2.2 hm hF

theorem ne_of_owned (ha : Accounts w (owns h + F)) {i : Handle} (hi : i ∈ F.1) :
    i.number ≠ h.number := by
  intro heq
  have : i = h := congrArg Handle.mk heq
  exact ha.not_mem_of_owned (this ▸ hi)

theorem le_last (ha : Accounts w H) (hm : h ∈ H.1) : h.number ≤ w.lib.last := by
  by_contra hlt
  obtain ⟨item, hget, -⟩ := (w.lib.holds_iff h).mp (ha.holds_of_mem hm)
  rw [ha.bounded _ (Nat.lt_of_not_le hlt)] at hget
  exact absurd hget (by simp)

/-- A handle that holds something carries no connection. -/
theorem not_connected (ha : Accounts w H) (hm : h ∈ H.1) : w.lib.connected h = false := by
  obtain ⟨item, hget, hitem⟩ := (w.lib.holds_iff h).mp (ha.holds_of_mem hm)
  rw [State.connected, hget]
  exact hitem

theorem line_connected (ha : Accounts w H) {id : SessionId} (hl : w.line id = some h) :
    w.lib.connected h = true :=
  (ha.lines h).mpr ⟨id, hl⟩

/-- Accounts look at objects and sessions only. -/
theorem of_eq (ha : Accounts w H) (hobj : w'.lib.objects = w.lib.objects)
    (hlast : w'.lib.last = w.lib.last) (hs : w'.sessions = w.sessions) : Accounts w' H where
  distinct := by rw [hobj]; exact ha.distinct
  bounded := by rw [hobj, hlast]; exact ha.bounded
  results := by simpa only [State.holds, hobj] using ha.results
  lines := by simpa only [State.connected, World.line, hobj, hs] using ha.lines
  unshared := by simpa only [World.line, hs] using ha.unshared
  shares := by simpa only [World.holders, hs] using ha.shares
  held := by simpa only [World.line, World.holders, hs] using ha.held

end Accounts

namespace Accounts

variable {w : World State} {H H' : Holdings}

/-- Accounts after a change of the table that leaves connections alone. -/
theorem retable (ha : Accounts w H) (lib : State)
    (distinct : (lib.objects.map (·.1)).Nodup)
    (bounded : ∀ n, lib.last < n → lib.objects.get? n = none)
    (results : ∀ h, H'.1.count h = (lib.holds h).toNat)
    (connected : ∀ h, lib.connected h = w.lib.connected h)
    (shares : H'.2 = H.2) : Accounts { w with lib } H' where
  distinct := distinct
  bounded := bounded
  results := results
  lines := fun h => by rw [connected]; exact ha.lines h
  unshared := ha.unshared
  shares := by rw [shares]; exact ha.shares
  held := ha.held

end Accounts

/-! ## Actions that keep the accounts -/

/-- In the world `w`, where `F` is held besides, the action turns what is held in
`pre` into what is held in `post`, and spares `F`. -/
def KeepsAt {α : Type} (w : World State) (F : Holdings) (act : Action State α) (pre : Holdings)
    (post : α → Holdings) : Prop :=
  Accounts w (pre + F) → Accounts (act w).2 (post (act w).1 + F) ∧ Spares w (act w).2 F

/-- The action turns what is held in `pre` into what is held in `post`, and spares
whatever else is held. -/
def Keeps {α : Type} (act : Action State α) (pre : Holdings) (post : α → Holdings) : Prop :=
  ∀ w F, KeepsAt w F act pre post

namespace Keeps

variable {α β : Type} {act : Action State α} {pre : Holdings} {post : α → Holdings}

theorem pure {a : α} (h : post a = pre) : Keeps (Pure.pure a : Action State α) pre post :=
  fun w F ha => ⟨by rw [pure_apply, h]; exact ha, Spares.refl w F⟩

/-- What is known of the first answer and the world it was given in may be used. -/
theorem bind_at {f : α → Action State β} {φ : α → World State → Prop} {last : β → Holdings}
    (ha : Keeps act pre post) (hφ : ∀ w F, Accounts w (pre + F) → φ (act w).1 (act w).2)
    (hf : ∀ a w F, φ a w → KeepsAt w F (f a) (post a) last) : Keeps (act >>= f) pre last := by
  intro w F hw
  obtain ⟨hmid, hs⟩ := ha w F hw
  obtain ⟨hend, hs'⟩ := hf _ _ F (hφ w F hw) hmid
  exact ⟨hend, hs.trans hs'⟩

/-- What is known of the first answer in every world may be used of the second
action. -/
theorem bind_gives {f : α → Action State β} {φ : α → Prop} {last : β → Holdings}
    (ha : Keeps act pre post) (hφ : Gives act φ) (hf : ∀ a, φ a → Keeps (f a) (post a) last) :
    Keeps (act >>= f) pre last :=
  ha.bind_at (φ := fun a _ => φ a) (fun w _ _ => hφ w) fun a w F hφ => hf a hφ w F

theorem bind {f : α → Action State β} {last : β → Holdings} (ha : Keeps act pre post)
    (hf : ∀ a, Keeps (f a) (post a) last) : Keeps (act >>= f) pre last :=
  ha.bind_gives Gives.any fun a _ => hf a

/-- **Frame rule.** What is not concerned may be added. -/
theorem frame (R : Holdings) (ha : Keeps act pre post) :
    Keeps act (pre + R) fun a => post a + R := by
  intro w F hw
  rw [add_assoc] at hw
  obtain ⟨hend, hs⟩ := ha w (R + F) hw
  exact ⟨by rw [add_assoc]; exact hend, hs.of_add⟩

theorem conv {pre' : Holdings} {post' : α → Holdings} (ha : Keeps act pre post)
    (hpre : pre' = pre) (hpost : ∀ a, post' a = post a) : Keeps act pre' post' := by
  rw [hpre, funext hpost]
  exact ha

/-- What an action makes comes to what is held. -/
theorem making (R : Holdings) (ha : Keeps act 0 post) : Keeps act R fun a => post a + R :=
  (ha.frame R).conv (zero_add R).symm fun _ => rfl

/-- What an action ends is gone from what is held. -/
theorem ending (R : Holdings) (ha : Keeps act pre fun _ => 0) :
    Keeps act (pre + R) fun _ => R :=
  (ha.frame R).conv rfl fun _ => (zero_add R).symm

theorem map {g : α → β} {last : β → Holdings} (ha : Keeps act pre fun a => last (g a)) :
    Keeps (g <$> act) pre last :=
  fun w F hw => ha w F hw

theorem mapM {f : β → Action State α} {H : Holdings} (hf : ∀ b, Keeps (f b) H fun _ => H)
    (l : List β) : Keeps (l.mapM f) H fun _ => H := by
  induction l with
  | nil => exact pure rfl
  | cons b l ih =>
    rw [List.mapM_cons]
    exact (hf b).bind fun _ => ih.bind fun _ => pure rfl

/-- It is enough to know what an action does where it is taken. -/
theorem at_eq {act' : Action State α} {w : World State} {F : Holdings}
    (ha : Keeps act' pre post) (heq : act w = act' w) : KeepsAt w F act pre post := by
  intro hw
  rw [heq]
  exact ha w F hw

theorem bind_at_eq {act' : Action State α} {f : α → Action State β} {last : β → Holdings}
    {w : World State} {F : Holdings} (ha : Keeps act' pre post) (heq : act w = act' w)
    (hf : ∀ a, Keeps (f a) (post a) last) : KeepsAt w F (act >>= f) pre last :=
  (ha.bind hf).at_eq (by rw [bind_apply, bind_apply, heq])

/-- An action that leaves objects, misuse and script alone, whatever it holds. -/
theorem quiet {H : Holdings} (h : ∀ w, (act w).2.lib.objects = w.lib.objects ∧
      (act w).2.lib.last = w.lib.last ∧ (act w).2.lib.misuse = w.lib.misuse ∧
      (act w).2.lib.script = w.lib.script ∧ (act w).2.sessions = w.sessions) :
    Keeps act H fun _ => H := by
  intro w F hw
  obtain ⟨hobj, hlast, hmis, hscr, hs⟩ := h w
  exact ⟨hw.of_eq hobj hlast hs,
    Frame.of_objects hobj hlast hscr fun _ h => h.of_sessions hs, hmis⟩

end Keeps

end Server

end Querent
