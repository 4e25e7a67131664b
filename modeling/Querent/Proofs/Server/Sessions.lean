import Querent.Connection
import Querent.Proofs.Server.Calls

/-!
# Sessions keep the accounts

A share of a session is gained by joining it and lost by leaving it. Whoever
closes the session, the connection is freed once: the last holder finds it
closed if another one closed it before.
-/

namespace Querent.Server

variable {w : World State} {H F : Holdings} {id : SessionId} {con : Handle}

/-! ## Accounts after a change of a session -/

theorem Accounts.resession {w' : World State} {H' : Holdings} (ha : Accounts w H)
    (hlib : w'.lib = w.lib) (line : ∀ i, w'.line i = w.line i) (results : H'.1 = H.1)
    (shares : ∀ i, H'.2.count i = w'.holders i)
    (held : ∀ i, (w'.line i).isSome → 0 < w'.holders i) : Accounts w' H' where
  distinct := hlib ▸ ha.distinct
  bounded := hlib ▸ ha.bounded
  results := by rw [hlib, results]; exact ha.results
  lines := by simpa only [hlib, line] using ha.lines
  unshared := by simpa only [line] using ha.unshared
  shares := shares
  held := held

theorem Spares.of_lib {w' : World State} (hlib : w'.lib = w.lib)
    (hshut : ∀ i, w.Shut i → w'.Shut i) : Spares w w' H :=
  ⟨Frame.of_objects (by rw [hlib]) (by rw [hlib]) (by rw [hlib]) hshut, by rw [hlib]⟩

/-! ## Hanging up -/

/-- The server after a connection was closed in order. -/
def cut (con : Handle) (s : State) : State :=
  { s with
    closes := s.closes + 1
    objects := s.objects.erase con.number
    released := s.released ++ [con.number] }

theorem hangUp_of_connected (hc : w.lib.connected con) :
    Session.hangUp library con w = (.ok (), { w with lib := cut con w.lib }) := by
  have hget := (w.lib.connected_iff con).mp hc
  have hclose : close con w.lib = (Code.Client.ok, cut con w.lib) := by
    have taken : remove con { w.lib with closes := w.lib.closes + 1 } =
        (some .connection, { w.lib with
          closes := w.lib.closes + 1
          objects := w.lib.objects.erase con.number }) := congrArg (·, _) hget
    rw [close, bind_apply]
    show ((remove con >>= _) { w.lib with closes := w.lib.closes + 1 }) = _
    rw [bind_apply, taken]
    rfl
  have hcall : call (library.client.close con) w =
      (Code.Client.ok, { w with lib := cut con w.lib }) := by
    rw [call_apply]
    show ((close con w.lib).1, { w with lib := (close con w.lib).2 }) = _
    rw [hclose]
  rw [Session.hangUp, bind_apply, hcall]
  rfl

theorem cut_get? (n : Nat) : (cut con w.lib).objects.get? n =
    if n = con.number then none else w.lib.objects.get? n :=
  Table.get?_erase _ n con.number

/-- Closing a connection takes no result away. -/
theorem Accounts.cut_holds (ha : Accounts w H) (hl : w.line id = some con) (h : Handle) :
    (cut con w.lib).holds h = w.lib.holds h := by
  have hcon := (w.lib.connected_iff con).mp (ha.line_connected hl)
  rw [State.holds, State.holds, cut_get?]
  split
  · next hh => simp [hh, hcon, State.isConnection]
  · rfl

theorem cut_connected (h : Handle) :
    (cut con w.lib).connected h = if h = con then false else w.lib.connected h := by
  rw [State.connected, State.connected, cut_get?]
  by_cases hh : h = con
  · simp [hh]
  · have : h.number ≠ con.number := fun heq => hh (congrArg Handle.mk heq)
    rw [if_neg this, if_neg hh]

/-- The lines that are left after a session lost its own. -/
theorem line_cut_iff {w' : World State} (line : ∀ i, w'.line i = if i = id then none else w.line i)
    {i : SessionId} {h : Handle} : w'.line i = some h ↔ i ≠ id ∧ w.line i = some h := by
  rw [line, Option.ite_none_left_eq_some]

/-- What is still connected after a session lost its line are the lines that are left. -/
theorem Accounts.lines_cut {w' : World State} (ha : Accounts w H) (hl : w.line id = some con)
    (hlib : w'.lib = cut con w.lib)
    (line : ∀ i, w'.line i = if i = id then none else w.line i) (h : Handle) :
    w'.lib.connected h ↔ ∃ i, w'.line i = some h := by
  rw [hlib, cut_connected]
  by_cases hh : h = con
  · subst hh
    rw [if_pos rfl]
    refine iff_of_false Bool.false_ne_true ?_
    rintro ⟨i, hi⟩
    obtain ⟨hne, hi⟩ := (line_cut_iff line).mp hi
    exact hne (ha.unshared i id h hi hl)
  · rw [if_neg hh, ha.lines]
    refine exists_congr fun i => ?_
    rw [line_cut_iff line]
    refine ⟨fun hi => ⟨?_, hi⟩, And.right⟩
    rintro rfl
    exact hh (Option.some.inj (hi.symm.trans hl))

/-- Accounts after the connection of a session was closed. -/
theorem Accounts.hungUp {w' : World State} {H' : Holdings} (ha : Accounts w H)
    (hl : w.line id = some con) (hlib : w'.lib = cut con w.lib)
    (line : ∀ i, w'.line i = if i = id then none else w.line i) (results : H'.1 = H.1)
    (shares : ∀ i, H'.2.count i = w'.holders i)
    (held : ∀ i, i ≠ id → (w.line i).isSome → 0 < w'.holders i) : Accounts w' H' where
  distinct := by
    rw [hlib]
    exact ha.distinct.sublist (List.filter_sublist.map _)
  bounded n hn := by
    rw [hlib] at hn ⊢
    rw [cut_get?]
    split
    · rfl
    · exact ha.bounded n hn
  results h := by
    rw [results, hlib, ha.cut_holds hl]
    exact ha.results h
  lines := ha.lines_cut hl hlib line
  unshared i i' h hi hi' :=
    ha.unshared i i' h ((line_cut_iff line).mp hi).2 ((line_cut_iff line).mp hi').2
  shares := shares
  held i hi := by
    obtain ⟨h, hi⟩ := Option.isSome_iff_exists.mp hi
    obtain ⟨hne, hi⟩ := (line_cut_iff line).mp hi
    exact held i hne (Option.isSome_of_mem hi)

/-- Closing the connection of a session leaves all results as they are. -/
theorem Accounts.spares_cut {w' : World State} (ha : Accounts w H)
    (hl : w.line id = some con) (hlib : w'.lib = cut con w.lib)
    (hlen : w.sessions.length ≤ w'.sessions.length)
    (line : ∀ i, w'.line i = if i = id then none else w.line i) : Spares w w' H where
  script := by rw [hlib]; rfl
  last := by rw [hlib]; exact le_refl _
  kept h hh := by
    have hcon := (w.lib.connected_iff con).mp (ha.line_connected hl)
    have hne : h.number ≠ con.number := by
      intro heq
      have := ha.not_connected hh
      rw [State.connected, heq, hcon] at this
      exact absurd this (by simp [State.isConnection])
    rw [hlib, cut_get?, if_neg hne]
  gone h _ hh := by
    rw [hlib]
    exact (ha.cut_holds hl h).trans hh
  unconnected h _ hh := by
    rw [hlib, cut_connected, hh]
    exact ite_self _
  shut i hi := by
    refine ⟨hi.1.trans_le hlen, ?_⟩
    rw [line, hi.2]
    exact ite_self _
  misuse := by rw [hlib]; rfl

/-! ## Holding a session -/

/-- The session of a share that is held. -/
theorem Accounts.session_of_share (ha : Accounts w (share id + F)) :
    ∃ s, w.sessions[id]? = some s ∧ s.holders = F.2.count id + 1 := by
  have hc := ha.shares id
  have hone : (share id + F).2.count id = F.2.count id + 1 := by
    rw [Prod.snd_add, Multiset.count_add, share, Multiset.count_singleton_self, Nat.add_comm]
  rw [hone, World.holders] at hc
  cases hs : w.sessions[id]? with
  | none => simp [hs] at hc
  | some s => exact ⟨s, rfl, by simpa [hs] using hc.symm⟩

/-- Shares of the other sessions. -/
theorem Accounts.shares_of_ne (ha : Accounts w (share id + F)) {i : SessionId} (hi : i ≠ id) :
    F.2.count i = w.holders i := by
  rw [← ha.shares i, Prod.snd_add, Multiset.count_add, share, Multiset.count_singleton,
    if_neg hi, Nat.zero_add]

theorem Keeps.join : Keeps (Session.join id) (share id) fun _ => share id + share id := by
  intro w F ha
  obtain ⟨s, hs, hn⟩ := ha.session_of_share
  have holders : ∀ i, (Session.join id w).2.holders i =
      if i = id then w.holders i + 1 else w.holders i := by
    intro i
    rw [Session.join, holders_update]
    split
    · next hi => simp [hi, World.holders, hs]
    · rfl
  refine ⟨ha.resession rfl line_join (by simp [share]) ?_ ?_,
    Spares.of_lib rfl (shut_update (line_join id))⟩
  · intro i
    have hc := ha.shares i
    rw [holders, ← hc]
    simp only [share, Prod.snd_add, Multiset.count_add, Multiset.count_singleton]
    split <;> omega
  · intro i hi
    have := ha.held i (line_join i ▸ hi)
    rw [holders]
    split <;> omega

theorem Keeps.close : Keeps (Session.close library id) 0 fun _ => 0 := by
  intro w F ha
  rw [zero_add] at ha ⊢
  cases hl : w.line id with
  | none =>
    rw [close_of_none library hl]
    exact ⟨ha, Spares.refl w F⟩
  | some con =>
    -- the session is cleared first, but the connection is still on the table
    rw [close_of_some library hl,
      hangUp_of_connected (w := (Session.clear id w).2) (ha.line_connected hl)]
    refine ⟨ha.hungUp hl rfl line_clear rfl
      (fun i => (ha.shares i).trans (holders_clear i).symm) fun i _ hi => ?_,
      ha.spares_cut hl rfl (List.length_modify ..).ge line_clear⟩
    exact (holders_clear i).symm ▸ ha.held i hi

/-- Shares after one of them was given up. -/
theorem Accounts.shares_departed (ha : Accounts w (share id + F)) (i : SessionId) :
    F.2.count i = (departed id w).holders i := by
  by_cases hi : i = id
  · obtain ⟨s, hs, hn⟩ := ha.session_of_share
    rw [hi, departed, holders_update, if_pos rfl, hs]
    show F.2.count id = s.holders - 1
    omega
  · rw [holders_departed hi]
    exact ha.shares_of_ne hi

/-- A holder has left, and the session has another one or is closed already. -/
theorem Accounts.after_departure (ha : Accounts w (share id + F))
    (hopen : (w.line id).isSome → 0 < F.2.count id) :
    Accounts (departed id w) F ∧ Spares w (departed id w) F := by
  have held : ∀ i, ((departed id w).line i).isSome →
      0 < (departed id w).holders i := by
    intro i hi
    rw [line_departed] at hi
    by_cases hid : i = id
    · exact ha.shares_departed i ▸ hid ▸ hopen (hid ▸ hi)
    · rw [holders_departed hid]
      exact ha.held i hi
  exact ⟨ha.resession rfl line_departed (zero_add F.1).symm ha.shares_departed held,
    Spares.of_lib rfl (shut_update (line_departed id))⟩

/-- The last holder has left, and the session is closed. -/
theorem Accounts.cutOff (ha : Accounts w (share id + F)) (hl : w.line id = some con) :
    let w' : World State := ⟨cut con w.lib, (Session.clear id (departed id w)).2.sessions⟩
    Accounts w' F ∧ Spares w w' F := by
  intro w'
  have line (i : SessionId) : w'.line i = if i = id then none else w.line i :=
    (line_clear i).trans (by rw [line_departed])
  have holders (i : SessionId) : w'.holders i = (departed id w).holders i :=
    holders_clear i
  have held : ∀ i, i ≠ id → (w.line i).isSome → 0 < w'.holders i := by
    intro i hi hopen
    rw [holders, holders_departed hi]
    exact ha.held i hopen
  have shares (i : SessionId) : F.2.count i = w'.holders i :=
    (ha.shares_departed i).trans (holders i).symm
  have results : F.1 = (share id + F).1 := (zero_add F.1).symm
  have length : w'.sessions.length = w.sessions.length :=
    (List.length_modify ..).trans (List.length_modify ..)
  exact ⟨ha.hungUp hl rfl line results shares held,
    (ha.spares_cut hl rfl length.ge line).of_add⟩

theorem Keeps.leave : Keeps (Session.leave library id) (share id) fun _ => 0 := by
  intro w F ha
  rw [zero_add]
  have left : F.2.count id = (departed id w).holders id := ha.shares_departed id
  by_cases hopen : (w.line id).isSome → 0 < F.2.count id
  · rw [leave_of_held library fun h => left ▸ hopen h]
    exact ha.after_departure hopen
  · -- the last holder finds the session open, and closes it
    obtain ⟨hsome, hnone⟩ := Classical.not_imp.mp hopen
    obtain ⟨con, hl⟩ := Option.isSome_iff_exists.mp hsome
    have hlast : (departed id w).holders id = 0 := left ▸ Nat.eq_zero_of_not_pos hnone
    rw [leave_of_last library hl hlast,
      hangUp_of_connected (w := (Session.clear id (departed id w)).2) (ha.line_connected hl)]
    exact ha.cutOff hl

/-- Leaving the session that there may be. -/
theorem Keeps.leave? (id : Option SessionId) :
    Keeps (Session.leave? library id) (id.elim 0 share) fun _ => 0 := by
  cases id with
  | none => exact Keeps.pure rfl
  | some id => exact Keeps.leave

/-! ## Connecting -/

theorem Accounts.dialled_holds (ha : Accounts w H) (h : Handle) :
    (Server.alloc .connection w.lib).2.holds h = w.lib.holds h := by
  rw [State.holds, State.holds, ha.alloc_get?]
  split
  · next hh => simp [hh, ha.fresh, State.isConnection]
  · rfl

theorem Accounts.dialled_connected (ha : Accounts w H) (h : Handle) :
    (Server.alloc .connection w.lib).2.connected h =
      if h = ⟨w.lib.last + 1⟩ then true else w.lib.connected h := by
  rw [State.connected, State.connected, ha.alloc_get?]
  by_cases hh : h = ⟨w.lib.last + 1⟩
  · simp [hh, State.isConnection]
  · have : h.number ≠ w.lib.last + 1 := fun heq => hh (congrArg Handle.mk heq)
    rw [if_neg this, if_neg hh]

/-- No session has a connection that is yet to be made. -/
theorem Accounts.undialled (ha : Accounts w H) (i : SessionId) :
    w.line i ≠ some ⟨w.lib.last + 1⟩ := by
  intro hi
  have := ha.line_connected hi
  rw [State.connected, ha.fresh] at this
  exact absurd this (by simp)

/-- What is connected after a session was begun are the lines there were, and its own. -/
theorem Accounts.lines_dialled {w' : World State} (ha : Accounts w H)
    (hlib : w'.lib = (Server.alloc .connection w.lib).2)
    (line : ∀ i, w'.line i =
      if i = w.sessions.length then some ⟨w.lib.last + 1⟩ else w.line i) (h : Handle) :
    w'.lib.connected h ↔ ∃ i, w'.line i = some h := by
  rw [hlib, ha.dialled_connected]
  by_cases hh : h = ⟨w.lib.last + 1⟩
  · rw [if_pos hh]
    exact iff_of_true rfl ⟨w.sessions.length, by rw [line, if_pos rfl, hh]⟩
  · rw [if_neg hh, ha.lines]
    constructor
    · rintro ⟨i, hi⟩
      have hne : i ≠ w.sessions.length := by
        rintro rfl
        simp [World.line] at hi
      exact ⟨i, by rw [line, if_neg hne, hi]⟩
    · rintro ⟨i, hi⟩
      rw [line] at hi
      split at hi
      · exact absurd (Option.some.inj hi).symm hh
      · exact ⟨i, hi⟩

/-- A new connection, and a session with one holder for it. -/
theorem Keeps.start (peer : String) :
    Keeps (call (Server.alloc .connection) >>= fun con => Session.start con peer) 0 share := by
  intro w F ha
  rw [zero_add] at ha
  let new : Handle := ⟨w.lib.last + 1⟩
  let lib := (Server.alloc .connection w.lib).2
  let w' : World State := ⟨lib, w.sessions ++ [⟨some new, peer, 1⟩]⟩
  have holds (h : Handle) : lib.holds h = w.lib.holds h := ha.dialled_holds h
  have unused : ∀ i, w.line i ≠ some new := ha.undialled
  have line (i : SessionId) : w'.line i =
      if i = w.sessions.length then some new else w.line i := line_started lib _ i
  have holders (i : SessionId) : w'.holders i =
      if i = w.sessions.length then 1 else w.holders i := holders_started lib _ i
  have accounts : Accounts w' (share w.sessions.length + F) := {
    distinct := ha.alloc_distinct _
    bounded := ha.alloc_bounded _
    results := fun h => by
      rw [show (share w.sessions.length + F).1 = F.1 from zero_add F.1, holds]
      exact ha.results h
    lines := ha.lines_dialled rfl line
    unshared := by
      intro i i' h hi hi'
      rw [line] at hi hi'
      split at hi
      · next heq =>
        split at hi'
        · next heq' => rw [heq, heq']
        · exact absurd (hi'.trans hi.symm) (unused i')
      · split at hi'
        · exact absurd (hi.trans hi'.symm) (unused i)
        · exact ha.unshared i i' h hi hi'
    shares := by
      intro i
      rw [holders, Prod.snd_add, Multiset.count_add, ha.shares, share, Multiset.count_singleton]
      split
      · next hi => simp [hi, World.holders]
      · exact Nat.zero_add _
    held := by
      intro i hi
      rw [line] at hi
      rw [holders]
      split at hi
      · next heq => rw [if_pos heq]; exact Nat.zero_lt_one
      · next hne => rw [if_neg hne]; exact ha.held i hi }
  have spares : Spares w w' F := {
    script := rfl
    last := Nat.le_succ _
    kept := by
      intro h hh
      have hle := ha.le_last hh
      rw [ha.alloc_get?, if_neg (by omega)]
    gone := fun h _ hh => (holds h).trans hh
    unconnected := by
      intro h hle hh
      have hne : h ≠ new := by
        rintro rfl
        exact absurd hle (Nat.not_succ_le_self _)
      exact (ha.dialled_connected h).trans ((if_neg hne).trans hh)
    shut := by
      intro i hi
      refine ⟨hi.1.trans_le (by simp [w']), ?_⟩
      rw [line, if_neg (Nat.ne_of_lt hi.1)]
      exact hi.2
    misuse := rfl }
  exact ⟨accounts, spares⟩

end Querent.Server
