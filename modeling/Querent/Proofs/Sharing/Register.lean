import Mathlib.Algebra.Order.Group.Multiset
import Querent.Connection
import Querent.Proofs.Sharing.Log

/-!
# The register of sessions

Who shares a session is a sum of stakes: one for each object that holds the session,
and the stake of a result has the handle of the result with it. The register of a world
is in order if each session has as many holders as there are stakes in it, and if the
log tells of each connection how its session stands: it is open, and nothing was done to
end the connection; or it was closed when that was asked; or the last holder has closed
it, and by then all results of the session had been released. Each change of a world
that a program makes keeps the register in order. This holds over every library, for the
connections that it gives out once.
-/

namespace Querent

/-- Shares of sessions. That of a result has its handle with it. -/
abbrev Stakes := Multiset (SessionId × Option Handle)

/-- How many of the stakes are in a session. -/
def sharesOf (id : SessionId) (H : Stakes) : Nat := H.countP (·.1 = id)

section Shares

variable {id i : SessionId} {o : Option Handle} {H F : Stakes}

@[simp] theorem sharesOf_add : sharesOf id (H + F) = sharesOf id H + sharesOf id F :=
  Multiset.countP_add ..

theorem sharesOf_singleton : sharesOf i {(id, o)} = if i = id then 1 else 0 := by
  rw [sharesOf, ← Multiset.cons_zero, Multiset.countP_cons, Multiset.countP_zero]
  simp [eq_comm]

/-- The handle does not count. -/
theorem sharesOf_stake (o o' : Option Handle) :
    sharesOf i ({(id, o)} + F) = sharesOf i ({(id, o')} + F) := by
  rw [sharesOf_add, sharesOf_add, sharesOf_singleton, sharesOf_singleton]

theorem sharesOf_pos : 0 < sharesOf id H ↔ ∃ o, (id, o) ∈ H := by
  rw [sharesOf, Multiset.countP_pos]
  constructor
  · rintro ⟨⟨i, o⟩, hm, rfl⟩
    exact ⟨o, hm⟩
  · rintro ⟨o, hm⟩
    exact ⟨_, hm, rfl⟩

/-- Where there is no stake, there is none of a result. -/
theorem count_eq_zero (h : sharesOf id H = 0) (o : Option Handle) : H.count (id, o) = 0 := by
  rw [Multiset.count_eq_zero]
  intro hm
  exact absurd (sharesOf_pos.mpr ⟨o, hm⟩) (by omega)

@[simp] theorem count_holder (h : Handle) :
    Multiset.count (i, some h) ({(id, none)} + F) = F.count (i, some h) := by
  simp

theorem count_result (h j : Handle) : Multiset.count (i, some j) ({(id, some h)} + F) =
    F.count (i, some j) + if i = id ∧ j = h then 1 else 0 := by
  rw [Multiset.count_add, Multiset.count_singleton, Nat.add_comm]
  simp only [Prod.mk.injEq, Option.some.injEq]

end Shares

/-- What a program has done so far: the sessions that it asked to be closed, and the
handles that results of sessions have given up. -/
structure Past where
  closed : List SessionId
  given : List (SessionId × Handle)
  /-- what was on record at some moment before -/
  calls : List Call

/-- A program has asked that a session be closed. -/
def Past.close (p : Past) (id : SessionId) : Past := { p with closed := p.closed ++ [id] }

/-- A result of a session has given up its handle. -/
def Past.give (p : Past) (id : SessionId) (h : Handle) : Past :=
  { p with given := p.given ++ [(id, h)] }

variable {σ : Type}

/-- How the session `id` stands, whose connection is `con`. -/
inductive Standing (w : World (σ × List Call)) (p : Past) (H : Stakes) (id : SessionId)
    (con : Handle) : Prop
  /-- it is open -/
  | running (line : w.line id = some con) (untouched : endings con w.log = [])
      (owed : ∀ h, (resultsOf con w.log).count h ≤
        (released w.log).count h + (H.count (id, some h) + p.given.count (id, h)))
  /-- it was closed when that was asked -/
  | closed (line : w.line id = none) (asked : id ∈ p.closed) (ended : Ended con w.log)
  /-- its last holder has closed it -/
  | lapsed (line : w.line id = none) (alone : w.holders id = 0) (ended : Ended con w.log)
      (first : ReleasedFirst id con p.given w.log)

/-- The register of a world is in order, where `H` are all stakes. -/
structure Register (w : World (σ × List Call)) (p : Past) (H : Stakes) : Prop where
  born : (dialled w.log).length = w.sessions.length
  lines : ∀ id con, w.line id = some con → (dialled w.log)[id]? = some con
  shares : ∀ id, sharesOf id H = w.holders id
  held : ∀ id, (w.line id).isSome → 0 < w.holders id
  /-- nothing was done with a connection before it was given out -/
  strange : ∀ con, con ∉ dialled w.log → endings con w.log = [] ∧ resultsOf con w.log = []
  shut : ∀ id ∈ p.closed, w.Shut id
  kept : p.calls <+: w.log
  standing : ∀ id con, Sole id con w.log → Standing w p H id con

variable {w w' : World (σ × List Call)} {p p' : Past} {H H' F : Stakes} {id : SessionId}
  {con : Handle} {L : Library σ}

/-! ## What is left of a standing -/

theorem ReleasedFirst.append {log calls : List Call} {given : List (SessionId × Handle)}
    (h : ReleasedFirst id con given log) (hc : resultsOf con calls = []) :
    ReleasedFirst id con given (log ++ calls) := by
  obtain ⟨pre, code, post, rfl, hle⟩ := h
  refine ⟨pre, code, post ++ calls, by simp, fun h => ?_⟩
  rw [resultsOf_append, hc, List.append_nil]
  exact hle h

/-- What changes in a world, in the past and in the stakes that leaves a connection as
it is: what is owed of its results is paid or still owed. -/
structure Spared (w w' : World (σ × List Call)) (p p' : Past) (H H' : Stakes)
    (id : SessionId) (con : Handle) : Prop where
  line : w'.line id = w.line id
  alone : w.holders id = 0 → w'.holders id = 0
  calls : ∃ calls, w'.log = w.log ++ calls ∧ endings con calls = [] ∧ resultsOf con calls = []
  closed : p.closed ⊆ p'.closed
  given : ∀ h, p.given.count (id, h) ≤ p'.given.count (id, h)
  paid : ∀ h, (released w.log).count h + (H.count (id, some h) + p.given.count (id, h)) ≤
    (released w'.log).count h + (H'.count (id, some h) + p'.given.count (id, h))

theorem Standing.after (h : Standing w p H id con) (hs : Spared w w' p p' H H' id con) :
    Standing w' p' H' id con := by
  obtain ⟨calls, hlog, hends, hobt⟩ := hs.calls
  have ends : endings con w'.log = endings con w.log := by
    rw [hlog, endings_append, hends, List.append_nil]
  have gave : resultsOf con w'.log = resultsOf con w.log := by
    rw [hlog, resultsOf_append, hobt, List.append_nil]
  cases h with
  | running line untouched owed =>
    refine .running (hs.line.trans line) (ends.trans untouched) fun h => ?_
    rw [gave]
    exact (owed h).trans (hs.paid h)
  | closed line asked ended =>
    refine .closed (hs.line.trans line) (hs.closed asked) ?_
    rw [Ended, ends]
    exact ended
  | lapsed line alone ended first =>
    refine .lapsed (hs.line.trans line) (hs.alone alone) ?_ ?_
    · rw [Ended, ends]
      exact ended
    · obtain ⟨pre, code, post, heq, hle⟩ := hlog ▸ first.append hobt
      exact ⟨pre, code, post, heq, fun h => (hle h).trans (Nat.add_le_add_left (hs.given h) _)⟩

namespace Register

/-- The connection of an open session is not that of another one, if that was given out
once. -/
theorem line_ne (hr : Register w p H) {i : SessionId} {con' : Handle}
    (hl : w.line id = some con) (hi : i ≠ id) (hs : Sole i con' w.log) : con ≠ con' := by
  rintro rfl
  exact hi ((hs id).mp (hr.lines id con hl)).symm

/-- A world in which no connection was given out, and no session opened. -/
theorem undialled (hr : Register w p H) (calls : List Call) (hlog : w'.log = w.log ++ calls)
    (hdial : dialled calls = []) (hlen : w'.sessions.length = w.sessions.length)
    (hlines : ∀ i, w'.line i = w.line i ∨ w'.line i = none)
    (hshares : ∀ i, sharesOf i H' = w'.holders i)
    (hheld : ∀ i, (w'.line i).isSome → 0 < w'.holders i)
    (hstrange : ∀ con ∉ dialled w.log, endings con calls = [] ∧ resultsOf con calls = [])
    (hshut : ∀ i ∈ p'.closed, w'.Shut i) (hcalls : p'.calls = p.calls)
    (hstanding : ∀ i con, Sole i con w.log → Standing w' p' H' i con) : Register w' p' H' := by
  have same : dialled w'.log = dialled w.log := by
    rw [hlog, dialled_append, hdial, List.append_nil]
  refine ⟨by rw [same, hlen]; exact hr.born, ?_, hshares, hheld, ?_, hshut, ?_, ?_⟩
  · intro i con hl
    rw [same]
    rcases hlines i with hi | hi
    · exact hr.lines i con (hi ▸ hl)
    · exact absurd (hi.symm.trans hl) (by simp)
  · intro con hcon
    rw [same] at hcon
    obtain ⟨ends, gave⟩ := hr.strange con hcon
    obtain ⟨ends', gave'⟩ := hstrange con hcon
    rw [hlog, endings_append, resultsOf_append, ends, gave, ends', gave']
    exact ⟨rfl, rfl⟩
  · rw [hlog, hcalls]
    exact hr.kept.trans (List.prefix_append _ _)
  · intro i con hs
    rw [Sole, same] at hs
    exact hstanding i con hs

/-- A world in which, besides, no connection ended and no result was obtained: the holders
of sessions have changed, with the stakes, or results have ended. -/
theorem pass (hr : Register w p H) (calls : List Call) (hlog : w'.log = w.log ++ calls)
    (hplain : ∀ c ∈ calls, c.Plain) (hlen : w'.sessions.length = w.sessions.length)
    (hline : ∀ i, w'.line i = w.line i) (hshares : ∀ i, sharesOf i H' = w'.holders i)
    (hheld : ∀ i, (w.line i).isSome → 0 < w'.holders i)
    (halone : ∀ i, w.holders i = 0 → w'.holders i = 0)
    (hclosed : p'.closed = p.closed) (hcalls : p'.calls = p.calls)
    (hgiven : ∀ i h, p.given.count (i, h) ≤ p'.given.count (i, h))
    (hpaid : ∀ i h, H.count (i, some h) + p.given.count (i, h) ≤
      (released calls).count h + (H'.count (i, some h) + p'.given.count (i, h))) :
    Register w' p' H' := by
  have ends (con : Handle) := endings_plain con hplain
  have gave (con : Handle) := resultsOf_plain con hplain
  refine hr.undialled _ hlog (dialled_plain hplain) hlen (fun i => Or.inl (hline i)) hshares
    (fun i hi => hheld i (hline i ▸ hi)) (fun con _ => ⟨ends con, gave con⟩) ?_ hcalls ?_
  · intro i hi
    obtain ⟨born, closed⟩ := hr.shut i (hclosed ▸ hi)
    exact ⟨hlen ▸ born, (hline i).trans closed⟩
  · intro i con hs
    refine (hr.standing i con hs).after ⟨hline i, halone i, ⟨calls, hlog, ends con, gave con⟩,
      hclosed ▸ List.Subset.refl _, hgiven i, fun h => ?_⟩
    have := hpaid i h
    rw [hlog, released_append, List.count_append]
    omega

/-- A program that has not connected yet. -/
theorem initial (lib : σ) : Register (World.start (lib, [])) ⟨[], [], []⟩ 0 := by
  refine ⟨rfl, ?_, fun _ => rfl, ?_, fun _ _ => ⟨rfl, rfl⟩, by simp, List.prefix_refl _, ?_⟩
  · intro id con hl
    cases hl
  · intro id hl
    cases hl
  · intro id con hs
    exact absurd ((hs id).mpr rfl) (by simp [World.log, World.start, dialled])

/-- What is on record now may be kept in mind. -/
theorem remember (hr : Register w p H) : Register w { p with calls := w.log } H :=
  { hr with
    kept := List.prefix_refl _
    standing := fun i con hs => (hr.standing i con hs).after ⟨rfl, fun h => h,
      ⟨[], (List.append_nil _).symm, rfl, rfl⟩, List.Subset.refl _, fun _ => Nat.le_refl _,
      fun _ => Nat.le_refl _⟩ }

theorem quiet (hr : Register w p H) (hq : Quiet w w') : Register w' p H := by
  obtain ⟨hs, calls, hlog, hplain⟩ := hq
  have line (i : SessionId) : w'.line i = w.line i := by rw [World.line, World.line, hs]
  have holders (i : SessionId) : w'.holders i = w.holders i := by
    rw [World.holders, World.holders, hs]
  refine hr.pass calls hlog hplain (congrArg _ hs) line ?_ ?_ ?_ rfl rfl (fun _ _ => le_refl _) ?_
  · exact fun i => (hr.shares i).trans (holders i).symm
  · exact fun i hi => (holders i).symm ▸ hr.held i hi
  · exact fun i hi => (holders i).trans hi
  · exact fun i h => Nat.le_add_left _ _

/-! ## Stakes of results -/

/-- A result whose handle was released has the stake of a mere holder. -/
theorem release {h : Handle} (hr : Register w p ({(id, some h)} + F)) (k : ResultKind) :
    Register (call (L.recorded.results.release h k) w).2 p ({(id, none)} + F) := by
  have plain : ∀ c ∈ [Call.release h k], c.Plain := by
    simp [Call.Plain, Call.dialled?, Call.ends, Call.resultOf?]
  refine hr.pass [.release h k] rfl plain rfl (fun _ => rfl) ?_ hr.held (fun _ hi => hi) rfl rfl
    (fun _ _ => le_refl _) ?_
  · exact fun i => (sharesOf_stake none (some h)).trans (hr.shares i)
  · intro i j
    rw [count_holder, count_result]
    show _ ≤ [h].count j + _
    rw [List.count_singleton]
    grind

/-- A result that gave up its handle has the stake of a mere holder. -/
theorem give {h : Handle} (hr : Register w p ({(id, some h)} + F)) :
    Register w (p.give id h) ({(id, none)} + F) := by
  refine hr.pass [] (List.append_nil _).symm (by simp) rfl (fun _ => rfl) ?_ hr.held
    (fun _ hi => hi) rfl rfl ?_ ?_
  · exact fun i => (sharesOf_stake none (some h)).trans (hr.shares i)
  · intro i j
    rw [Past.give, List.count_append]
    exact Nat.le_add_right _ _
  · intro i j
    rw [count_holder, count_result, Past.give, List.count_append, List.count_singleton]
    grind

/-! ## Holders -/

theorem join (hr : Register w p H) (hpos : 0 < sharesOf id H) :
    Register (Session.join id w).2 p ({(id, none)} + H) := by
  have holders := holders_join (hr.shares id ▸ hpos)
  refine hr.pass [] (List.append_nil _).symm (by simp) (List.length_modify ..) line_join
    ?_ ?_ ?_ rfl rfl (fun _ _ => le_refl _) ?_
  · intro i
    rw [holders, sharesOf_add, sharesOf_singleton, hr.shares]
    split <;> omega
  · intro i hi
    have := hr.held i hi
    rw [holders]
    split <;> omega
  · intro i hi
    have := hr.shares id
    rw [holders]
    split
    · next heq => rw [heq] at hi; omega
    · exact hi
  · intro i h
    rw [count_holder]
    exact Nat.le_add_left _ _

/-- The shares that are left when a holder has gone. -/
theorem shares_departed (hr : Register w p ({(id, none)} + F)) (i : SessionId) :
    sharesOf i F = (departed id w).holders i := by
  have hi := hr.shares i
  rw [sharesOf_add, sharesOf_singleton] at hi
  by_cases heq : i = id
  · subst heq
    rw [holders_departed_self]
    simp only [if_true] at hi
    omega
  · rw [holders_departed heq]
    simpa [heq] using hi

/-- A holder has left that was not the last one, or whose session was closed. -/
theorem depart (hr : Register w p ({(id, none)} + F))
    (hopen : (w.line id).isSome → 0 < sharesOf id F) : Register (departed id w) p F := by
  have holders := hr.shares_departed
  refine hr.pass [] (List.append_nil _).symm (by simp) (List.length_modify ..)
    line_departed holders ?_ ?_ rfl rfl (fun _ _ => le_refl _) ?_
  · intro i hi
    by_cases heq : i = id
    · exact holders i ▸ heq ▸ hopen (heq ▸ hi)
    · rw [holders_departed heq]
      exact hr.held i hi
  · exact fun i => departed_alone
  · intro i h
    rw [count_holder]
    exact Nat.le_add_left _ _

/-! ## Connections -/

/-- The connection of a session that is open. -/
theorem line_sole (hr : Register w p H) {con' : Handle} (hl : w.line id = some con)
    (hs : Sole id con' w.log) : con = con' :=
  Option.some.inj ((hr.lines id con hl).symm.trans ((hs id).mpr rfl))

theorem line_dialled (hr : Register w p H) (hl : w.line id = some con) : con ∈ dialled w.log :=
  List.mem_of_getElem? (hr.lines id con hl)

/-- A statement has given a result, whose stake is that of a mere holder until then. -/
theorem obtain {h : Handle} {sql : String} (hr : Register w p ({(id, none)} + F))
    (hl : w.line id = some con) (hlog : w'.log = w.log ++ [.execute con sql (.ok h)])
    (hs : w'.sessions = w.sessions) : Register w' p ({(id, some h)} + F) := by
  have line (i : SessionId) : w'.line i = w.line i := by rw [World.line, World.line, hs]
  have holders (i : SessionId) : w'.holders i = w.holders i := by
    rw [World.holders, World.holders, hs]
  have unrelated {con' : Handle} (hne : con ≠ con') :
      resultsOf con' [.execute con sql (.ok h)] = [] := by
    simp [resultsOf, Call.resultOf?, hne]
  refine hr.undialled _ hlog rfl (congrArg _ hs) (fun i => Or.inl (line i)) ?_ ?_ ?_
    (fun i hi => (hr.shut i hi).of_sessions hs) rfl fun i con' hsole => ?_
  · exact fun i => (sharesOf_stake (some h) none).trans ((hr.shares i).trans (holders i).symm)
  · exact fun i hi => holders i ▸ hr.held i (line i ▸ hi)
  · intro con' hcon
    exact ⟨rfl, unrelated fun heq => hcon (heq ▸ hr.line_dialled hl)⟩
  by_cases heq : i = id
  · subst heq
    obtain rfl := hr.line_sole hl hsole
    cases hr.standing i con hsole with
    | running _ untouched owed =>
      refine .running ((line i).trans hl) ?_ fun j => ?_
      · rw [hlog, endings_append, untouched]
        rfl
      · have before := owed j
        have new : resultsOf con [.execute con sql (.ok h)] = [h] := by
          simp [resultsOf, Call.resultOf?]
        have none : released [.execute con sql (.ok h)] = [] := rfl
        rw [count_holder] at before
        rw [hlog, resultsOf_append, released_append, new, none, List.append_nil, count_result,
          List.count_append, List.count_singleton]
        grind
    | closed line | lapsed line => exact absurd (hl.symm.trans line) (by simp)
  · -- the result is none of another session
    refine (hr.standing i con' hsole).after ⟨line i, fun hi => (holders i).trans hi,
      ⟨_, hlog, rfl, unrelated (hr.line_ne hl heq hsole)⟩, List.Subset.refl _,
      fun _ => le_refl _, fun j => ?_⟩
    rw [hlog, released_append, List.count_append, count_holder, count_result,
      if_neg fun hi => heq hi.1]
    omega

/-- Nobody has a stake in the session that comes next. -/
theorem unborn (hr : Register w p H) : sharesOf w.sessions.length H = 0 := by
  rw [hr.shares]
  simp [World.holders]

/-- A connection that was just given out comes behind the others. -/
theorem dialled_connect {req : ConnectRequest}
    (hlog : w'.log = w.log ++ [.connect req (.ok con)]) :
    dialled w'.log = dialled w.log ++ [con] := by
  rw [hlog, dialled_append]
  rfl

theorem dialled_begun (hr : Register w p F) {req : ConnectRequest}
    (hlog : w'.log = w.log ++ [.connect req (.ok con)]) (i : Nat) :
    (dialled w'.log)[i]? = if i = w.sessions.length then some con else (dialled w.log)[i]? := by
  rw [dialled_connect hlog, getElem?_concat, hr.born]

/-- How sessions stand when one was begun: the new one is open, and nothing was done with
its connection, for it was not given out before. -/
theorem standing_begun {req : ConnectRequest} (hr : Register w p F)
    (hlog : w'.log = w.log ++ [.connect req (.ok con)])
    (line : ∀ i, w'.line i = if i = w.sessions.length then some con else w.line i)
    (holders : ∀ i, w'.holders i = if i = w.sessions.length then 1 else w.holders i)
    (i : SessionId) (con' : Handle) (hsole : Sole i con' w'.log) :
    Standing w' p ({(w.sessions.length, none)} + F) i con' := by
  have grown : w.log <+: w'.log := hlog ▸ List.prefix_append _ _
  have there := (hsole i).mpr rfl
  rw [hr.dialled_begun hlog] at there
  by_cases heq : i = w.sessions.length
  · obtain rfl : con = con' := Option.some.inj ((if_pos heq).symm.trans there)
    have fresh : con ∉ dialled w.log :=
      hsole.not_mem grown (Nat.le_of_eq (hr.born.trans heq.symm))
    obtain ⟨ends, gave⟩ := hr.strange con fresh
    refine .running ((line i).trans (if_pos heq)) ?_ fun h => ?_
    · rw [hlog, endings_append, ends]
      rfl
    · rw [hlog, resultsOf_append, gave]
      exact Nat.zero_le _
  · rw [if_neg heq] at there
    have before : Sole i con' w.log :=
      hsole.of_prefix grown (List.getElem?_eq_some_iff.mp there).1
    refine (hr.standing i con' before).after ⟨(line i).trans (if_neg heq), fun hi => ?_,
      ⟨_, hlog, rfl, rfl⟩, List.Subset.refl _, fun _ => Nat.le_refl _, fun h => ?_⟩
    · rw [holders, if_neg heq]
      exact hi
    · rw [hlog, released_append, count_holder, List.count_append]
      omega

/-- A connection was given out, and a session begun for it. -/
theorem start {req : ConnectRequest} {peer : String} (hr : Register w p F)
    (hlog : w'.log = w.log ++ [.connect req (.ok con)])
    (hs : w'.sessions = w.sessions ++ [⟨some con, peer, 1⟩]) :
    Register w' p ({(w.sessions.length, none)} + F) := by
  have now : dialled w'.log = dialled w.log ++ [con] := dialled_connect hlog
  have line (i : SessionId) :
      w'.line i = if i = w.sessions.length then some con else w.line i := by
    rw [World.line, hs]
    exact line_started w.lib _ i
  have holders (i : SessionId) :
      w'.holders i = if i = w.sessions.length then 1 else w.holders i := by
    rw [World.holders, hs]
    exact holders_started w.lib _ i
  exact {
    born := by
      rw [now, hs, List.length_append, List.length_append, hr.born]
      rfl
    lines := by
      intro i con' hl
      rw [line] at hl
      rw [hr.dialled_begun hlog]
      split at hl
      · next heq => exact (if_pos heq).trans hl
      · next hne => exact (if_neg hne).trans (hr.lines i con' hl)
    shares := by
      intro i
      rw [sharesOf_add, sharesOf_singleton, holders]
      split
      · next heq => rw [heq, hr.unborn]
      · exact (Nat.zero_add _).trans (hr.shares i)
    held := by
      intro i hi
      rw [line] at hi
      rw [holders]
      split at hi
      · next heq => rw [if_pos heq]; exact Nat.zero_lt_one
      · next hne => rw [if_neg hne]; exact hr.held i hi
    strange := by
      intro con' hcon
      rw [now, List.mem_append, not_or] at hcon
      obtain ⟨ends, gave⟩ := hr.strange con' hcon.1
      rw [hlog, endings_append, resultsOf_append, ends, gave]
      exact ⟨rfl, rfl⟩
    shut := by
      intro i hi
      obtain ⟨born, closed⟩ := hr.shut i hi
      refine ⟨?_, ?_⟩
      · rw [hs, List.length_append]
        exact Nat.lt_add_right _ born
      · rw [line, if_neg (Nat.ne_of_lt born)]
        exact closed
    kept := hr.kept.trans (hlog ▸ List.prefix_append _ _)
    standing := hr.standing_begun hlog line holders }

end Register

/-! ## Closing -/

/-- The connection of a session was ended, whatever became of those who hold the session. -/
structure Severed (w w' : World (σ × List Call)) (id : SessionId) (con : Handle) : Prop where
  log : ∃ code, w'.log = w.log ++ hangUpCalls con code
  length : w'.sessions.length = w.sessions.length
  line : ∀ i, w'.line i = if i = id then none else w.line i

namespace Severed

theorem hangUp (L : Library σ) (id : SessionId) (con : Handle) (w : World (σ × List Call)) :
    Severed w (Session.hangUp L.recorded con (Session.clear id w).2).2 id con where
  log := log_hangUp L con _
  length := by
    rw [hangUp_sessions]
    exact List.length_modify ..
  line i := (line_hangUp _ i).trans (line_clear i)

/-- A holder leaves before. -/
theorem of_departed (h : Severed (departed id w) w' id con) : Severed w w' id con where
  log := h.log
  length := h.length.trans (List.length_modify ..)
  line i := (h.line i).trans (by rw [line_departed])

/-- A holder leaves after. -/
theorem departed (h : Severed w w' id con) : Severed w (departed id w') id con where
  log := h.log
  length := (List.length_modify ..).trans h.length
  line i := (line_departed i).trans (h.line i)

end Severed

/-- How a session stands that was cut off because that was asked, or because nobody holds
it: then no result is left in it, so all that were obtained are paid. -/
theorem Standing.cutOff (h : Standing w p H id con) (hl : w.line id = some con)
    (hcut : Severed w w' id con) (hgiven : p'.given = p.given)
    (hwhy : id ∈ p'.closed ∨ w'.holders id = 0 ∧ ∀ h, H.count (id, some h) = 0) :
    Standing w' p' H' id con := by
  obtain ⟨code, hlog⟩ := hcut.log
  have ended : w'.line id = none := (hcut.line id).trans (if_pos rfl)
  cases h with
  | closed line | lapsed line => exact absurd (hl.symm.trans line) (by simp)
  | running _ untouched owed =>
    have once : Ended con w'.log := by
      refine ⟨code, ?_⟩
      rw [hlog, endings_append, untouched, endings_hangUp]
      rfl
    rcases hwhy with asked | ⟨alone, paid⟩
    · exact .closed ended asked once
    · refine .lapsed ended alone once ⟨w.log, code, _, hlog, fun h => ?_⟩
      have before := owed h
      rw [paid, Nat.zero_add] at before
      rw [hlog, resultsOf_append, resultsOf_hangUp, List.append_nil, hgiven]
      exact before

namespace Register

/-- The connection of a session was ended, because that was asked or because nobody holds
the session any more. -/
theorem cutOff (hr : Register w p H) (hl : w.line id = some con) (hcut : Severed w w' id con)
    (hshares : ∀ i, sharesOf i H' = w'.holders i)
    (hheld : ∀ i, i ≠ id → (w.line i).isSome → 0 < w'.holders i)
    (halone : ∀ i, w.holders i = 0 → w'.holders i = 0)
    (hresults : ∀ i h, H'.count (i, some h) = H.count (i, some h))
    (hsub : p.closed ⊆ p'.closed) (hnew : ∀ i ∈ p'.closed, i ∈ p.closed ∨ i = id)
    (hgiven : p'.given = p.given) (hcalls : p'.calls = p.calls)
    (hwhy : id ∈ p'.closed ∨ w'.holders id = 0) : Register w' p' H' := by
  obtain ⟨code, hlog⟩ := hcut.log
  have born : id < w.sessions.length :=
    hr.born ▸ (List.getElem?_eq_some_iff.mp (hr.lines id con hl)).1
  refine hr.undialled _ hlog (dialled_hangUp con code) hcut.length ?_ hshares ?_ ?_ ?_ hcalls ?_
  · intro i
    rw [hcut.line]
    split
    · exact Or.inr rfl
    · exact Or.inl rfl
  · intro i hi
    rw [hcut.line] at hi
    split at hi
    · exact absurd hi (by simp)
    · next hne => exact hheld i hne hi
  · intro con' hcon
    have hne : con ≠ con' := fun heq => hcon (heq ▸ hr.line_dialled hl)
    exact ⟨endings_hangUp_of_ne code hne, resultsOf_hangUp con code con'⟩
  · intro i hi
    rcases hnew i hi with hi | rfl
    · obtain ⟨hlt, closed⟩ := hr.shut i hi
      refine ⟨hcut.length ▸ hlt, ?_⟩
      rw [hcut.line, closed]
      exact ite_self _
    · exact ⟨hcut.length ▸ born, (hcut.line i).trans (if_pos rfl)⟩
  · intro i con' hsole
    by_cases heq : i = id
    · subst heq
      obtain rfl := hr.line_sole hl hsole
      refine (hr.standing i con hsole).cutOff hl hcut hgiven (hwhy.imp_right fun alone => ?_)
      exact ⟨alone, fun h => hresults i h ▸ count_eq_zero ((hshares i).trans alone) _⟩
    · refine (hr.standing i con' hsole).after ⟨?_, halone i, ⟨_, hlog, ?_, ?_⟩, hsub, ?_, ?_⟩
      · rw [hcut.line, if_neg heq]
      · exact endings_hangUp_of_ne code (hr.line_ne hl heq hsole)
      · exact resultsOf_hangUp con code con'
      · exact fun h => hgiven ▸ Nat.le_refl _
      · intro h
        rw [hlog, released_append, released_hangUp, List.append_nil, hresults, hgiven]

/-- A session of which there is a stake is closed when that is asked. -/
theorem close (hr : Register w p H) (hpos : 0 < sharesOf id H) :
    Register (Session.close L.recorded id w).2 (p.close id) H := by
  have hsub : p.closed ⊆ (p.close id).closed := List.subset_append_left _ _
  have asked : id ∈ (p.close id).closed := by simp [Past.close]
  have hnew : ∀ i ∈ (p.close id).closed, i ∈ p.closed ∨ i = id := by simp [Past.close]
  cases hl : w.line id with
  | none =>
    rw [close_of_none _ hl]
    have born : id < w.sessions.length := World.lt_of_holders (hr.shares id ▸ hpos)
    refine hr.undialled [] (List.append_nil _).symm rfl rfl (fun _ => Or.inl rfl)
      hr.shares hr.held (fun _ _ => ⟨rfl, rfl⟩) ?_ rfl fun i con hs => ?_
    · intro i hi
      rcases hnew i hi with hi | rfl
      · exact hr.shut i hi
      · exact ⟨born, hl⟩
    · refine (hr.standing i con hs).after ⟨rfl, fun h => h, ⟨[], by simp, rfl, rfl⟩, hsub, ?_, ?_⟩
      · exact fun h => Nat.le_refl _
      · exact fun h => Nat.le_refl _
  | some con =>
    rw [close_of_some _ hl]
    have holders (i : SessionId) :
        (Session.hangUp L.recorded con (Session.clear id w).2).2.holders i = w.holders i :=
      (holders_hangUp _ i).trans (holders_clear i)
    exact hr.cutOff hl (.hangUp L id con w) (fun i => (hr.shares i).trans (holders i).symm)
      (fun i _ hi => (holders i).symm ▸ hr.held i hi) (fun i hi => (holders i).trans hi)
      (fun _ _ => rfl) hsub hnew rfl rfl (Or.inl asked)

/-- The last holder of a session has closed it and left, in whatever order. -/
theorem depart_cutOff (hr : Register w p ({(id, none)} + F)) (hl : w.line id = some con)
    (hcut : Severed w w' id con) (hholders : ∀ i, w'.holders i = (departed id w).holders i)
    (honly : sharesOf id F = 0) : Register w' p F := by
  have shares := hr.shares_departed
  refine hr.cutOff hl hcut (fun i => (shares i).trans (hholders i).symm) ?_ ?_
    (fun i h => (count_holder h).symm) (List.Subset.refl _) (fun i hi => Or.inl hi) rfl rfl
    (Or.inr ?_)
  · intro i hne hi
    rw [hholders, holders_departed hne]
    exact hr.held i hi
  · exact fun i hi => (hholders i).trans (departed_alone hi)
  · rw [hholders, ← shares, honly]

/-- A holder leaves. -/
theorem leave (hr : Register w p ({(id, none)} + F)) :
    Register (Session.leave L.recorded id w).2 p F := by
  have shares := hr.shares_departed
  by_cases hopen : (w.line id).isSome → 0 < sharesOf id F
  · rw [leave_of_held _ fun h => shares id ▸ hopen h]
    exact hr.depart hopen
  · obtain ⟨hsome, hnone⟩ := Classical.not_imp.mp hopen
    obtain ⟨con, hl⟩ := Option.isSome_iff_exists.mp hsome
    have honly : sharesOf id F = 0 := Nat.eq_zero_of_not_pos hnone
    rw [leave_of_last _ hl ((shares id).symm.trans honly)]
    exact hr.depart_cutOff hl (Severed.hangUp L id con (departed id w)).of_departed
      (fun i => (holders_hangUp _ i).trans (holders_clear i)) honly

/-- The only holder of a session closes it, and leaves. -/
theorem close_leave (hr : Register w p ({(id, none)} + F)) (honly : sharesOf id F = 0) :
    Register (Session.leave L.recorded id (Session.close L.recorded id w).2).2 p F := by
  cases hl : w.line id with
  | none =>
    rw [close_of_none _ hl]
    exact hr.leave
  | some con =>
    let closed := (Session.hangUp L.recorded con (Session.clear id w).2).2
    have cut : Severed w closed id con := .hangUp L id con w
    have shut : closed.line id = none := (cut.line id).trans (if_pos rfl)
    rw [close_of_some _ hl, leave_of_held (w := closed) _ fun h => by simp [shut] at h]
    refine hr.depart_cutOff hl cut.departed (fun i => ?_) honly
    have same : closed.holders i = w.holders i := (holders_hangUp _ i).trans (holders_clear i)
    by_cases hi : i = id
    · subst hi
      rw [holders_departed_self, holders_departed_self, same]
    · rw [holders_departed hi, holders_departed hi, same]

end Register

end Querent
