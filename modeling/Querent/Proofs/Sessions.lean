import Querent.Proofs.Action

/-!
# Sessions of a world

What a world says of a session: its connection, and how many hold it. Each change of a
session tells what becomes of these two, for the session and for the others; and a
close or the leaving of a holder tells when a connection is hung up.
-/

namespace Querent

variable {σ : Type}

/-- The connection of a session, if it is open. -/
def World.line (w : World σ) (id : SessionId) : Option Handle :=
  w.sessions[id]?.bind (·.handle)

/-- The number of holders of a session. -/
def World.holders (w : World σ) (id : SessionId) : Nat :=
  (w.sessions[id]?.map (·.holders)).getD 0

/-- The session was opened, and is closed. -/
def World.Shut (w : World σ) (id : SessionId) : Prop :=
  id < w.sessions.length ∧ w.line id = none

theorem World.Shut.of_sessions {τ : Type} {w : World σ} {w' : World τ} {id : SessionId}
    (h : w.Shut id) (hs : w'.sessions = w.sessions) : w'.Shut id := by
  unfold Shut line at h ⊢
  rw [hs]
  exact h

variable {w : World σ} {id : SessionId} {con : Handle}

/-- A session that has a holder was opened. -/
theorem World.lt_of_holders (h : 0 < w.holders id) : id < w.sessions.length := by
  refine Nat.lt_of_not_le fun hge => ?_
  rw [holders, List.getElem?_eq_none hge] at h
  exact Nat.lt_irrefl 0 h

/-! ## Changes of sessions -/

theorem line_update (f : Session → Session) (i : SessionId) :
    (Session.update id f w).2.line i =
      if i = id then (w.sessions[id]?.map f).bind (·.handle) else w.line i := by
  simp only [Session.update, World.line, List.getElem?_modify]
  by_cases hi : i = id
  · subst hi
    simp
  · rw [if_neg hi]
    simp [Ne.symm hi]

theorem holders_update (f : Session → Session) (i : SessionId) :
    (Session.update id f w).2.holders i =
      if i = id then ((w.sessions[id]?.map f).map (·.holders)).getD 0 else w.holders i := by
  simp only [Session.update, World.holders, List.getElem?_modify]
  by_cases hi : i = id
  · subst hi
    simp
  · rw [if_neg hi]
    simp [Ne.symm hi]

theorem handle?_eq : Session.handle? id w = (w.line id, w) := rfl

theorem line_clear (i : SessionId) :
    (Session.clear id w).2.line i = if i = id then none else w.line i := by
  rw [Session.clear, line_update]
  split
  · cases w.sessions[id]? <;> rfl
  · rfl

theorem line_join (i : SessionId) : (Session.join id w).2.line i = w.line i := by
  rw [Session.join, line_update]
  split
  · next hi =>
    rw [hi, World.line]
    cases w.sessions[id]? <;> rfl
  · rfl

/-- A session that has a holder has one more. -/
theorem holders_join (h : 0 < w.holders id) (i : SessionId) :
    (Session.join id w).2.holders i = if i = id then w.holders i + 1 else w.holders i := by
  rw [Session.join, holders_update]
  split
  · next hi =>
    rw [hi]
    unfold World.holders at h ⊢
    cases hs : w.sessions[id]? with
    | none => simp [hs] at h
    | some s => rfl
  · rfl

theorem holders_clear (i : SessionId) : (Session.clear id w).2.holders i = w.holders i := by
  rw [Session.clear, holders_update]
  split
  · next hi => simp [hi, World.holders, Function.comp_def]
  · rfl

/-- A change of a session that leaves its connection as it is. -/
theorem shut_update {f : Session → Session} (hline : (Session.update id f w).2.line id = w.line id)
    (i : SessionId) (h : w.Shut i) : (Session.update id f w).2.Shut i := by
  refine ⟨?_, ?_⟩
  · rw [Session.update, List.length_modify]
    exact h.1
  · by_cases hi : i = id
    · rw [hi, hline, ← hi]
      exact h.2
    · rw [line_update, if_neg hi]
      exact h.2

/-- The world with one holder less of a session. -/
def departed (id : SessionId) (w : World σ) : World σ :=
  (Session.update id (fun s => { s with holders := s.holders - 1 }) w).2

theorem line_departed (i : SessionId) : (departed id w).line i = w.line i := by
  rw [departed, line_update]
  split
  · next hi =>
    rw [hi, World.line]
    cases w.sessions[id]? <;> rfl
  · rfl

/-- A holder that comes and goes. -/
theorem departed_join : (departed id (Session.join id w).2).sessions = w.sessions := by
  show (w.sessions.modify id _).modify id _ = w.sessions
  rw [List.modify_modify_eq]
  exact List.modify_id ..

theorem holders_departed {i : SessionId} (hi : i ≠ id) :
    (departed id w).holders i = w.holders i := by
  rw [departed, holders_update, if_neg hi]

theorem holders_departed_self : (departed id w).holders id = w.holders id - 1 := by
  rw [departed, holders_update, if_pos rfl, World.holders]
  cases w.sessions[id]? <;> rfl

/-- A session that nobody holds is held by nobody when a holder of some session is gone. -/
theorem departed_alone {i : SessionId} (h : w.holders i = 0) :
    (departed id w).holders i = 0 := by
  by_cases hi : i = id
  · rw [hi, holders_departed_self, ← hi, h]
  · rw [holders_departed hi, h]

/-! ## A new session -/

theorem getElem?_concat {α : Type} (l : List α) (a : α) (i : Nat) :
    (l ++ [a])[i]? = if i = l.length then some a else l[i]? := by
  rw [List.getElem?_append]
  split
  · next hi => rw [if_neg (Nat.ne_of_lt hi)]
  · next hi =>
    split
    · next heq => simp [heq]
    · next hne =>
      have past : 1 ≤ i - l.length := by omega
      rw [List.getElem?_eq_none (by simpa using past), List.getElem?_eq_none (by omega)]

theorem line_started (lib : σ) (s : Session) (i : SessionId) :
    World.line ⟨lib, w.sessions ++ [s]⟩ i =
      if i = w.sessions.length then s.handle else w.line i := by
  rw [World.line, getElem?_concat]
  split <;> rfl

theorem holders_started (lib : σ) (s : Session) (i : SessionId) :
    World.holders ⟨lib, w.sessions ++ [s]⟩ i =
      if i = w.sessions.length then s.holders else w.holders i := by
  rw [World.holders, getElem?_concat]
  split <;> rfl

/-! ## Closing and leaving -/

section Closing

variable (L : Library σ)

theorem hangUp_sessions : (Session.hangUp L con w).2.sessions = w.sessions := by
  rw [Session.hangUp, bind_apply]
  split <;> rfl

theorem line_hangUp (i : SessionId) : (Session.hangUp L con w).2.line i = w.line i := by
  rw [World.line, World.line, hangUp_sessions]

theorem holders_hangUp (i : SessionId) :
    (Session.hangUp L con w).2.holders i = w.holders i := by
  rw [World.holders, World.holders, hangUp_sessions]

theorem close_of_none (hl : w.line id = none) : Session.close L id w = (.ok (), w) := by
  rw [Session.close, bind_apply, handle?_eq, hl]
  rfl

theorem close_of_some (hl : w.line id = some con) :
    Session.close L id w = Session.hangUp L con (Session.clear id w).2 := by
  rw [Session.close, bind_apply, handle?_eq, hl]
  rfl

/-- What is left to do for a holder that has gone, by what it finds. -/
theorem leave_eq : Session.leave L id w = (match (departed id w).sessions[id]? with
    | some ⟨some con, _, 0⟩ => do
      Session.clear id
      let _ ← Session.hangUp L con
    | _ => pure ()) (departed id w) := rfl

/-- A holder leaves a session that is closed already, or has another one. -/
theorem leave_of_held (h : (w.line id).isSome → 0 < (departed id w).holders id) :
    Session.leave L id w = ((), departed id w) := by
  have same : (departed id w).line id = w.line id := line_departed id
  rw [leave_eq]
  rw [← same, World.line, World.holders] at h
  cases hs : (departed id w).sessions[id]? with
  | none => rfl
  | some s =>
    obtain ⟨_ | con, peer, _ | holders⟩ := s
    · rfl
    · rfl
    · rw [hs] at h
      exact absurd (h rfl) (Nat.lt_irrefl 0)
    · rfl

/-- The last holder finds the session open, and closes it. -/
theorem leave_of_last (hl : w.line id = some con) (hlast : (departed id w).holders id = 0) :
    (Session.leave L id w).2 =
      (Session.hangUp L con (Session.clear id (departed id w)).2).2 := by
  have same : (departed id w).line id = w.line id := line_departed id
  rw [leave_eq]
  rw [← same, World.line] at hl
  rw [World.holders] at hlast
  cases hs : (departed id w).sessions[id]? with
  | none => simp [hs] at hl
  | some s =>
    obtain ⟨handle, peer, holders⟩ := s
    rw [hs] at hl hlast
    obtain rfl : handle = some con := hl
    obtain rfl : holders = 0 := hlast
    rfl

end Closing

end Querent
