import Querent.Proofs.CommandLine.Exchange
import Querent.Proofs.Sharing.Connections
import Querent.Proofs.Workspace.Connecting

/-!
# The connection of the program

A program that connects has one session, of which it is the only holder between two
statements. Whatever a statement comes to, what is sent is the statement itself, and over
that connection, unless it has a NUL and cannot be passed; results and cursors send
nothing. In the end the connection is closed once, on every way through the program.
-/

namespace Querent

variable {σ α β : Type} {L : Library σ}

/-! ## What is sent -/

/-- The statement that was sent, with the connection that it went over. -/
def Call.sent? : Call → Option (Handle × String)
  | execute con statement _ => some (con, statement)
  | _ => none

theorem Call.Inquiry.sent_none {c : Call} (h : c.Inquiry) : c.sent? = none := by
  cases c with
  | execute => exact h.elim
  | _ => rfl

/-- The statements that were sent, in order. -/
def sent (log : List Call) : List (Handle × String) := log.filterMap Call.sent?

@[simp] theorem sent_append (log calls : List Call) :
    sent (log ++ calls) = sent log ++ sent calls :=
  List.filterMap_append

@[simp] theorem sent_hangUp (con : Handle) (code : Code) : sent (hangUpCalls con code) = [] := by
  unfold hangUpCalls
  split <;> rfl

/-- The statements over a connection, without those that cannot be passed. -/
def traffic (con : Handle) (statements : List String) : List (Handle × String) :=
  (statements.filter (Passable ·)).map (con, ·)

/-- These statements were sent, and no connection was made. -/
structure Sends (w w' : World (σ × List Call)) (statements : List (Handle × String)) : Prop where
  dialled : dialled w'.log = dialled w.log
  sent : sent w'.log = sent w.log ++ statements

theorem Sends.trans {w w' w'' : World (σ × List Call)} {s s' : List (Handle × String)}
    (h : Sends w w' s) (h' : Sends w' w'' s') : Sends w w'' (s ++ s') :=
  ⟨h'.dialled.trans h.dialled, by rw [h'.sent, h.sent, List.append_assoc]⟩

/-! ## Actions that send nothing -/

/-- No connection was made, and no statement sent. -/
def Mute (w w' : World (σ × List Call)) : Prop := Sends w w' []

namespace Mute

instance : IsPreorder (World (σ × List Call)) Mute where
  refl _ := ⟨rfl, (List.append_nil _).symm⟩
  trans _ _ _ h h' := Sends.trans h h'

theorem of_log {w w' : World (σ × List Call)} (calls : List Call) (h : w'.log = w.log ++ calls)
    (hd : dialled calls = []) (hs : sent calls = []) : Mute w w' :=
  ⟨by rw [h, dialled_append, hd, List.append_nil], by rw [h, sent_append, hs]⟩

theorem called {act : StateM (σ × List Call) α}
    (h : ∀ s, ∃ c : Call, (act s).2.2 = s.2 ++ [c] ∧ c.dialled? = none ∧ c.sent? = none) :
    Along Mute (call act) := by
  intro w
  obtain ⟨c, hlog, hd, hs⟩ := h w.lib
  exact of_log [c] hlog (by simp [dialled, hd]) (by simp [sent, hs])

theorem of_rfl {act : Action (σ × List Call) α}
    (h : ∀ w, (act w).2.log = w.log) : Along Mute act :=
  fun w => of_log [] ((h w).trans (List.append_nil _).symm) rfl rfl

theorem calm : Calm L.recorded Mute :=
  .of_inquiries fun f act hf => called fun s =>
    ⟨f (act s.1).1, rfl, (hf _).plain.1, (hf _).sent_none⟩

theorem requests (id : Option SessionId) : Requests L.recorded Mute id := by
  intro r _ what
  have talk : Along Mute (r.canTalk : Action (σ × List Call) Bool) := by
    unfold QueryResult.canTalk
    split <;> exact of_rfl fun _ => rfl
  refine talk.bind fun talks => ?_
  split
  · cases what with
    | opening | fetching =>
      exact Along.bind (called fun _ => ⟨_, rfl, rfl, rfl⟩) fun code =>
        r.along_classify calm code _
  · exact .pure _

theorem hangUp (con : Handle) : Along Mute (Session.hangUp L.recorded con) := by
  intro w
  obtain ⟨code, hlog⟩ := log_hangUp L con w
  exact of_log _ hlog (dialled_hangUp con code) (sent_hangUp con code)

theorem leave (id : SessionId) : Along Mute (Session.leave L.recorded id) := by
  refine (of_rfl fun _ => rfl : Along Mute (Session.update id _)).bind fun _ =>
    (of_rfl fun _ => rfl : Along Mute (Session.get id)).bind fun s => ?_
  split
  · exact (of_rfl fun _ => rfl : Along Mute (Session.clear id)).bind fun _ =>
      (hangUp _).bind fun _ => .pure _
  · exact .pure _

theorem close (id : SessionId) : Along Mute (Session.close L.recorded id) := by
  refine (of_rfl fun _ => rfl : Along Mute (Session.handle? id)).bind fun con => ?_
  cases con with
  | none => exact .pure _
  | some con => exact (of_rfl fun _ => rfl : Along Mute (Session.clear id)).bind fun _ => hangUp con

theorem drop (r : QueryResult) : Along Mute (r.drop L.recorded) := by
  refine (r.along_kind calm).bind fun (k, r) => (calm.release r.handle k).bind fun _ => ?_
  cases r.session with
  | none => exact .pure _
  | some id => exact leave id

theorem drop_cursor (c : Cursor) : Along Mute (c.drop L.recorded) :=
  (c.along_releaseBatch calm).bind fun c => drop c.result

theorem collect (c : Cursor) (fuel : Nat) : Along Mute (c.collect L.recorded fuel) :=
  Cursor.along_collect (φ := fun _ => True) (fun _ _ => Cursor.along_next calm (requests _))
    (fun _ _ => Gives.any) fuel trivial

end Mute

/-- What follows sends nothing. -/
theorem Sends.bind {act : Action (σ × List Call) α} {f : α → Action (σ × List Call) β}
    {w : World (σ × List Call)} {s : List (Handle × String)} (ha : Sends w (act w).2 s)
    (hf : ∀ a, Along Mute (f a)) : Sends w ((act >>= f) w).2 s :=
  List.append_nil s ▸ ha.trans (hf _ _)

/-! ## Statements -/

section Statements

variable {c : Connection} {con : Handle} {sql : String} {w : World (σ × List Call)}

/-- Over an open connection the statement is sent, if it can be passed. -/
theorem Connection.sends_execute (hopen : w.line c.session = some con) :
    Sends w (c.execute L.recorded sql w).2 (traffic con [sql]) := by
  unfold execute
  obtain ⟨hpass, run⟩ | ⟨hpass, e, run⟩ := passable?_of sql
  · have single : traffic con [sql] = [(con, sql)] := by simp [traffic, hpass]
    have asked : Sends w (call (L.recorded.client.execute con sql) w).2 [(con, sql)] :=
      ⟨(dialled_append ..).trans (List.append_nil _), sent_append ..⟩
    rw [run, single]
    dsimp only
    rw [bind_apply, handle?_eq, hopen]
    refine asked.bind fun answer => ?_
    cases answer with
    | error code =>
      exact (Mute.called fun _ => ⟨_, rfl, rfl, rfl⟩ : Along Mute (call _)).bind fun _ => .pure _
    | ok h => exact Mute.of_rfl fun _ => rfl
  · have nothing : traffic con [sql] = [] := by simp [traffic, hpass]
    rw [run, nothing]
    exact refl_of Mute w

end Statements

/-! ## A connection with one holder -/

/-- The past of a program that closes its connection at the end only. -/
def Past.none : Past := ⟨[], [], []⟩

/-- The only connection that was made is open, and nobody else holds its session. -/
structure Serving (con : Handle) (c : Connection) (w : World (σ × List Call)) : Prop where
  register : Register w .none c.stakes
  dialled : dialled w.log = [con]

/-- No connection was made and nothing ended, or one was made and ended once. -/
def Settled (log : List Call) : Prop :=
  (dialled log = [] ∧ ∀ con, endings con log = []) ∨ ∃ con, dialled log = [con] ∧ Ended con log

section Serving

variable {c : Connection} {con : Handle} {w : World (σ × List Call)}

theorem Register.settled (hr : Register w .none 0)
    (hd : dialled w.log = [] ∨ ∃ con, dialled w.log = [con]) : Settled w.log := by
  rcases hd with hd | ⟨con, hd⟩
  · exact Or.inl ⟨hd, fun con => (hr.strange con (by simp [hd])).1⟩
  · refine Or.inr ⟨con, hd, ?_⟩
    cases hr.standing 0 con (.only hd) with
    | running line =>
      have held := hr.held 0 (by rw [line]; rfl)
      rw [← hr.shares] at held
      exact absurd held (Nat.lt_irrefl 0)
    | closed _ asked => cases asked
    | lapsed _ _ ended => exact ended

namespace Serving

variable (h : Serving con c w)

include h

/-- The session is the first and only one, and open. -/
theorem line : w.line c.session = some con := by
  have holders : 0 < w.holders c.session := by
    rw [← h.register.shares, ← add_zero c.stakes]
    exact c.sharesOf_stakes
  have first : c.session = 0 := by
    have lt := World.lt_of_holders holders
    rw [← h.register.born, h.dialled] at lt
    exact Nat.lt_one_iff.mp lt
  rw [first] at holders ⊢
  cases h.register.standing 0 con (.only h.dialled) with
  | running line => exact line
  | closed _ asked => cases asked
  | lapsed _ alone => exact absurd alone (Nat.ne_of_gt holders)

theorem step {act : Action (σ × List Call) α} {s : List (Handle × String)}
    (he : Enters .none act c.stakes fun _ => c.stakes) (hs : Sends w (act w).2 s) :
    Serving con c (act w).2 := by
  have hr := he 0 w
  rw [add_zero] at hr
  exact ⟨hr h.register, hs.dialled.trans h.dialled⟩

/-- The connection is let go, and closed by that. -/
theorem dropped : Settled (c.drop L.recorded w).2.log := by
  have left : Register (c.drop L.recorded w).2 .none (0 + 0) :=
    c.enters_drop 0 w ((add_zero c.stakes).symm ▸ h.register)
  exact left.settled (Or.inr ⟨con, (Mute.leave c.session w).dialled.trans h.dialled⟩)

/-- The connection is closed, and let go. -/
theorem closed : Settled (c.drop L.recorded (c.close L.recorded w).2).2.log := by
  have hr := h.register
  rw [← add_zero c.stakes] at hr
  have left : Register (c.drop L.recorded (c.close L.recorded w).2).2 .none 0 :=
    hr.close_leave rfl
  have mute : Mute w (c.drop L.recorded (c.close L.recorded w).2).2 :=
    trans_of Mute (Mute.close c.session w) (Mute.leave c.session _)
  exact left.settled (Or.inr ⟨con, mute.dialled.trans h.dialled⟩)

end Serving

end Serving

/-! ## Connecting -/

namespace Connection

variable {c : Connection} {w : World (σ × List Call)}

end Connection

/-! ## The statements of a script -/

namespace CommandLine

variable {fuel : Nat} {clock : StateM σ Nat} {o : Options} {c : Connection} {con : Handle}
  {sql : String} {w w' : World (σ × List Call)} {p : Past} {r : QueryResult}

theorem along_refusal? {R : World (σ × List Call) → World (σ × List Call) → Prop}
    [IsPreorder (World (σ × List Call)) R] (hc : Calm L.recorded R) :
    Along R (refusal? L.recorded r) := by
  refine (hc.isOk r.handle).bind fun ok => ?_
  split
  · exact .pure _
  · refine (hc.code r.handle).bind fun code => ?_
    split
    · exact .pure _
    · exact (hc.code r.handle).bind fun _ => (r.along_details hc).bind fun _ => .pure _

theorem mute_printResult : Along Mute (printResult L.recorded fuel o r) := by
  have rows (r : QueryResult) : Along Mute (printRows L.recorded fuel o r) :=
    (Mute.collect _ fuel).bind fun (_, c) => (Mute.drop_cursor c).bind fun _ => .pure _
  refine (r.along_kind Mute.calm).bind fun (k, r) => ?_
  cases k with
  | status | nothing | unknown => exact (Mute.drop r).bind fun _ => .pure _
  | report =>
    exact (r.along_report Mute.calm).bind fun (_, r) => (Mute.drop r).bind fun _ => .pure _
  | row | cursor => exact rows r

/-- A statement is sent, and nothing else until it is done with. -/
theorem sends_send (hopen : w.line c.session = some con) :
    Sends w (send L.recorded fuel o c sql w).2 (traffic con [sql]) := by
  refine (Connection.sends_execute hopen).bind fun made => ?_
  cases made with
  | error e => exact .pure _
  | ok r =>
    refine (along_refusal? Mute.calm).bind fun f => ?_
    cases f with
    | some f => exact (Mute.drop r).bind fun _ => .pure _
    | none => exact mute_printResult

theorem enters_printResult :
    Enters p (printResult L.recorded fuel o r) r.stakes fun _ => 0 := by
  refine (Enters.quiet (r.along_kind Quiet.calm)).bind_gives (r.kind_gives _) fun (k, r') same => ?_
  rw [← QueryResult.stakes_same same]
  have dropped (r : QueryResult) (out : Outcome) :
      Enters p (r.drop L.recorded >>= fun _ => pure out) r.stakes fun _ => 0 :=
    r.enters_drop.bind fun _ => Enters.pure rfl
  cases k with
  | status | nothing | unknown => exact dropped r' _
  | report =>
    refine (Enters.quiet (r'.along_report Quiet.calm)).bind_gives (r'.report_gives _)
      fun (report, r'') same' => ?_
    rw [← QueryResult.stakes_same same']
    exact r''.enters_drop.bind fun _ => Enters.pure rfl
  | row | cursor =>
    exact (Cursor.enters_collect (.ofResult r') fuel).bind fun (_, c) =>
      c.enters_drop.bind fun _ => Enters.pure rfl

/-- A statement leaves the program with its connection. -/
theorem enters_send : Enters p (send L.recorded fuel o c sql) c.stakes fun _ => c.stakes := by
  refine (c.enters_execute sql).bind fun made => ?_
  cases made with
  | error e => exact Enters.pure (zero_add _).symm
  | ok r =>
    refine (Enters.quiet (along_refusal? Quiet.calm)).bind fun f => ?_
    cases f with
    | some f => exact (r.enters_drop.ending c.stakes).bind fun _ => Enters.pure rfl
    | none => exact enters_printResult.ending c.stakes

theorem Serving.send (h : Serving con c w) : Serving con c (send L.recorded fuel o c sql w).2 :=
  h.step enters_send (sends_send h.line)

/-- To look at the clock concerns no connection. -/
theorem Serving.call_clock (h : Serving con c w) :
    Serving con c (call (unrecorded clock) w).2 :=
  h.step (Enters.quiet (Quiet.unrecorded clock)) (s := [])
    ((Mute.of_rfl fun _ => rfl : Along Mute (call _)) w)

theorem Serving.timed (h : Serving con c w) (timing : Bool) :
    Serving con c (timed (unrecorded clock) timing w) := by
  cases timing with
  | false => exact h
  | true => exact Serving.call_clock h

/-- **The connection serves all statements**, whether the fuel lasts or not. -/
theorem Serving.handleAll (h : Serving con c w) (statements : List String) :
    Serving con c (handleAll L.recorded fuel (unrecorded clock) o c statements w).2 := by
  induction statements generalizing w with
  | nil => exact h
  | cons sql rest ih =>
    obtain ⟨-, timing, world⟩ := handle_send L.recorded fuel (unrecorded clock) o c sql w
    have handled : Serving con c (handle L.recorded fuel (unrecorded clock) o c sql w).2 :=
      world ▸ Serving.timed (Serving.send (Serving.call_clock h)) timing
    rw [CommandLine.handleAll, bind_apply]
    revert handled
    obtain ⟨⟨lines, _ | f | _⟩, w₁⟩ := handle L.recorded fuel (unrecorded clock) o c sql w
    · exact fun handled => handled
    · exact fun handled => handled
    · exact fun handled => ih handled

end CommandLine

end Querent
