import Querent.Playback.Tables
import Querent.Proofs.CommandLine.Conduct

/-!
# The failure that the program reports

After connecting, two things can fail: a statement, which is then the last one that is
handled, and the closing of the connection. To report the first failure would be to report
that of the statement, and that of closing only if there is none (`firstFailure`). The
program closes the connection in any case, and what it reports is a failure to do so, if
there is one, whatever the statements came to (`ending`).
-/

namespace Querent

variable {σ : Type} {L : Library σ}

/-- If closing fails, the library was asked to close the connection and returned the code
that the error has. -/
theorem Connection.close_failed {c : Connection} {e : Error} {w : World σ}
    (h : (c.close L w).1 = .error e) :
    ∃ con text, w.line c.session = some con ∧ (L.client.close con w.lib).1 ≠ Code.Client.ok ∧
      e = .client (L.client.close con w.lib).1 text := by
  unfold close at h
  cases hline : w.line c.session with
  | none =>
    rw [close_of_none L hline] at h
    cases h
  | some con =>
    rw [close_of_some L hline, Session.hangUp, bind_apply] at h
    split at h
    · cases h
    · next hcode => exact ⟨con, _, rfl, hcode, (Except.error.inj h).symm⟩

namespace CommandLine

variable {fuel : Nat} {clock : StateM σ Nat} {o : Options} {c : Connection} {w : World σ}
  {statements : List String} {failure : Option Failure} {closed : Except Error Unit}

/-- What the statements come to, if this is how one of them failed. -/
def outcomeOf (failure : Option Failure) : Except Failure Unit := failure.elim (.ok ()) .error

/-- The first failure: that of a statement, or else that of closing the connection. -/
def firstFailure (failure : Option Failure) (closed : Except Error Unit) : Except Failure Unit :=
  match failure with
  | some f => .error f
  | none => closed.mapError .error

/-- The program reports the first failure unless both fail, each in its own way. -/
theorem ending_eq_firstFailure_iff :
    ending closed (outcomeOf failure) = firstFailure failure closed ↔
      failure = none ∨ closed = .ok () ∨ ∃ e, closed = .error e ∧ failure = some (.error e) := by
  cases closed with
  | ok => cases failure <;> simp [ending, outcomeOf, firstFailure, Except.mapError]
  | error e =>
    cases failure with
    | none => simp [ending, firstFailure, Except.mapError]
    | some f => simp [ending, firstFailure, eq_comm]

/-- The statements come to something exactly if there is a transcript of them. -/
theorem handleAll_ends_iff : (handleAll L fuel clock o c statements w).1.result ≠ none ↔
    ∃ xs w', Transcript L fuel clock o.timing c w statements xs w' := by
  refine ⟨transcript_of_handleAll, ?_⟩
  rintro ⟨xs, w', transcript⟩
  rw [transcript.handleAll.2.2]
  simp

/-- A library that refuses the statement `bad`, and whose connections cannot be closed. -/
def unclosable : Playback.State where
  script := {
    side := .client
    outcomes := [("good", ⟨0, some ⟨.empty .client 33, []⟩⟩),
      ("bad", ⟨0, some ⟨{ Playback.Content.empty .client 33 with
        status := 60, errorCode := 60
        details := some (Text.Utf8.encode "near bad".toList) }, []⟩⟩)]
    connectCode := 0
    closeCode := 6
    explanations := []
    failing := []
    capacity := 0
    addCode := 0
    closeRowCode := 0 }

/-- **A failure to close the connection counts more than that of a statement.** Over every
library, a program that connects returns if its fuel lasts for the rows of each statement.
If closing the connection succeeds then, it reports the failure of the first statement that
failed; if closing fails, it reports that, with the code that the library returned. So it
reports the first failure in all cases but one: that a statement fails, and closing the
connection does so as well, in another way. -/
theorem failure_reported (fuel : Nat) (clock : StateM σ Nat) (o : Options)
    (load : String → Option (Library σ)) (env : Environment) (input : Option String) (lib : σ)
    (config : Config) (script : String) (statements : List String) (L : Library σ)
    (c : Connection) (w : World σ) (hconfig : o.config env = .ok config)
    (hscript : o.script input = .ok script) (hs : Script.statements script = .ok statements)
    (hl : load config.library = some L)
    (hconnect : Connection.connect L config (.start lib) = (.ok c, w)) :
    let ran := run fuel clock o load env input lib
    (ran.1.result ≠ none ↔ ∃ xs w', Transcript L fuel clock o.timing c w statements xs w') ∧
      ∀ xs w', Transcript L fuel clock o.timing c w statements xs w' →
        let failure := xs.findSome? Exchange.failure
        let closed := (c.close L w').1
        ran.1.result = some (ending closed (outcomeOf failure)) ∧
          (∀ e, closed = .error e → ∃ con text, w'.line c.session = some con ∧
            (L.client.close con w'.lib).1 ≠ Code.Client.ok ∧
              e = .client (L.client.close con w'.lib).1 text) ∧
          (ran.1.result = some (firstFailure failure closed) ↔ failure = none ∨
            closed = .ok () ∨ ∃ e, closed = .error e ∧ failure = some (.error e)) := by
  intro ran
  have result : ran.1.result = (handleAll L fuel clock o c statements w).1.result.map
      (ending (c.close L (handleAll L fuel clock o c statements w).2).1) := by
    have hp := prepare_eq_ok_iff.mpr ⟨hconfig, script, hscript, hs⟩
    simp only [ran]
    rw [run_loaded fuel clock o load env input lib hp hl]
    exact (session_handled fuel clock o statements hconnect).2.2
  constructor
  · rw [← handleAll_ends_iff, result, Ne, Option.map_eq_none_iff]
  · intro xs w' transcript failure closed
    obtain ⟨left, -, ended⟩ := transcript.handleAll
    rw [left, ended] at result
    refine ⟨result, fun e => Connection.close_failed, ?_⟩
    rw [result, Option.map_some, Option.some_inj]
    exact ending_eq_firstFailure_iff

/-- The second of three statements is refused, and closing fails. -/
theorem failure_reported_of_close :
    let L := (Playback.clientTable .full).library
    let o : Options := { query := some "good; bad; good" }
    let ran := run 1 (pure 0) o (fun _ => some L) (fun _ => none) none unclosable
    let made := Connection.connect L {} (.start unclosable)
    (∃ xs w', Transcript L 1 (pure 0) false ⟨0⟩ made.2 ["good", "bad", "good"] xs w' ∧
      ran.1.result = some (ending (Connection.close L ⟨0⟩ w').1
        (outcomeOf (xs.findSome? Exchange.failure)))) ∧
      ran.1.result = some (.error (.error (.client 6 "client error 6"))) := by
  intro L o ran made
  have reported : ran.1.result = some (.error (.error (.client 6 "client error 6"))) := by
    decide +kernel
  have connected : made = (.ok ⟨0⟩, made.2) :=
    Prod.ext (by decide +kernel : made.1 = .ok ⟨0⟩) rfl
  obtain ⟨ends, fails⟩ := failure_reported 1 (pure 0) o (fun _ => some L) (fun _ => none) none
    unclosable {} "good; bad; good;" ["good", "bad", "good"] L ⟨0⟩ made.2 rfl rfl
    (by decide +kernel) rfl connected
  obtain ⟨xs, w', transcript⟩ := ends.mp (by rw [reported]; simp)
  exact ⟨⟨xs, w', transcript, (fails xs w' transcript).1⟩, reported⟩

/-- The statement is refused with a code and details, and the program does not tell. -/
theorem refusal_masked :
    let L := (Playback.clientTable .full).library
    let o : Options := { query := some "bad" }
    let made := Connection.connect L {} (.start unclosable)
    (handleAll L 1 (pure 0) o ⟨0⟩ ["bad"] made.2).1.result =
        some (.error (.refused 60 "near bad")) ∧
      (run 1 (pure 0) o (fun _ => some L) (fun _ => none) none unclosable).1.result =
        some (.error (.error (.client 6 "client error 6"))) := by
  decide +kernel

end CommandLine

end Querent
