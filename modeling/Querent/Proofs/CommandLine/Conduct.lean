import Querent.Proofs.CommandLine.Erasure
import Querent.Proofs.CommandLine.Session

/-!
# A run of the program

A script that cannot be split is not begun. Any other is sent over one connection,
statement by statement, up to the first that fails; what these statements delivered is
what is printed on standard output; and whatever happens, a connection that was made is
closed once before the program returns.
-/

namespace Querent.CommandLine

open Connection (uses)

variable {σ : Type} {L : Library σ} {fuel : Nat} {clock : StateM σ Nat} {o : Options}
  {config : Config} {statements : List String} {c : Connection}

/-- How a session ends: as its statements do, unless the connection cannot be closed. -/
def ending (closed : Except Error Unit) (result : Except Failure Unit) : Except Failure Unit :=
  match closed with
  | .ok () => result
  | .error e => .error (.error e)

variable (fuel clock o statements) in
/-- After connecting, the statements are handled, and the connection is closed and let go. -/
theorem session_handled {w : World σ} {lib : σ}
    (h : Connection.connect L config (.start lib) = (.ok c, w)) :
    let run := session L fuel clock o config statements (.start lib)
    let handled := handleAll L fuel clock o c statements w
    run.2 = (c.drop L (c.close L handled.2).2).2 ∧ run.1.lines = handled.1.lines ∧
      run.1.result = handled.1.result.map (ending (c.close L handled.2).1) := by
  intro run handled
  simp only [run, handled]
  rw [session, bind_apply, h]
  dsimp only
  rw [bind_apply, bind_apply]
  rcases c.close L (handleAll L fuel clock o c statements w).2 with ⟨e | _, w'⟩
  · exact ⟨rfl, rfl, rfl⟩
  · exact ⟨rfl, rfl, Option.map_id_apply.symm⟩

/-- What the program is to do is known if the configuration is, and the script splits. -/
theorem prepare_eq_ok_iff {env : Environment} {input : Option String} :
    prepare o env input = .ok (config, statements) ↔ o.config env = .ok config ∧
      ∃ script, o.script input = .ok script ∧ Script.statements script = .ok statements := by
  unfold prepare
  cases o.config env with
  | error e => simp [Except.mapError, bind, Except.bind]
  | ok config' =>
    cases o.script input with
    | error f => simp [Except.mapError, bind, Except.bind]
    | ok script =>
      cases hs : Script.statements script with
      | error e => simp [Except.mapError, bind, Except.bind, hs]
      | ok statements' => simp [Except.mapError, bind, Except.bind, hs, pure, Except.pure]

section Run

variable (fuel : Nat) (clock : StateM σ Nat) (o : Options) (load : String → Option (Library σ))
  (env : Environment) (input : Option String) (lib : σ)

theorem run_loaded (hp : prepare o env input = .ok (config, statements))
    (hl : load config.library = some L) : run fuel clock o load env input lib =
      ((session L fuel clock o config statements (.start lib)).1,
        (session L fuel clock o config statements (.start lib)).2.lib) := by
  rw [run, hp]
  dsimp only
  rw [hl]
  rfl

end Run

end Querent.CommandLine
