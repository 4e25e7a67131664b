import Querent.Proofs.CommandLine.Conduct
import Querent.Proofs.Statement.Splitting
import Querent.Server.Calls

/-!
# Queries

A query given as an argument is a script whose last semicolon the program adds. It is
conducted as the same text on standard input would be, with the semicolon on a line of its
own, unless the query ends inside a comment and a statement stands in front of that
comment. Then the semicolon belongs to the comment, and the statement stays open.
-/

namespace Querent

/-! ## A semicolon behind a text -/

namespace Script

open Text

/-- The text ends inside a comment, and the statement `s` in front of it has no semicolon. -/
def LeavesOpen (text s : String) : Prop :=
  EndsInComment text ∧ statements text = .error (.invalidArgument (.unterminatedStatement s))

variable {q r : String} {pieces : List (List Char)} {rest : List Char} {place : Place}

theorem scan_behind (h : scan .plain [] q.toList = (pieces, rest, place))
    (hr : r.toList.head? ≠ some '-') : scan .plain [] (q ++ r).toList =
      (pieces ++ (scan place rest.reverse r.toList).1, (scan place rest.reverse r.toList).2) := by
  rw [String.toList_append, scan_append _ _ _ _ fun _ _ => hr, h]

/-- A semicolon ends what is plain. -/
theorem statements_plain (h : scan .plain [] q.toList = (pieces, rest, .plain)) :
    statements (q ++ ";") = .ok (trimmed (pieces ++ [rest])) := by
  have scanned : scan .plain [] (q ++ ";").toList = (pieces ++ [rest], [], .plain) := by
    rw [scan_behind h (by decide)]
    simp [scan]
  rw [statements_of_scan scanned]
  rfl

/-- A semicolon on the next line ends a comment as well. -/
theorem statements_break (h : scan .plain [] q.toList = (pieces, rest, place))
    (hplace : place ≠ .quoted) : statements (q ++ "\n;") = .ok (trimmed (pieces ++ [rest])) := by
  have scanned : scan .plain [] (q ++ "\n;").toList = (pieces ++ [rest ++ ['\n']], [], .plain) := by
    rw [scan_behind h (by decide)]
    cases place with
    | plain | comment => simp [scan]
    | quoted => exact absurd rfl hplace
  have hbreak : trim (rest ++ ['\n']) = trim rest := trim_append_blank (by simp [isBlank])
  rw [statements_of_scan scanned, trimmed_append, trimmed_append]
  simp [trimmed, hbreak, show trim [] = [] from rfl]

/-- Between quotes it is a text like any other. -/
theorem statements_quoted (h : scan .plain [] q.toList = (pieces, rest, .quoted))
    (hr : r = ";" ∨ r = "\n;") :
    statements (q ++ r) = .error (.invalidArgument .unterminatedString) := by
  have scanned : scan .plain [] (q ++ r).toList = (pieces, rest ++ r.toList, .quoted) := by
    obtain rfl | rfl := hr
    · rw [scan_behind h (by decide)]
      simp [scan]
    · rw [scan_behind h (by decide)]
      simp [scan]
  rw [statements_of_scan scanned, if_pos rfl]

/-- In a comment it goes unseen. -/
theorem statements_comment (h : scan .plain [] q.toList = (pieces, rest, .comment)) :
    statements (q ++ ";") = statements q := by
  have scanned : scan .plain [] (q ++ ";").toList = (pieces, rest, .comment) := by
    rw [scan_behind h (by decide)]
    simp [scan]
  rw [statements_of_scan scanned, statements_of_scan h]

/-- **The semicolon ends the last statement, or it stays open.** -/
theorem statements_query (q : String) :
    (statements (q ++ ";") = statements (q ++ "\n;") ∧ ∀ s, ¬ LeavesOpen q s) ∨
      ∃ s xs, LeavesOpen q s ∧ statements (q ++ ";") = statements q ∧
        statements (q ++ "\n;") = .ok (xs ++ [s]) := by
  obtain ⟨⟨pieces, rest, place⟩, h⟩ : ∃ found, scan .plain [] q.toList = found := ⟨_, rfl⟩
  have inComment : EndsInComment q ↔ place = .comment := by rw [EndsInComment, h]
  cases place with
  | plain =>
    refine .inl ⟨?_, fun s hopen => by simpa using inComment.mp hopen.1⟩
    rw [statements_plain h, statements_break h (by decide)]
  | quoted =>
    refine .inl ⟨?_, fun s hopen => by simpa using inComment.mp hopen.1⟩
    rw [statements_quoted h (.inl rfl), statements_quoted h (.inr rfl)]
  | comment =>
    have alone := statements_of_scan h
    rw [if_neg (by decide)] at alone
    rw [statements_comment h, statements_break h (by decide), trimmed_append]
    split_ifs at alone with hblank
    · refine .inl ⟨?_, fun s hopen => ?_⟩
      · rw [alone]
        simp [trimmed, hblank]
      · rw [LeavesOpen, alone] at hopen
        simpa using hopen.2
    · refine .inr ⟨_, trimmed pieces, ⟨inComment.mpr rfl, alone⟩, rfl, ?_⟩
      simp [trimmed, hblank]

end Script

/-! ## A query and a script -/

namespace CommandLine

open Script (LeavesOpen)

variable {σ : Type}

/-- A session does not look at the query that it began with. -/
theorem session_query (L : Library σ) (fuel : Nat) (clock : StateM σ Nat) (o : Options)
    (config : Config) (statements : List String) (query : Option String) :
    session L fuel clock { o with query } config statements =
      session L fuel clock o config statements := by
  have handled (c : Connection) (statements : List String) :
      handleAll L fuel clock { o with query } c statements =
        handleAll L fuel clock o c statements := by
    induction statements with
    | nil => rfl
    | cons statement rest ih =>
      rw [handleAll, handleAll, ih]
      rfl
  unfold session
  simp only [handled]

/-- What is to be done decides what is done, wherever the script comes from. -/
theorem run_congr {fuel : Nat} {clock : StateM σ Nat} {o : Options} {query query' : Option String}
    {load : String → Option (Library σ)} {env : Environment} {input input' : Option String}
    (h : prepare { o with query } env input = prepare { o with query := query' } env input') :
    run fuel clock { o with query } load env input =
      run fuel clock { o with query := query' } load env input' := by
  unfold run
  rw [h]
  simp only [session_query]

theorem prepare_query (o : Options) (env : Environment) (query : String)
    (input : Option String) : prepare { o with query := some query } env input = do
      let config ← (o.config env).mapError .error
      return (config, ← (Script.statements (query ++ ";")).mapError .error) := rfl

/-- **A query is conducted as a script**: as the one that has the semicolon on a line of its
own, whatever the library does. The exception is a query that ends inside a comment and
leaves a statement open. As a script it has that statement for its last one; as a query it
is refused because of it, and nothing is asked of the library. -/
theorem query_conducted (fuel : Nat) (clock : StateM σ Nat) (o : Options)
    (load : String → Option (Library σ)) (env : Environment) (input : Option String) (lib : σ)
    (query : String) :
    let asQuery := run fuel clock { o with query := some query } load env input lib
    let asScript := run fuel clock { o with query := none } load env (some (query ++ "\n;")) lib
    ((∀ s, ¬ LeavesOpen query s) → asQuery = asScript) ∧
      ∀ s, LeavesOpen query s →
        (∃ xs, Script.statements (query ++ "\n;") = .ok (xs ++ [s])) ∧
          ∀ config, o.config env = .ok config → asQuery =
            (.failed (.error (.invalidArgument (.unterminatedStatement s))), lib) := by
  intro asQuery asScript
  obtain ⟨same, hclosed⟩ | ⟨s, xs, hopen, alone, script⟩ := Script.statements_query query
  · refine ⟨fun _ => congrFun (run_congr ?_) lib, fun s hopen => absurd hopen (hclosed s)⟩
    rw [prepare_query, same]
    rfl
  · refine ⟨fun hclosed => absurd hopen (hclosed s), fun s' hopen' => ?_⟩
    obtain rfl : s = s' := by simpa using hopen.2.symm.trans hopen'.2
    refine ⟨⟨xs, script⟩, fun config hconfig => ?_⟩
    have refused : prepare { o with query := some query } env input =
        .error (.error (.invalidArgument (.unterminatedStatement s))) := by
      rw [prepare_query, hconfig, alone, hopen.2]
      rfl
    simp only [asQuery]
    rw [run, refused]
    rfl

/-- A comment at the end of a query, behind a statement and behind a semicolon. -/
theorem query_conducted_commented :
    let o : Options := { quiet := true }
    let load := fun _ : String => some Server.library
    let lib := Server.State.scripted [("a", .row [.bool true])] none 8192
    run 9 (pure 0) { o with query := some "a; -- all" } load (fun _ => none) none lib =
        run 9 (pure 0) o load (fun _ => none) (some "a; -- all\n;") lib ∧
      run 9 (pure 0) { o with query := some "a -- all" } load (fun _ => none) none lib =
        (.failed (.error (.invalidArgument (.unterminatedStatement "a"))), lib) := by
  intro o load lib
  constructor
  · refine (query_conducted 9 (pure 0) o load (fun _ => none) none lib "a; -- all").1 ?_
    rintro s ⟨-, h⟩
    have : Script.statements "a; -- all" = .ok ["a"] := by cbv
    rw [this] at h
    cases h
  · refine ((query_conducted 9 (pure 0) o load (fun _ => none) none lib "a -- all").2 "a"
      ⟨by decide +kernel, by cbv⟩).2 {} rfl

/-- The query leaves a statement open, which the script executes. -/
theorem commented_query_refused :
    let load := fun _ : String => some Server.library
    let lib := Server.State.scripted [("a", .row [.bool true])] none 8192
    let asQuery := run 9 (pure 0) { query := some "a -- all" } load (fun _ => none) none lib
    let asScript := run 9 (pure 0) {} load (fun _ => none) (some "a -- all\n;") lib
    (asQuery.1.result =
        some (.error (.error (.invalidArgument (.unterminatedStatement "a")))) ∧
      asQuery.2.executed = []) ∧
      asScript.1.result = some (.ok ()) ∧ asScript.2.executed = ["a"] := by
  decide +kernel

end CommandLine

end Querent
