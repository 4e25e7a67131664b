import Querent.Proofs.Server.Serving
import Querent.Proofs.Workspace.Isolation

/-!
# Fetching from a cursor of the DB-API

A program may fetch the rows of a statement in any calls it likes, and do anything
else in between. The calls divide one iteration among themselves: together they return
its rows in order, one of them meets its error, and after its end they return nothing.
A call that asks for more rows than there can be room for panics and takes nothing.
-/

namespace Querent.Workspace

open Server (Accounts Course Executor Remainder Reply State ownsAll installation library)
open DbApi (Failure ShapedRow)
open DbApi.Cursor (GoesOn Serves maxCount maxReserved)

/-! ## Calls -/

/-- A call that fetches rows: how many it asks for, or all, and what comes of it. -/
structure Fetch where
  wanted : Option Nat
  outcome : Option (Except Failure (List Row))

namespace Fetch

/-- The rows that a call returns. -/
def rows (f : Fetch) : List Row :=
  match f.outcome with
  | some (.ok rows) => rows
  | _ => []

/-- The call returns as many rows as it asks for. -/
def Full (f : Fetch) : Prop := ∃ rows, f.outcome = some (.ok rows) ∧ f.wanted = some rows.length

/-- The call asks for more rows than there can be room for. -/
def Oversized (f : Fetch) : Prop := ∃ n, f.wanted = some n ∧ maxReserved < n

/-- The call returns fewer rows than it asks for, or it fails, but not for its size. -/
def Short (f : Fetch) : Prop := ¬f.Full ∧ ¬f.Oversized

/-- A call is answered from these rows and, if they do not suffice, this error, while so many
rows can be counted. -/
structure TakesFrom (f : Fetch) (left : List Row) (error : Option Error) (room : Nat) : Prop where
  full : ∀ n, f.wanted = some n → n ≤ left.length → n ≤ room → f.outcome = some (.ok (left.take n))
  last : (∀ n, f.wanted = some n → left.length < n) → left.length ≤ room →
    f.outcome = some (error.elim (.ok left) fun e => .error (.error (.failure e)))
  uncounted : (∀ n, f.wanted = some n → room < n) → room < left.length →
    f.outcome = some (.error (.panic .overflow))

end Fetch

/-- What a call returns of a course. -/
def served (wanted : Option Nat) (r : Remainder) : Fetch := ⟨wanted, some (r.serve? wanted).1⟩

/-- What calls for so many rows return of a course, one after the other. -/
def calls : List (Option Nat) → Remainder → List Fetch
  | [], _ => []
  | wanted :: rest, r => served wanted r :: calls rest (r.serve? wanted).2

section Calls

variable {r : Remainder} {wanted : Option Nat} {ns : List (Option Nat)} {pre post : List Fetch}
  {f : Fetch}

theorem served_takesFrom (wanted : Option Nat) (r : Remainder)
    (sized : ¬(served wanted r).Oversized) :
    (served wanted r).TakesFrom r.course.rows r.course.error r.room := by
  unfold served at *
  rcases h : r.serve? wanted with ⟨answer, left⟩
  have ends := h ▸ Remainder.serve?_served wanted r
  cases ends with
  | @taken n hn _ hle hroom =>
    refine ⟨?_, fun hlt => ?_, fun hlt => ?_⟩
    · rintro m hm - -
      rw [Option.some.inj (hm.symm.trans hn)]
    · exact absurd hle (Nat.not_le_of_lt (hlt n hn))
    · exact absurd hroom (Nat.not_le_of_lt (hlt n hn))
  | through hlt hroom =>
    refine ⟨fun n hn hle => ?_, fun _ _ => rfl, fun _ hover => ?_⟩
    · exact absurd hle (Nat.not_le_of_lt (hlt n hn).2)
    · exact absurd hroom (Nat.not_le_of_lt hover)
  | uncounted hlt hover =>
    refine ⟨fun n hn _ hle => ?_, fun _ hroom => ?_, fun _ _ => rfl⟩
    · exact absurd hle (Nat.not_le_of_lt (hlt n hn).2)
    · exact absurd hroom (Nat.not_le_of_lt hover)
  | oversized hn hlarge => exact absurd ⟨_, hn, hlarge⟩ sized

theorem served_oversized (h : (served wanted r).Oversized) :
    (served wanted r).outcome = some (.error (.panic .capacity)) := by
  obtain ⟨n, hn, hlarge⟩ := h
  obtain rfl : wanted = some n := hn
  have oversized : r.serve? (some n) = (.error (.panic .capacity), r) :=
    if_neg (Nat.not_le_of_lt hlarge)
  rw [served, oversized]

/-- A full call leaves the rows after its own, an oversized one leaves all, and a short one
leaves no rows to be had. -/
theorem served_cases (wanted : Option Nat) (r : Remainder) :
    ((served wanted r).Full ∧ ∃ n, n ≤ r.course.rows.length ∧
      (served wanted r).rows = r.course.rows.take n ∧ (r.serve? wanted).2 = r.past n) ∨
    ((served wanted r).Oversized ∧ (served wanted r).rows = [] ∧ (r.serve? wanted).2 = r) ∨
    ((served wanted r).Short ∧ (served wanted r).rows <+: r.course.rows ∧
      (r.serve? wanted).2.Spent ∧
      (r.course.rows.length ≤ r.room → (r.serve? wanted).2 = r.ended)) := by
  unfold served
  rcases h : r.serve? wanted with ⟨answer, left⟩
  have ends := h ▸ Remainder.serve?_served wanted r
  cases ends with
  | @taken n hn _ hle hroom =>
    refine Or.inl ⟨⟨_, rfl, ?_⟩, n, hle, rfl, rfl⟩
    rw [List.length_take, Nat.min_eq_left hle]
    exact hn
  | oversized hn hlarge => exact Or.inr (Or.inl ⟨⟨_, hn, hlarge⟩, rfl, rfl⟩)
  | through hlt hroom =>
    refine Or.inr (Or.inr ⟨⟨?_, ?_⟩, ?_, Or.inl rfl, fun _ => rfl⟩)
    · rintro ⟨rows, houtcome, hwanted⟩
      cases herror : r.course.error with
      | some e =>
        rw [herror] at houtcome
        cases houtcome
      | none =>
        -- all rows were returned, and they are fewer than were asked for
        rw [herror] at houtcome
        obtain rfl : r.course.rows = rows := Except.ok.inj (Option.some.inj houtcome)
        exact absurd (hlt _ hwanted).2 (Nat.lt_irrefl _)
    · rintro ⟨n, hn, hlarge⟩
      exact absurd (hlt n hn).1 (Nat.not_le_of_lt hlarge)
    · cases r.course.error with
      | some e => exact List.nil_prefix
      | none => exact List.prefix_refl r.course.rows
  | uncounted hlt hover =>
    refine Or.inr (Or.inr ⟨⟨?_, ?_⟩, List.nil_prefix, Or.inr ?_, fun hroom => ?_⟩)
    · rintro ⟨rows, houtcome, -⟩
      cases houtcome
    · rintro ⟨n, hn, hlarge⟩
      exact absurd (hlt n hn).1 (Nat.not_le_of_lt hlarge)
    · exact Nat.sub_eq_zero_of_le (Nat.le_succ _)
    · exact absurd hroom (Nat.not_le_of_lt hover)

theorem calls_oversized (h : f ∈ calls ns r) (hf : f.Oversized) :
    f.outcome = some (.error (.panic .capacity)) := by
  induction ns generalizing r with
  | nil => cases h
  | cons n ns ih =>
    rcases List.mem_cons.mp h with rfl | h
    · exact served_oversized hf
    · exact ih h

theorem served_spent (wanted : Option Nat) (spent : r.Spent) :
    (served wanted r).rows = [] ∧ (r.serve? wanted).2.Spent := by
  unfold served
  rcases h : r.serve? wanted with ⟨answer, left⟩
  have ends := h ▸ Remainder.serve?_served wanted r
  cases ends with
  | @taken n _ _ _ hroom =>
    rcases spent with hnone | hfull
    · exact ⟨(congrArg (List.take n) hnone).trans List.take_nil,
        Or.inl ((congrArg (List.drop n) hnone).trans List.drop_nil)⟩
    · obtain rfl : n = 0 := by omega
      exact ⟨rfl, Or.inr hfull⟩
  | through _ hroom =>
    have hnone : r.course.rows = [] := spent.elim id fun hfull =>
      List.length_eq_zero_iff.mp (by omega)
    refine ⟨?_, Or.inl rfl⟩
    cases r.course.error with
    | some e => rfl
    | none => exact hnone
  | uncounted => exact ⟨rfl, Or.inr (Nat.sub_eq_zero_of_le (Nat.le_succ _))⟩
  | oversized => exact ⟨rfl, spent⟩

/-- Where there are no rows to be had, no call returns one. -/
theorem calls_spent (spent : r.Spent) (h : f ∈ calls ns r) : f.rows = [] := by
  induction ns generalizing r with
  | nil => cases h
  | cons n ns ih =>
    obtain ⟨rows, left⟩ := served_spent n spent
    rcases List.mem_cons.mp h with rfl | h
    · exact rows
    · exact ih left h

/-- At the end of a course all calls return nothing. -/
theorem calls_end {k room : Nat} (h : f ∈ calls ns ⟨⟨[], none, k⟩, room⟩) (sized : ¬f.Oversized) :
    f.outcome = some (.ok []) := by
  induction ns with
  | nil => cases h
  | cons n ns ih =>
    have left : (Remainder.serve? n ⟨⟨[], none, k⟩, room⟩).2 = ⟨⟨[], none, k⟩, room⟩ := by
      unfold Remainder.serve?
      split
      · rw [Remainder.serve_end]
      · split
        · rw [Remainder.serve_end]
        · rfl
    rw [calls, left] at h
    rcases List.mem_cons.mp h with rfl | h
    · have takes := served_takesFrom n ⟨⟨[], none, k⟩, room⟩ sized
      rcases n with _ | (_ | n)
      · exact takes.last nofun (Nat.zero_le _)
      · exact takes.full 0 rfl (Nat.zero_le _) (Nat.zero_le _)
      · refine takes.last ?_ (Nat.zero_le _)
        rintro _ ⟨⟩
        exact Nat.succ_pos n
    · exact ih h

/-- **Full calls** have taken the first rows, and the next call takes from the others. Those
that ask for too much change nothing. -/
theorem calls_full (h : calls ns r = pre ++ f :: post)
    (hfull : ∀ g ∈ pre, g.Full ∨ g.Oversized) (sized : ¬f.Oversized) :
    f.TakesFrom (r.course.rows.drop (pre.flatMap Fetch.rows).length) r.course.error
      (r.room - (pre.flatMap Fetch.rows).length) := by
  induction pre generalizing ns r with
  | nil =>
    cases ns with
    | nil => cases h
    | cons n ns =>
      obtain ⟨rfl, -⟩ := List.cons.inj h
      exact served_takesFrom n r sized
  | cons g pre ih =>
    cases ns with
    | nil => cases h
    | cons n ns =>
      obtain ⟨rfl, htail⟩ := List.cons.inj h
      have takes := ih htail fun g hg => hfull g (List.mem_cons_of_mem _ hg)
      rw [List.flatMap_cons]
      rcases served_cases n r with ⟨-, m, hle, rows, left⟩ | ⟨-, rows, left⟩ | ⟨⟨hnot, hsized⟩, -⟩
      · rw [left] at takes
        rw [rows, List.length_append, List.length_take, Nat.min_eq_left hle, ← List.drop_drop,
          ← Nat.sub_sub]
        exact takes
      · rw [left] at takes
        rw [rows, List.nil_append]
        exact takes
      · exact ((hfull _ List.mem_cons_self).elim hnot hsized).elim

/-- **After a short call** there is nothing. -/
theorem calls_short (h : calls ns r = pre ++ f :: post) (hshort : ∃ g ∈ pre, g.Short) :
    f.rows = [] ∧
      (r.course.rows.length ≤ r.room → ¬f.Oversized → f.outcome = some (.ok [])) := by
  induction pre generalizing ns r with
  | nil => simp at hshort
  | cons g pre ih =>
    cases ns with
    | nil => cases h
    | cons n ns =>
      obtain ⟨rfl, htail⟩ := List.cons.inj h
      have later (hnot : ¬(served n r).Short) : ∃ g ∈ pre, g.Short := by
        obtain ⟨g, hg, hg'⟩ := hshort
        rcases List.mem_cons.mp hg with rfl | hg
        · exact absurd hg' hnot
        · exact ⟨g, hg, hg'⟩
      rcases served_cases n r with ⟨full, m, -, -, left⟩ | ⟨large, -, left⟩ | ⟨-, -, spent, ended⟩
      · obtain ⟨rows, nothing⟩ := ih htail (later fun hnot => hnot.1 full)
        rw [left] at nothing
        refine ⟨rows, fun hroom => nothing ?_⟩
        rw [Remainder.past, List.length_drop]
        exact Nat.sub_le_sub_right hroom m
      · obtain ⟨rows, nothing⟩ := ih htail (later fun hnot => hnot.2 large)
        rw [left] at nothing
        exact ⟨rows, nothing⟩
      · have hmem : f ∈ calls ns (r.serve? n).2 := by
          rw [show calls ns (r.serve? n).2 = pre ++ f :: post from htail]
          exact List.mem_append_right _ List.mem_cons_self
        refine ⟨calls_spent spent hmem, fun hroom sized => ?_⟩
        rw [ended hroom] at hmem
        exact calls_end hmem sized

/-- **Calls in order.** What they return together are the first rows. -/
theorem calls_prefix (h : pre <+: calls ns r) : pre.flatMap Fetch.rows <+: r.course.rows := by
  induction pre generalizing ns r with
  | nil => exact List.nil_prefix
  | cons g pre ih =>
    cases ns with
    | nil => simp [calls] at h
    | cons n ns =>
      obtain ⟨rfl, htail⟩ := List.cons_prefix_cons.mp h
      have rest := ih htail
      rw [List.flatMap_cons]
      rcases served_cases n r with ⟨-, m, -, rows, left⟩ | ⟨-, rows, left⟩ | ⟨-, rows, spent, -⟩
      · rw [left] at rest
        have all := (List.prefix_append_right_inj (r.course.rows.take m)).mpr rest
        rw [Remainder.past, List.take_append_drop] at all
        rw [rows]
        exact all
      · rw [left] at rest
        rw [rows, List.nil_append]
        exact rest
      · have nothing : pre.flatMap Fetch.rows = [] :=
          List.flatMap_eq_nil_iff.mpr fun f hf => calls_spent spent (htail.subset hf)
        rw [nothing, List.append_nil]
        exact rows

end Calls

/-! ## The calls of a program -/

/-- How many rows a question asks a cursor for, or all, if it asks for rows. -/
def asksFor (c : DbApi.Cursor) : Question → Option (Option Nat)
  | .fetchOne | .next => some (some 1)
  | .fetchMany size => some (some (size.getD c.arraySize))
  | .fetchAll => some none
  | _ => none

/-- The rows of an answer, or the failure. -/
def Answer.fetched? : Answer → Option (Except Failure (List Row))
  | .fetchedRow r => some (.ok (r.toList.map ShapedRow.values))
  | .shapedRow r => some (.ok [r.values])
  | .finished => some (.ok [])
  | .shapedRows rs => some (.ok (rs.map ShapedRow.values))
  | .dbError e => some (.error (.error e))
  | .panic p => some (.error (.panic p))
  | _ => none

/-- The question ends what a cursor has executed: it executes something else, closes
the cursor or drops it. -/
def Question.endsRows : Question → Bool
  | .execute .. | .executeMany _ (_ :: _) | .close | .drop => true
  | _ => false

/-- What a step asks of the object under a name. -/
def askedOf (name : String) : Step → Option Question
  | .ask slot q => if slot = name then some q else none
  | _ => none

/-- The calls of a run that fetch from the cursor under a name, until it ends, is replaced,
or what it has executed ends. -/
def fetches (fuel : Nat) (name : String) : List Step → Workspace State → List Fetch
  | [], _ => []
  | s :: rest, ws =>
    let out := step installation fuel s ws
    match ws.slots.get? name with
    | some (.dbCursor c) =>
      match askedOf name s with
      | some q =>
        if q.endsRows then []
        else match asksFor c q with
          | some wanted => ⟨wanted, out.1.fetched?⟩ :: fetches fuel name rest out.2
          | none => fetches fuel name rest out.2
      | none =>
        if out.2.slots.get? name = some (.dbCursor c) then fetches fuel name rest out.2 else []
    | _ => []

/-! ## One step -/

variable {ws : Workspace State} {l : Ledger} {name : String} {c : DbApi.Cursor} {course : Course}
  {fuel : Nat}

/-- What a cursor is to deliver depends on the items under its handles only. -/
theorem serves_of_items {w w' : World State} (h : Serves w c course)
    (hbound : ∀ n, w'.lib.last < n → w'.lib.objects.get? n = none)
    (hitems : ∀ i ∈ (Object.dbCursor c).holdings.1,
      w'.lib.objects.get? i.number = w.lib.objects.get? i.number) : Serves w' c course where
  executed := h.executed
  session := h.session
  reads := by
    intro rows hrows
    obtain ⟨rd, shows, takes⟩ := h.reads rows hrows
    have part : ∀ i ∈ (Object.cursor rows).holdings.1, i ∈ (Object.dbCursor c).holdings.1 := by
      intro i hi
      refine Multiset.mem_add.mpr (Or.inr ?_)
      rw [hrows]
      exact hi
    have fits : (Object.cursor rows).Fits w (.cursor rd) := shows
    exact ⟨rd, fits.of_items hbound fun i hi => hitems i (part i hi), takes⟩
  nothing := h.nothing

/-- **A step that asks nothing of a cursor** leaves what the cursor is to deliver, if the
cursor is still there. -/
theorem other_step_serves (h : Serves ws.world c course) (hk : Kept ws l) (s : Step)
    (hget : ws.slots.get? name = some (.dbCursor c)) (hasked : asked s ≠ some name)
    (hsame : (step installation fuel s ws).2.slots.get? name = some (.dbCursor c)) :
    Serves (step installation fuel s ws).2.world c course := by
  have hk' := hk.after_step fuel s
  rcases hk.step_others fuel s hasked hget with ⟨-, hitems⟩ | hgone
  · exact serves_of_items h hk'.accounts.bounded hitems
  · cases hrows : c.rows with
    | none =>
      refine ⟨h.executed, h.session, fun rows hsome => ?_, h.nothing⟩
      rw [hrows] at hsome
      cases hsome
    | some rows =>
      -- the result lives, for the cursor holds it still
      have held : rows.result.handle ∈ (Object.dbCursor c).holdings.1 := by
        refine Multiset.mem_add.mpr (Or.inr ?_)
        rw [hrows]
        exact Object.subject_mem (o := .cursor rows) rfl
      have lives := hk'.accounts.holds_of_mem (hk'.held hsame held)
      rw [(hgone _ held).2] at lives
      cases lives

theorem fetched?_answerCall {α : Type} {f : α → Answer} {g : α → List Row}
    (hf : ∀ a, (f a).fetched? = some (.ok (g a))) (x : Except Failure α) :
    (answerCall f x).fetched? = some (x.map g) := by
  rcases x with (e | p) | a
  · rfl
  · rfl
  · exact hf a

/-- **A question for rows** is answered from the course. -/
theorem own_fetch {q : Question} {wanted : Option Nat} (h : Serves ws.world c course)
    (ht : DbApi.Cursor.Open ws.world c) (hget : ws.slots.get? name = some (.dbCursor c))
    (hfuel : course.rows.length < fuel) (hq : asksFor c q = some wanted) :
    let out := step installation fuel (.ask name q) ws
    let served := (⟨course, c.room⟩ : Remainder).serve? wanted
    out.1.fetched? = some served.1 ∧
      ∃ c', out.2.slots.get? name = some (.dbCursor c') ∧
        GoesOn ws.world c out.2.world c' served.2 := by
  intro out served
  have put {answer : Answer} {c' : DbApi.Cursor} {w : World State}
      (run : out = (answer, ⟨w, ws.slots.set name (.dbCursor c')⟩))
      (told : answer.fetched? = some served.1) (goes : GoesOn ws.world c w c' served.2) :
      out.1.fetched? = some served.1 ∧
        ∃ c', out.2.slots.get? name = some (.dbCursor c') ∧
          GoesOn ws.world c out.2.world c' served.2 := by
    rw [run]
    exact ⟨told, c', Slots.get?_set_self, goes⟩
  cases q with
  | fetchOne =>
    obtain rfl := Option.some.inj hq
    obtain ⟨told, goes⟩ := h.fetchOne ht
    rw [← Remainder.serve?_one] at told goes
    refine put (step_ask_eq hget fuel .fetchOne) ?_ goes
    exact (fetched?_answerCall (fun _ => rfl) _).trans (congrArg some told)
  | next =>
    obtain rfl := Option.some.inj hq
    obtain ⟨told, goes⟩ := h.fetchOne ht
    rw [← Remainder.serve?_one] at told goes
    refine put (step_ask_eq hget fuel .next) ?_ goes
    refine (fetched?_answerCall (g := fun row => row.toList.map ShapedRow.values) ?_ _).trans
      (congrArg some told)
    intro row
    cases row <;> rfl
  | fetchMany size =>
    obtain rfl := Option.some.inj hq
    obtain ⟨told, goes⟩ := h.fetchMany size ht
    refine put (step_ask_eq hget fuel (.fetchMany size)) ?_ goes
    exact (fetched?_answerCall (fun _ => rfl) _).trans (congrArg some told)
  | fetchAll =>
    obtain rfl := Option.some.inj hq
    obtain ⟨told, goes⟩ := h.fetchAll fuel ht hfuel
    refine put (step_ask_eq hget fuel .fetchAll) ?_ goes
    refine Eq.trans ?_ told
    rw [Server.installation_library]
    cases (c.fetchAll library fuel ws.world).1.1 with
    | none => rfl
    | some rows => exact fetched?_answerCall (fun _ => rfl) rows
  | _ => cases hq

/-- **Any other question** leaves what the cursor is to deliver, unless it ends it. -/
theorem own_other (fuel : Nat) {q : Question} (h : Serves ws.world c course)
    (hget : ws.slots.get? name = some (.dbCursor c)) (hq : asksFor c q = none)
    (hends : q.endsRows = false) :
    let out := step installation fuel (.ask name q) ws
    ∃ c', out.2.slots.get? name = some (.dbCursor c') ∧
      GoesOn ws.world c out.2.world c' ⟨course, c.room⟩ := by
  intro out
  have same {answer : Answer} (run : out = (answer, ws)) :
      ∃ c', out.2.slots.get? name = some (.dbCursor c') ∧
        GoesOn ws.world c out.2.world c' ⟨course, c.room⟩ := by
    rw [run]
    exact ⟨c, hget, .refl h⟩
  have put {answer : Answer} {c' : DbApi.Cursor}
      (run : out = (answer, ⟨ws.world, ws.slots.set name (.dbCursor c')⟩))
      (goes : GoesOn ws.world c ws.world c' ⟨course, c.room⟩) :
      ∃ c', out.2.slots.get? name = some (.dbCursor c') ∧
        GoesOn ws.world c out.2.world c' ⟨course, c.room⟩ := by
    rw [run]
    exact ⟨c', Slots.get?_set_self, goes⟩
  cases q with
  | fetchOne | next | fetchMany | fetchAll => cases hq
  | execute | close | drop => cases hends
  | executeMany sql seq =>
    cases seq with
    | nil => exact put (step_ask_eq hget fuel (.executeMany sql [])) (.refl h)
    | cons => cases hends
  | set arraySize format =>
    refine put (step_ask_eq hget fuel (.set arraySize format)) ⟨?_, rfl, rfl, rfl⟩
    exact ⟨h.executed, h.session, h.reads, h.nothing⟩
  | _ => exact same (step_ask_eq hget fuel _)

/-! ## Runs -/

theorem asked_of_askedOf {s : Step} {q : Question} (h : askedOf name s = some q) :
    s = .ask name q := by
  cases s with
  | ask slot q' =>
    have hif : (if slot = name then some q' else none) = some q := h
    split at hif
    · next heq =>
      obtain rfl := Option.some.inj hif
      rw [heq]
    · cases hif
  | _ => cases h

theorem asked_ne_of_askedOf {s : Step} (h : askedOf name s = none) : asked s ≠ some name := by
  intro heq
  cases s with
  | ask slot q =>
    obtain rfl : slot = name := Option.some.inj heq
    have hif : (if slot = slot then some q else none) = none := h
    rw [if_pos rfl] at hif
    cases hif
  | _ => cases heq

/-- **A run.** What the calls return is what they are to be given of the course. -/
theorem fetches_eq_calls (h : Serves ws.world c course) (hk : Kept ws l)
    (hget : ws.slots.get? name = some (.dbCursor c)) (hfuel : course.rows.length < fuel)
    (steps : List Step) (hopen : StaysOpen fuel (some c.connection.session) steps ws) :
    fetches fuel name steps ws =
      calls ((fetches fuel name steps ws).map (·.wanted)) ⟨course, c.room⟩ := by
  -- on the steps: a call takes its part of the course, other steps leave it
  induction steps generalizing ws l c course with
  | nil => rfl
  | cons s rest ih =>
    have hk' := hk.after_step fuel s
    have ht : DbApi.Cursor.Open ws.world c := hopen.now rfl
    have next {c' : DbApi.Cursor} (same : c'.connection = c.connection) :
        StaysOpen fuel (some c'.connection.session) rest (step installation fuel s ws).2 := by
      rw [same]
      exact hopen.next
    rw [fetches, hget]
    dsimp only
    cases hasked : askedOf name s with
    | none =>
      dsimp only
      split
      · next hsame =>
        exact ih (other_step_serves h hk s hget (asked_ne_of_askedOf hasked) hsame) hk' hsame hfuel
          (next rfl)
      · rfl
    | some q =>
      obtain rfl := asked_of_askedOf hasked
      dsimp only
      cases hends : q.endsRows with
      | true => rfl
      | false =>
        rw [if_neg (by simp)]
        cases hq : asksFor c q with
        | none =>
          obtain ⟨c', hget', goes⟩ := own_other fuel h hget hq hends
          have later := ih goes.serves hk' hget' hfuel (next goes.connection)
          rw [goes.room] at later
          exact later
        | some wanted =>
          obtain ⟨told, c', hget', goes⟩ := own_fetch h ht hget hfuel hq
          have shorter := (Remainder.serve?_length_le wanted ⟨course, c.room⟩).trans_lt hfuel
          have later := ih goes.serves hk' hget' shorter (next goes.connection)
          rw [goes.room] at later
          dsimp only
          rw [told, List.map_cons, calls, ← later]
          rfl

/-! ## How the calls begin -/

/-- The name of the cursor that executes a statement for an object of the DB-API: a cursor
does so itself, a connection makes a new one. -/
def Object.executesIn (slot into : String) : Object → Option String
  | dbCursor _ => some slot
  | dbConnection _ => some into
  | _ => none

/-- A cursor that has executed is to deliver the reply. -/
theorem executed_serves {o : Object} {slot into op sql : String} {params : List Value}
    {format : DbApi.RowFormat} (hk : Kept ws l) (hget : ws.slots.get? slot = some o)
    (hname : o.executesIn slot into = some name)
    (hsql : DbApi.Cursor.statementFor op params = .ok sql)
    (hret : (ws.world.lib.replyTo sql).Returns)
    (hdone : (step installation fuel (.ask slot (.execute op params format into)) ws).1 = .done) :
    let out := step installation fuel (.ask slot (.execute op params format into)) ws
    ∃ cur, out.2.slots.get? name = some (.dbCursor cur) ∧
      Serves out.2.world cur (ws.world.lib.replyTo sql).course ∧ cur.room = maxCount := by
  intro out
  have hk' := hk.after_step fuel (.ask slot (.execute op params format into))
  have ha : Accounts ws.world (o.holdings + ((ws.slots.erase slot).total +
      ownsAll l.outstanding)) := by
    rw [← add_assoc, ← Slots.total_erase hk.sorted hget]
    exact hk.accounts
  cases o with
  | dbCursor c =>
    obtain rfl := Option.some.inj hname
    have serves := DbApi.Cursor.execute_serves (c := c) fuel ha hsql hret
    have run : out = afterCall slot (answerDb fun _ => .done)
        (c.execute library fuel op params ws.world).1
        ⟨(c.execute library fuel op params ws.world).2, ws.slots⟩ := step_ask_eq hget fuel _
    rw [show step installation fuel _ ws = out from rfl, run] at hdone
    rw [run]
    revert serves hdone
    rcases c.execute library fuel op params ws.world with ⟨⟨_ | (e | _), cur⟩, world⟩
    · exact fun hdone => by cases hdone
    · exact fun hdone => by cases hdone
    · intro _ serves
      obtain ⟨serves, count⟩ := serves rfl
      exact ⟨cur, Slots.get?_set_self, serves, congrArg (maxCount - ·) count⟩
  | dbConnection c =>
    obtain rfl := Option.some.inj hname
    obtain ⟨hat, hl⟩ :=
      (hk.stage_at_zero (s := .ask slot (.execute op params format into)) rfl).lend hget rfl
    have made := hat.make hl (c.keeps_execute fuel op params format)
    have serves (cur : DbApi.Cursor) (w : World State)
        (made : c.execute library fuel op params format ws.world = (some (.ok cur), w)) :
        Serves w cur (ws.world.lib.replyTo sql).course ∧ cur.counted = 0 :=
      DbApi.Connection.execute_serves fuel ha hsql hret made
    have run : out = askDbConnection installation fuel c (.execute op params format into) ws :=
      step_ask_eq hget fuel _
    rw [askDbConnection, bind_apply, run_apply, Server.installation_library] at run
    rw [show step installation fuel _ ws = out from rfl, run] at hdone hk'
    rw [run]
    revert serves hdone made hk'
    rcases c.execute library fuel op params format ws.world with ⟨_ | (e | cur), world⟩
    · exact fun _ hdone => by cases hdone
    · exact fun _ hdone => by cases hdone
    · intro hk' _ made serves
      obtain ⟨serves, count⟩ := serves cur world rfl
      refine ⟨cur, Stage.At.store_there into _ _ _, ?_, congrArg (maxCount - ·) count⟩
      exact serves_of_items serves hk'.accounts.bounded fun h hh =>
        made.store_kept (o := .dbCursor cur) into hh
  | connection | result | batch | cursor | procedure | rowBuilder | raw => cases hname

/-- What a cursor over the result of a statement yields, when it is all that a program
does. -/
theorem obtained_yields {x : Executor} {sql : String} {r : QueryResult}
    {w after : World State} {H : Server.Holdings} (ha : Accounts w H)
    (run : x.execute sql w = (.ok r, after)) (hret : (w.lib.replyTo sql).Returns) (n : Nat) :
    (Cursor.nexts library n (.ofResult r) after).1.1 = (w.lib.replyTo sql).course.yields n := by
  obtain ⟨i, hitem, obtained⟩ := x.obtained ha run
  exact (obtained.stands.follows obtained.talks (Reply.takes hitem hret.full) n).1

/-- **The calls divide one iteration.** In any state that a program can reach, let a
cursor of the DB-API execute a statement that the server answers with rows, of its own
or for a connection. A plain cursor over a result of the same reply yields the rows of
the reply and its error. So do the calls that fetch from the cursor of the DB-API while
its connection stays open, whatever is done in between: what the calls of any beginning
return together are the first rows. A call is answered from the rows that remain; only
one that they do not suffice for comes to the end, where it returns those rows or, if
there is an error, raises that, in the class of its code. After such a call there is
nothing. A call that asks for more rows than there can be room for panics instead and
takes nothing. One that reaches a row that the row count has no number for panics too;
after it no row is returned. -/
theorem calls_divide (replies : List (String × Reply)) (connectFailure : Option Code)
    (rowCapacity : Int32) (fuel : Nat) (before : List Step) (slot into name op sql : String)
    (params : List Value) (format : DbApi.RowFormat) (o : Object)
    (hget : (play installation fuel before
      (start (.scripted replies connectFailure rowCapacity))).slots.get? slot = some o)
    (hname : o.executesIn slot into = some name)
    (hsql : DbApi.Cursor.statementFor op params = .ok sql)
    (hret : ((State.scripted replies connectFailure rowCapacity).replyTo sql).Returns)
    (hfuel :
      ((State.scripted replies connectFailure rowCapacity).replyTo sql).course.rows.length < fuel)
    (hdone : (step installation fuel (.ask slot (.execute op params format into))
      (play installation fuel before
        (start (.scripted replies connectFailure rowCapacity)))).1 = .done) :
    let server := State.scripted replies connectFailure rowCapacity
    let ws := play installation fuel before (start server)
    let course := (server.replyTo sql).course
    let out := step installation fuel (.ask slot (.execute op params format into)) ws
    (∀ x r after, Executor.execute sql x ws.world = (.ok r, after) → ∀ n,
      (Cursor.nexts library n (.ofResult r) after).1.1 = course.yields n) ∧
    (∀ e, course.error = some e → ∃ code details, e = .server code details ∧
      (DbApi.Error.failure e).cls = .ofCode code) ∧
    ∃ cur, out.2.slots.get? name = some (.dbCursor cur) ∧
      ∀ steps, StaysOpen fuel (some cur.connection.session) steps out.2 →
        let fetched := fetches fuel name steps out.2
        (∀ pre, pre <+: fetched → pre.flatMap Fetch.rows <+: course.rows) ∧
        ∀ pre f post, fetched = pre ++ f :: post →
          let taken := (pre.flatMap Fetch.rows).length
          (f.Oversized → f.outcome = some (.error (.panic .capacity))) ∧
          (¬f.Oversized → (∀ g ∈ pre, g.Full ∨ g.Oversized) →
            f.TakesFrom (course.rows.drop taken) course.error (maxCount - taken)) ∧
          ((∃ g ∈ pre, g.Short) → f.rows = [] ∧
            (¬f.Oversized → course.rows.length ≤ maxCount → f.outcome = some (.ok []))) := by
  intro server ws course out
  obtain ⟨hobj, -⟩ := Server.State.scripted_fresh replies connectFailure rowCapacity
  have hk := (kept_start hobj).after_play fuel before
  have reply : ws.world.lib.replyTo sql = server.replyTo sql :=
    (kept_start hobj).replyTo_play fuel before sql
  refine ⟨fun x r after run n => ?_, fun e he => ?_, ?_⟩
  · have yields := obtained_yields hk.accounts run (reply ▸ hret) n
    rw [reply] at yields
    exact yields
  · obtain ⟨code, details, rfl⟩ := hret.course_error he
    exact ⟨code, details, rfl, rfl⟩
  · obtain ⟨cur, there, serves, room⟩ := executed_serves hk hget hname hsql (reply ▸ hret) hdone
    rw [reply] at serves
    refine ⟨cur, there, fun steps hopen => ?_⟩
    intro fetched
    have hk' := hk.after_step fuel (.ask slot (.execute op params format into))
    have told : fetched = calls (fetched.map (·.wanted)) ⟨course, cur.room⟩ :=
      fetches_eq_calls serves hk' there hfuel steps hopen
    rw [room] at told
    refine ⟨fun pre hpre => ?_, fun pre f post hsplit => ?_⟩
    · rw [told] at hpre
      exact calls_prefix hpre
    · have split := told.symm.trans hsplit
      have mem : f ∈ calls (fetched.map (·.wanted)) ⟨course, maxCount⟩ := by
        rw [split]
        exact List.mem_append_right _ List.mem_cons_self
      refine ⟨calls_oversized mem, fun sized full => calls_full split full sized, fun short => ?_⟩
      obtain ⟨rows, nothing⟩ := calls_short split short
      exact ⟨rows, fun sized fits => nothing fits sized⟩

/-- The session of a cursor of the DB-API. -/
def Object.cursorSession? : Object → Option SessionId
  | dbCursor c => some c.connection.session
  | _ => none

/-- Of three batches the second fetch fails: two calls return a row each, with another
format in between and another cursor over the same connection; the call for all that
remains meets the error, and the last one finds nothing. -/
theorem calls_divide_until_failure :
    let reply : Reply := .failingCursor [[[.bool true]], [[.bool false]], [[.null]]] 1 Code.noMemory
    let replies := [("select a from t", reply), ("s", .status)]
    let steps : List Step := [.ask "c" (.fetchMany none), .ask "c" (.set (some 5) (some .tuple)),
      .ask "k" (.execute "s" [] .dict "d"), .ask "c" .next, .ask "c" .fetchAll, .ask "c" .fetchOne]
    let out := step installation 9 (.ask "k" (.execute "select a from t" [] .dict "c"))
      (play installation 9 [.dbConnect {} "k"] (start (.scripted replies none 8192)))
    out.1 = .done ∧ ∃ first second third fourth,
      fetches 9 "c" steps out.2 = [first, second, third, fourth] ∧
      first.outcome = some (.ok [[.bool true]]) ∧ second.outcome = some (.ok [[.bool false]]) ∧
      third.outcome =
        some (.error (.error (.failure (.server Code.noMemory Code.noMemory.name)))) ∧
      fourth.outcome = some (.ok []) := by
  intro reply replies steps out
  have done : out.1 = .done := by decide +kernel
  obtain ⟨-, -, cur, there, divide⟩ := calls_divide replies none 8192 9 [.dbConnect {} "k"] "k" "c"
    "c" "select a from t" "select a from t" [] .dict (.dbConnection ⟨⟨0⟩⟩) (by decide +kernel)
    rfl rfl (by decide) (by decide) done
  have session : cur.connection.session = 0 := by
    have look : (out.2.slots.get? "c").bind Object.cursorSession? = some 0 := by decide +kernel
    rw [there] at look
    exact Option.some.inj look
  have stays : ∀ done ∈ steps.inits,
      ((play installation 9 done out.2).world.line 0).isSome := by decide +kernel
  have wanted : (fetches 9 "c" steps out.2).map (·.wanted) = [some 1, some 1, none, some 1] := by
    decide +kernel
  have hopen : StaysOpen 9 (some cur.connection.session) steps out.2 := by
    rintro played hplayed _ ⟨⟩
    rw [session]
    exact stays played ((List.mem_inits played steps).mpr hplayed)
  obtain ⟨-, call⟩ := divide steps hopen
  revert wanted call
  generalize fetches 9 "c" steps out.2 = fetched
  intro wanted call
  obtain ⟨first, rest, rfl, hfirst, hrest⟩ := List.map_eq_cons_iff.mp wanted
  obtain ⟨second, rest, rfl, hsecond, hrest⟩ := List.map_eq_cons_iff.mp hrest
  obtain ⟨third, rest, rfl, hthird, hrest⟩ := List.map_eq_cons_iff.mp hrest
  obtain ⟨fourth, rest, rfl, hfourth, hrest⟩ := List.map_eq_cons_iff.mp hrest
  obtain rfl := List.map_eq_nil_iff.mp hrest
  have sized {f : Fetch} (h : ∀ n, f.wanted = some n → n ≤ maxReserved) : ¬f.Oversized :=
    fun ⟨n, hn, hlarge⟩ => absurd (h n hn) (Nat.not_le_of_lt hlarge)
  have one : first.outcome = some (.ok [[.bool true]]) :=
    ((call [] first _ rfl).2.1 (sized (by simp [hfirst, maxReserved])) (by simp)).full 1 hfirst
      (by decide) (by decide)
  have firstFull : first.Full := ⟨_, one, hfirst⟩
  have two : second.outcome = some (.ok [[.bool false]]) := by
    have takes := (call [first] second _ rfl).2.1 (sized (by simp [hsecond, maxReserved]))
      (by simpa using Or.inl firstFull)
    rw [show [first].flatMap Fetch.rows = [[.bool true]] by simp [Fetch.rows, one]] at takes
    exact takes.full 1 hsecond (by decide) (by decide)
  have secondFull : second.Full := ⟨_, two, hsecond⟩
  have thirdSized : ¬third.Oversized := sized (by simp [hthird])
  have three : third.outcome =
      some (.error (.error (.failure (.server Code.noMemory Code.noMemory.name)))) := by
    have takes := (call [first, second] third _ rfl).2.1 thirdSized
      (by simpa using ⟨Or.inl firstFull, Or.inl secondFull⟩)
    rw [show [first, second].flatMap Fetch.rows = [[.bool true], [.bool false]] by
      simp [Fetch.rows, one, two]] at takes
    refine takes.last (fun n hn => ?_) (by decide)
    rw [hthird] at hn
    cases hn
  have short : third.Short := by
    refine ⟨?_, thirdSized⟩
    rintro ⟨rows, hrows, -⟩
    rw [three] at hrows
    cases hrows
  refine ⟨done, first, second, third, fourth, rfl, one, two, three, ?_⟩
  obtain ⟨-, nothing⟩ := (call [first, second, third] fourth _ rfl).2.2 ⟨third, by simp, short⟩
  exact nothing (sized (by simp [hfourth, maxReserved])) (by decide)

/-- One row is to come, and a call asks for more than there can be room for: it panics. The
call after it finds the row. -/
theorem calls_divide_not_oversized :
    let replies := [("s", Reply.row [.int 1])]
    let out := step installation 9 (.ask "d" (.execute "s" [] .list "k"))
      (play installation 9 [.dbConnect {} "d"] (start (.scripted replies none 8192)))
    let fetched := fetches 9 "k" [.ask "k" (.fetchMany (some 0x7fffffffffffffff)),
      .ask "k" (.fetchMany (some 2))] out.2
    out.1 = .done ∧ fetched.map (·.outcome) =
      [some (.error (.panic .capacity)), some (.ok [[.int 1]])] := by
  decide +kernel

end Querent.Workspace
