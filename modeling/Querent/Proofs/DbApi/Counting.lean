import Querent.Proofs.DbApi.Execution

/-!
# Counting rows

A cursor of the DB-API has one count, of the rows that a statement has affected or of those
that were fetched. Where a statement is executed for many lists of parameters the counts of
its reports are added up. A sum that is no machine word is a panic, and so is the count of
one row too many. What was counted stays when the last statement has rows, and fetching them
counts on from there.
-/

namespace Querent.DbApi

open Querent.DbApi.Cursor (maxCount)

variable {σ : Type} {L : Library σ}

/-! ## What is counted -/

/-- What an outcome adds to the count of affected rows, a report no more than the greatest
row count; none if it counts nothing. -/
def Outcome.count? : Outcome → Option Nat
  | report counters => some (min counters.affected.toNat maxCount)
  | ended _ => some 0
  | rows .. | nothing => none

/-- The count with what an outcome adds to it. -/
def Outcome.addTo (total : Option Nat) (o : Outcome) : Option Nat :=
  match o.count? with
  | some n => some (total.getD 0 + n)
  | none => total

/-- The count after some outcomes, none as long as nothing is counted. -/
def tally (total : Option Nat) (os : List Outcome) : Option Nat :=
  os.foldl Outcome.addTo total

/-- The count is a machine word, or nothing is counted. -/
def Fits (total : Option Nat) : Prop := total.getD 0 ≤ maxCount

instance (total : Option Nat) : Decidable (Fits total) :=
  inferInstanceAs (Decidable (total.getD 0 ≤ maxCount))

theorem fits_none : Fits none := Nat.zero_le maxCount

/-- The rows that reports count. -/
def affectedSum : List Report → Nat
  | [] => 0
  | r :: rs => r.affected.toNat + affectedSum rs

/-- The same with each report counting no more than the greatest row count. -/
def clampedSum : List Report → Nat
  | [] => 0
  | r :: rs => min r.affected.toNat maxCount + clampedSum rs

section Tally

variable (total : Option Nat) (o : Outcome) (os : List Outcome)

theorem tally_cons : tally total (o :: os) = tally (o.addTo total) os := rfl

theorem tally_snoc : tally total (os ++ [o]) = o.addTo (tally total os) := List.foldl_append ..

theorem addTo_eq_none_iff : o.addTo total = none ↔ total = none ∧ o.count? = none := by
  unfold Outcome.addTo
  cases o.count? <;> simp

theorem tally_eq_none_iff : tally total os = none ↔ total = none ∧ ∀ o ∈ os, o.count? = none := by
  induction os generalizing total with
  | nil => simp [tally]
  | cons o os ih => rw [tally_cons, ih, addTo_eq_none_iff, List.forall_mem_cons, and_assoc]

theorem le_addTo : total.getD 0 ≤ (o.addTo total).getD 0 := by
  unfold Outcome.addTo
  cases o.count? with
  | none => exact Nat.le_refl _
  | some n => exact Nat.le_add_right _ n

theorem le_tally : total.getD 0 ≤ (tally total os).getD 0 := by
  induction os generalizing total with
  | nil => exact Nat.le_refl _
  | cons o os ih => exact Nat.le_trans (le_addTo total o) (ih _)

end Tally

theorem tally_reports (total : Nat) (counters : List Report) :
    tally (some total) (counters.map .report) = some (total + clampedSum counters) := by
  induction counters generalizing total with
  | nil => rfl
  | cons r rs ih =>
    rw [List.map_cons, tally_cons, clampedSum, ← Nat.add_assoc]
    exact ih _

/-- The first report starts the count, from zero. -/
theorem tally_reports_cons (r : Report) (rs : List Report) :
    tally none ((r :: rs).map .report) = some (clampedSum (r :: rs)) := by
  rw [clampedSum, ← tally_reports]
  exact congrArg (fun n => tally (some n) (rs.map .report)) (Nat.zero_add _)

/-- A sum that fits is that of the reports themselves, up to the greatest row count. -/
theorem clampedSum_eq (counters : List Report) (h : clampedSum counters ≤ maxCount) :
    clampedSum counters = min (affectedSum counters) maxCount := by
  induction counters with
  | nil => exact (Nat.min_eq_left (Nat.zero_le _)).symm
  | cons r rs ih =>
    rw [clampedSum] at h ⊢
    rw [affectedSum]
    have := ih (by omega)
    omega

/-! ## Counts as machine words -/

theorem toInt_ofNat {n : Nat} (h : n ≤ maxCount) : (Int64.ofNat n).toInt = n :=
  Int64.toInt_ofNat_of_lt (Nat.lt_succ_of_le h)

theorem sum64?_ofNat {m n : Nat} (hm : m ≤ maxCount) (hn : n ≤ maxCount) :
    sum64? (.ofNat m) (.ofNat n) = if m + n ≤ maxCount then some (.ofNat (m + n)) else none := by
  split
  · next fits =>
    rw [sum64?_eq_some_iff, toInt_ofNat hm, toInt_ofNat hn, toInt_ofNat fits]
    exact Int.natCast_add m n
  · next exceeds =>
    rw [sum64?_eq_none_iff, toInt_ofNat hm, toInt_ofNat hn]
    unfold maxCount at exceeds
    omega

theorem clampCount_eq (affected : UInt64) :
    Cursor.clampCount affected = .ofNat (min affected.toNat maxCount) := by
  rw [← Int64.toInt_inj, toInt_ofNat (Nat.min_le_right _ _)]
  unfold Cursor.clampCount
  rcases hword : int64? affected.toNat with _ | n
  · rw [int64?_eq_none_iff] at hword
    rw [Option.getD_none, show Int64.maxValue.toInt = maxCount from rfl]
    unfold maxCount
    omega
  · rw [int64?_eq_some_iff] at hword
    have := n.toInt_lt
    rw [Option.getD_some, hword]
    unfold maxCount
    omega

namespace Cursor

/-! ## Sequences of statements -/

/-- The cursor with this count, if there is one. -/
def counting (c : Cursor) : Option Nat → Cursor
  | some n => { c with rowCount := .ofNat n }
  | none => c

/-- For each list of parameters the statement succeeds, with these outcomes. The cursor has
kept the last of them. -/
inductive Series (L : Library σ) (fuel : Nat) (op : String) : Cursor → World σ →
    List (List Value) → List Outcome → Cursor → World σ → Prop
  | nil {c w} : Series L fuel op c w [] [] c w
  | cons {c w params o w₁ rest os c' w'} : Comes L fuel c op params w o w₁ →
    Series L fuel op (c.reset.keep o) w₁ rest os c' w' →
    Series L fuel op c w (params :: rest) (o :: os) c' w'

/-- The statements are executed up to the first with which the count is no machine word. -/
inductive Overflows (L : Library σ) (fuel : Nat) (op : String) (c : Cursor) (w : World σ)
    (seq : List (List Value)) (total : Option Nat) (os : List Outcome) (c' : Cursor)
    (w' : World σ) : Prop
  | after (k : Nat) : Fits (tally total (os.take k)) → ¬ Fits (tally total (os.take (k + 1))) →
    Series L fuel op c w (seq.take (k + 1)) (os.take (k + 1)) c' w' →
    Overflows L fuel op c w seq total os c' w'

section Sequences

variable {fuel : Nat} {op : String} {c left : Cursor} {w w' : World σ} {o : Outcome}
  {seq : List (List Value)} {total : Option Nat} {os : List Outcome} {counters : List Report}

/-- What is added to the count after an outcome, if it fits. -/
theorem addCount?_keep (c : Cursor) (o : Outcome) (fits : Fits total) :
    (c.reset.keep o).addCount? (total.map .ofNat) =
      if Fits (o.addTo total) then some ((o.addTo total).map .ofNat) else none := by
  have start : (total.map Int64.ofNat).getD 0 = .ofNat (total.getD 0) := by cases total <;> rfl
  -- an outcome that counts is one whose count is not negative
  have counts {n : Nat} (hn : n ≤ maxCount) (hcount : o.addTo total = some (total.getD 0 + n))
      (hadd : (c.reset.keep o).addCount? (total.map .ofNat) =
        (sum64? ((total.map .ofNat).getD 0) (.ofNat n)).map some) :
      (c.reset.keep o).addCount? (total.map .ofNat) =
        if Fits (o.addTo total) then some ((o.addTo total).map .ofNat) else none := by
    rw [hadd, start, sum64?_ofNat fits hn, hcount]
    exact apply_ite (Option.map some) _ _ _
  cases o with
  | rows | nothing => exact (if_pos fits).symm
  | ended => exact counts (Nat.zero_le _) rfl rfl
  | report counters =>
    refine counts (Nat.min_le_right _ _) rfl ?_
    have count : (c.reset.keep (.report counters)).rowCount = clampCount counters.affected := by
      rw [keep]
    have nonneg : clampCount counters.affected ≥ 0 := by
      rw [clampCount_eq, ge_iff_le, Int64.le_iff_toInt_le, toInt_ofNat (Nat.min_le_right _ _)]
      exact Int.natCast_nonneg _
    rw [addCount?, count, if_pos ⟨rfl, nonneg⟩, clampCount_eq]

/-- Executing for each list of parameters adds up what the outcomes count, if it fits. -/
theorem Series.executeEach (h : Series L fuel op c w seq os left w')
    (fits : Fits (tally total os)) :
    executeEach L fuel op (total.map .ofNat) c seq w =
      ((some (.ok ()), left.counting (tally total os)), w') := by
  induction h generalizing total with
  | nil => cases total <;> rfl
  | @cons c w params o w₁ rest os c' w' comes _ ih =>
    have first : Fits (o.addTo total) := Nat.le_trans (le_tally _ os) fits
    have start : Fits total := Nat.le_trans (le_addTo total o) first
    rw [Cursor.executeEach, bind_apply, comes.execute]
    dsimp only
    rw [addCount?_keep c o start, if_pos first]
    exact ih fits

/-- If it does not fit, that ends in a panic. -/
theorem Series.executeEach_overflow (h : Series L fuel op c w seq os left w')
    (start : Fits total) (exceeds : ¬ Fits (tally total os)) :
    ∃ ran w₁, Overflows L fuel op c w seq total os ran w₁ ∧
      Cursor.executeEach L fuel op (total.map .ofNat) c seq w =
        ((some (.error (.panic .overflow)), ran), w₁) := by
  induction h generalizing total with
  | nil => exact absurd start exceeds
  | @cons c w params o w₁ rest os c' w' comes _ ih =>
    rw [Cursor.executeEach, bind_apply, comes.execute]
    dsimp only
    rw [addCount?_keep c o start]
    split
    · next first =>
      obtain ⟨ran, w₂, ⟨k, below, above, series⟩, run⟩ := ih first exceeds
      exact ⟨ran, w₂, .after (k + 1) below above (.cons comes series), run⟩
    · next first => exact ⟨_, w₁, .after 0 start first (.cons comes .nil), rfl⟩

theorem Series.executeMany (h : Series L fuel op c w seq os left w')
    (fits : Fits (tally none os)) :
    c.executeMany L fuel op seq w = ((some (.ok ()), left.counting (tally none os)), w') :=
  h.executeEach fits

theorem Series.executeMany_overflow (h : Series L fuel op c w seq os left w')
    (exceeds : ¬ Fits (tally none os)) :
    ∃ ran w₁, Overflows L fuel op c w seq none os ran w₁ ∧
      c.executeMany L fuel op seq w = ((some (.error (.panic .overflow)), ran), w₁) :=
  h.executeEach_overflow fits_none exceeds

theorem series_of_executeEach (start : Fits total)
    (h : (Cursor.executeEach L fuel op (total.map .ofNat) c seq w).1.1 = some (.ok ())) :
    ∃ os left w', Series L fuel op c w seq os left w' ∧ Fits (tally total os) := by
  induction seq generalizing total c w with
  | nil => exact ⟨[], c, w, .nil, start⟩
  | cons params rest ih =>
    rw [Cursor.executeEach, bind_apply] at h
    obtain hnone | ⟨o, w₁, comes⟩ | ⟨stage, e, w₁, fails⟩ := execute_cases L fuel c op params w
    · rcases run : c.execute L fuel op params w with ⟨⟨_ | _, left⟩, w₁⟩
      · rw [run] at h
        cases h
      · rw [run] at hnone
        cases hnone
    · rw [comes.execute] at h
      dsimp only at h
      rw [addCount?_keep c o start] at h
      by_cases first : Fits (o.addTo total)
      · rw [if_pos first] at h
        obtain ⟨os, left, w', series, fits⟩ := ih first h
        exact ⟨o :: os, left, w', .cons comes series, fits⟩
      · rw [if_neg first] at h
        cases h
    · rw [fails.execute] at h
      cases h

/-- Executing for each list of parameters succeeds exactly if each statement does and the
counts fit. -/
theorem executeMany_ok_iff : (c.executeMany L fuel op seq w).1.1 = some (.ok ()) ↔
    ∃ os left w', Series L fuel op c w seq os left w' ∧ Fits (tally none os) := by
  constructor
  · exact series_of_executeEach fits_none
  · rintro ⟨os, left, w', series, fits⟩
    rw [series.executeMany fits]

/-- The cursor is left as the last statement alone leaves it. -/
theorem Series.left_eq (h : Series L fuel op c w seq (os ++ [o]) left w') :
    left = c.reset.keep o := by
  induction os generalizing c w seq with
  | nil =>
    cases h with
    | cons _ rest =>
      cases rest
      rfl
  | cons first os ih =>
    cases h with
    | cons _ rest =>
      rw [ih rest]
      cases first <;> rfl

/-- **Reports add up as long as their sum is a machine word.** Where each statement is
answered with a report, the row count is the sum of all affected rows, or the greatest row
count, if what the reports count, no more than the greatest row count each, adds up to no
more than that. If it adds up to more there is a panic, at the first report with which it
does. Without parameters nothing is executed, and the row count stays. -/
theorem reports_added_up
    (series : Series L fuel op c w seq (counters.map .report) left w') :
    (seq = [] → c.executeMany L fuel op seq w = ((some (.ok ()), c), w)) ∧
    (seq ≠ [] → clampedSum counters ≤ maxCount → ∃ n : Int64,
      n.toInt = (min (affectedSum counters) maxCount : Nat) ∧
      c.executeMany L fuel op seq w = ((some (.ok ()), { left with rowCount := n }), w')) ∧
    (maxCount < clampedSum counters → ∃ ran w₁,
      Overflows L fuel op c w seq none (counters.map .report) ran w₁ ∧
      c.executeMany L fuel op seq w = ((some (.error (.panic .overflow)), ran), w₁)) := by
  cases counters with
  | nil =>
    cases series
    exact ⟨fun _ => rfl, fun h => absurd rfl h, fun exceeds => absurd exceeds (Nat.not_lt_zero _)⟩
  | cons r rs =>
    have total := tally_reports_cons r rs
    refine ⟨?_, fun _ fits => ?_, fun exceeds => ?_⟩
    · rintro rfl
      cases series
    · refine ⟨.ofNat (clampedSum (r :: rs)), ?_, ?_⟩
      · rw [toInt_ofNat fits, clampedSum_eq _ fits]
      · have run := series.executeMany (by rw [total]; exact fits)
        rw [total] at run
        exact run
    · exact series.executeMany_overflow (by rw [total]; exact Nat.not_le_of_lt exceeds)

end Sequences

open Server (State library)

/-- A statement without placeholders is executed twice, and its reports count three rows
each. -/
theorem reports_added_up_twice :
    let r : Report := ⟨3, 0, 0⟩
    let c : Cursor := .ofConnection ⟨0⟩
    let world (results : Server.Table) (released : List Nat) (executed : List String)
        (holders : Nat) : World State :=
      ⟨{ last := executed.length + 1, objects := (1, .connection) :: results, released, executed,
         script := [("s", .report r)] }, [⟨some ⟨1⟩, "127.0.0.1:55505", holders⟩]⟩
    ∃ left, Series library 9 "s" c (world [] [] [] 1) [[], []] ([r, r].map .report) left
        (world [] [2, 3] ["s", "s"] 1) ∧
      ∃ n : Int64, c.executeMany library 9 "s" [[], []] (world [] [] [] 1) =
        ((some (.ok ()), { left with rowCount := n }), world [] [2, 3] ["s", "s"] 1) ∧
        n.toInt = 6 := by
  intro r c world
  let item : Server.Item := .result .report true Code.ok none r
  have first : Comes library 9 c "s" [] (world [] [] [] 1) (.report r)
      (world [] [2] ["s"] 1) :=
    ⟨"s", [], world [] [] [] 1, .new ⟨2⟩ (some 0), world [(2, item)] [] ["s"] 2, ⟨rfl, rfl⟩, rfl,
      .report rfl rfl rfl rfl⟩
  have second : Comes library 9 (c.reset.keep (.report r)) "s" [] (world [] [2] ["s"] 1)
      (.report r) (world [] [2, 3] ["s", "s"] 1) :=
    ⟨"s", [], world [] [2] ["s"] 1, .new ⟨3⟩ (some 0), world [(3, item)] [2] ["s", "s"] 2,
      ⟨rfl, rfl⟩, rfl, .report rfl rfl rfl rfl⟩
  have series : Series library 9 "s" c (world [] [] [] 1) [[], []] ([r, r].map .report) _ _ :=
    .cons first (.cons second .nil)
  obtain ⟨n, sum, run⟩ := (reports_added_up series).2.1 (by simp) (by decide)
  exact ⟨_, series, n, run, sum⟩

/-- Two reports of the greatest row count: executing the statement twice panics, where the
greatest row count would be the sum. -/
theorem reports_overflowing :
    let server := State.scripted [("s", .report ⟨0x7fffffffffffffff, 0, 0⟩)] none 8192
    ∃ con before, Connection.connect library {} (.start server) = (.ok con, before) ∧
      ∃ left after, (ofConnection con.inner).executeMany library 9 "s" [[], []] before =
        ((some (.error (.panic .overflow)), left), after) ∧
        after.lib.executed = ["s", "s"] :=
  ⟨_, _, rfl, _, _, rfl, rfl⟩

/-! ## Calls for rows -/

/-- A call for one row, for some rows, or for all that remain. -/
inductive FetchCall where
  | one
  | many (size : Option Nat)
  | all

namespace FetchCall

/-- The rows that a call returns, or how it fails; none if the fuel runs out. -/
def run (L : Library σ) (fuel : Nat) : FetchCall → Cursor →
    Action σ (Option (Except Failure (List ShapedRow)) × Cursor)
  | one, c => do
    let (row, c) ← c.fetchOne L
    return (some (row.map Option.toList), c)
  | many size, c => do
    let (rows, c) ← c.fetchMany L size
    return (some rows, c)
  | all, c => c.fetchAll L fuel

/-- The call asks for more rows at once than there can be room for. -/
def oversized (c : Cursor) : FetchCall → Bool
  | many size => maxReserved < size.getD c.arraySize
  | one | all => false

/-- The call asks for a row at all. -/
def asks (fuel : Nat) (c : Cursor) : FetchCall → Bool
  | one => true
  | many size => size.getD c.arraySize != 0 && size.getD c.arraySize ≤ maxReserved
  | all => fuel != 0

end FetchCall

/-- What calls return, one after the other, each in the world that it finds. -/
def fetches (L : Library σ) (fuel : Nat) : Cursor → List (FetchCall × World σ) →
    List (Option (Except Failure (List ShapedRow))) × Cursor
  | c, [] => ([], c)
  | c, (call, w) :: rest =>
    let first := (call.run L fuel c w).1
    let more := fetches L fuel first.2 rest
    (first.1 :: more.1, more.2)

/-- How many rows were returned, if no call failed. -/
def returned : List (Option (Except Failure (List ShapedRow))) → Option Nat
  | [] => some 0
  | some (.ok rows) :: more => (returned more).map (rows.length + ·)
  | _ :: _ => none

/-- The cursor has come from `before` by calls for rows, and the result that was at hand has
given `k`. The first call that asked for a row took the count to zero if it was less; the
rows are counted from there, up to the greatest row count. -/
structure Counts (before : Cursor) (asked : Bool) (k : Nat) (c : Cursor) : Prop where
  executed : c.executed = true
  arraySize : c.arraySize = before.arraySize
  rows : ∃ first rows, before.rows = some first ∧ c.rows = some rows ∧
    first.result.Same rows.result ∧ rows.Settled ∧ rows.rows = k
  unasked : asked = false → k = 0 ∧ c.rowCount = before.rowCount
  counted : asked = true → c.rowCount.toInt = (min (before.counted + k) maxCount : Nat)

/-- What a call answers that takes `n` rows after `k` others: rows if all can be counted, and
a panic only if they cannot. -/
def Told (before : Cursor) (k n : Nat) : Except Failure (List ShapedRow) → Prop
  | .ok rows => rows.length = n ∧ (n = 0 ∨ before.counted + (k + n) ≤ maxCount)
  | .error (.panic .overflow) => maxCount < before.counted + (k + n)
  | .error (.panic .capacity) => False
  | .error (.error _) => True

/-- What calls answer that take `n` rows after `k` others: no other panics than of a count
that overflows, and of calls that are oversized. -/
structure AllTold (before : Cursor) (k n : Nat) (oversized : Bool)
    (answers : List (Option (Except Failure (List ShapedRow)))) : Prop where
  returned : ∀ m, returned answers = some m →
    m = n ∧ (n = 0 ∨ before.counted + (k + n) ≤ maxCount)
  overflow : some (.error (.panic .overflow)) ∈ answers → maxCount < before.counted + (k + n)
  capacity : some (.error (.panic .capacity)) ∈ answers ↔ oversized = true

section Fetching

variable {before c : Cursor} {asked : Bool} {k : Nat}

/-- The count that a call for a row starts from. -/
theorem Counts.start (h : Counts before asked k c) :
    c.counted = min (before.counted + k) maxCount := by
  cases asked with
  | false =>
    obtain ⟨rfl, same⟩ := h.unasked rfl
    rw [Nat.add_zero, Nat.min_eq_left before.counted_le, Cursor.counted, same, Cursor.counted]
  | true =>
    rw [Cursor.counted, h.counted rfl]
    rfl

/-- What the rows at hand yield is counted if it is a row, and lost if it cannot be. -/
theorem Counts.afterYield {first rows rows' : Querent.Cursor} {y : Yield}
    (h : Counts before asked rows.rows c) (hfirst : before.rows = some first)
    (same : first.result.Same rows.result) (yielded : rows.Yielded y rows') :
    ∃ n, Counts before true (rows.rows + n) (c.afterYield y rows') ∧
      Told before rows.rows n ((c.fetched y).map Option.toList) := by
  have start := h.start
  -- a row and anything else differ in the count alone
  have counts {n : Nat} (count : rows'.rows = rows.rows + n)
      (counted : (c.afterYield y rows').rowCount.toInt =
        (min (before.counted + (rows.rows + n)) maxCount : Nat)) :
      Counts before true (rows.rows + n) (c.afterYield y rows') :=
    { executed := h.executed
      arraySize := h.arraySize
      rows := ⟨first, rows', hfirst, rfl, same.trans yielded.same, yielded.settled, count⟩
      unasked := nofun
      counted := fun _ => counted }
  obtain ⟨row, rfl, -, count⟩ | ⟨norow, -, count⟩ := yielded.step
  · refine ⟨1, counts count ?_, ?_⟩
    · rw [toInt_rowCount_afterYield_row]
      omega
    · have room : c.room = maxCount - (before.counted + rows.rows) := by
        rw [Cursor.room, start]
        omega
      by_cases fits : 0 < c.room
      · rw [fetched_row fits]
        exact ⟨rfl, Or.inr (by omega)⟩
      · rw [fetched_row_uncounted (Nat.eq_zero_of_not_pos fits)]
        show maxCount < before.counted + (rows.rows + 1)
        omega
  · refine ⟨0, counts count ?_, ?_⟩
    · rw [toInt_rowCount_afterYield norow, start, Nat.add_zero]
    · cases y with
      | row row => exact absurd rfl (norow row)
      | finished => exact ⟨rfl, Or.inl rfl⟩
      | error => exact trivial

/-- A fetch of one row counts it, if there is one. -/
theorem Counts.fetchOne (h : Counts before asked k c) :
    Gives (c.fetchOne L) fun x => ∃ n, Counts before true (k + n) x.2 ∧
      Told before k n (x.1.map Option.toList) := by
  intro w
  obtain ⟨first, rows, hfirst, hrows, same, settled, rfl⟩ := h.rows
  rw [fetchOne_eq h.executed hrows]
  exact h.afterYield hfirst same (Querent.Cursor.next_gives L settled w)

/-- A row that could be counted, and what is answered behind it. -/
theorem Told.cons {row : ShapedRow} {n : Nat} {more : Except Failure (List ShapedRow)}
    (first : before.counted + (k + 1) ≤ maxCount) (h : Told before (k + 1) n more) :
    Told before k (1 + n) (more.map (row :: ·)) := by
  rcases more with (e | (_ | _)) | rows
  · exact trivial
  · show maxCount < before.counted + (k + (1 + n))
    have : maxCount < before.counted + (k + 1 + n) := h
    omega
  · exact h
  · obtain ⟨rfl, counted⟩ := h
    exact ⟨Nat.add_comm _ _, Or.inr (by omega)⟩

theorem Counts.fetchUpTo (n : Nat) (h : Counts before asked k c) :
    Gives (c.fetchUpTo L n) fun x => ∃ m, Counts before (asked || n != 0) (k + m) x.2 ∧
      Told before k m x.1 := by
  induction n generalizing c asked k with
  | zero => exact Gives.pure ⟨0, by simpa using h, rfl, Or.inl rfl⟩
  | succ n ih =>
    have asks : (asked || n + 1 != 0) = true := by simp
    rw [asks]
    refine h.fetchOne.bind fun (row, c') ⟨m, counts, told⟩ => ?_
    rcases row with e | _ | row
    · exact Gives.pure ⟨m, counts, by rcases e with e | (_ | _) <;> exact told⟩
    · exact Gives.pure ⟨m, counts, told⟩
    · obtain ⟨rfl, counted⟩ := told
      refine (ih counts).bind fun (more, c'') ⟨m', counts', told'⟩ => ?_
      refine Gives.pure ⟨1 + m', by simpa [Nat.add_assoc] using counts', ?_⟩
      exact Told.cons (counted.resolve_left Nat.one_ne_zero) told'

/-- Fetching all rows is fetching up to as many as the fuel allows; if there are more they
are not returned. -/
theorem fetchAll_eq (fuel : Nat) (c : Cursor) (w : World σ) :
    (c.fetchAll L fuel w).1.2 = (c.fetchUpTo L fuel w).1.2 ∧
      ∀ rows, (c.fetchAll L fuel w).1.1 = some rows → (c.fetchUpTo L fuel w).1.1 = rows := by
  induction fuel generalizing c w with
  | zero => exact ⟨rfl, nofun⟩
  | succ fuel ih =>
    rcases run : c.fetchOne L w with ⟨⟨e | _ | row, c'⟩, w'⟩
    · rw [fetchAll_of_stop fuel run rfl, fetchUpTo_of_stop fuel run rfl]
      exact ⟨rfl, fun _ hrows => Option.some.inj hrows⟩
    · rw [fetchAll_of_stop fuel run rfl, fetchUpTo_of_stop fuel run rfl]
      exact ⟨rfl, fun _ hrows => Option.some.inj hrows⟩
    · rw [fetchAll_of_row fuel run, fetchUpTo_of_row fuel run]
      obtain ⟨same, told⟩ := ih c' w'
      refine ⟨same, fun rows hrows => ?_⟩
      obtain ⟨more, hmore, rfl⟩ := Option.map_eq_some_iff.mp hrows
      exact congrArg (Except.map (row :: ·)) (told more hmore)

theorem Counts.fetchAll (fuel : Nat) (h : Counts before asked k c) :
    Gives (c.fetchAll L fuel) fun x => ∃ m, Counts before (asked || fuel != 0) (k + m) x.2 ∧
      ∀ answer, x.1 = some answer → Told before k m answer := by
  intro w
  obtain ⟨same, told⟩ := fetchAll_eq (L := L) fuel c w
  obtain ⟨m, counts, answered⟩ := h.fetchUpTo (L := L) fuel w
  refine ⟨m, ?_, ?_⟩
  · rw [same]
    exact counts
  · intro answer hanswer
    rw [told answer hanswer] at answered
    exact answered

/-- What a call for rows answers, one that is oversized included. -/
def FetchCall.Answers (before : Cursor) (k n : Nat) (call : FetchCall)
    (answer : Option (Except Failure (List ShapedRow))) : Prop :=
  if call.oversized before then answer = some (.error (.panic .capacity)) ∧ n = 0
  else ∀ told, answer = some told → Told before k n told

/-- **A call for rows** counts what it takes. -/
theorem Counts.run (fuel : Nat) (call : FetchCall) (h : Counts before asked k c) :
    Gives (call.run L fuel c) fun x => ∃ n,
      Counts before (asked || call.asks fuel before) (k + n) x.2 ∧
      call.Answers before k n x.1 := by
  cases call with
  | one =>
    rw [FetchCall.asks, Bool.or_true]
    refine h.fetchOne.bind fun (row, c') ⟨n, counts, told⟩ => Gives.pure ⟨n, counts, ?_⟩
    rintro _ ⟨⟩
    exact told
  | many size =>
    unfold FetchCall.Answers
    rw [FetchCall.run, FetchCall.asks, FetchCall.oversized, fetchMany, h.arraySize]
    dsimp only
    by_cases room : size.getD before.arraySize ≤ maxReserved
    · rw [if_pos room, decide_eq_true room, Bool.and_true]
      refine (h.fetchUpTo _).bind fun (rows, c') ⟨n, counts, told⟩ => Gives.pure ⟨n, counts, ?_⟩
      rw [if_neg (by simpa using room)]
      rintro _ ⟨⟩
      exact told
    · rw [if_neg room, decide_eq_false room, Bool.and_false, Bool.or_false]
      refine Gives.bind (Gives.pure rfl) ?_
      rintro _ rfl
      refine Gives.pure ⟨0, h, ?_⟩
      rw [if_pos (by simpa using room)]
      exact ⟨rfl, rfl⟩
  | all => exact h.fetchAll fuel

/-- The answers of a call and of those behind it. -/
theorem FetchCall.Answers.cons {call : FetchCall} {n m : Nat} {oversized : Bool}
    {answer : Option (Except Failure (List ShapedRow))}
    {more : List (Option (Except Failure (List ShapedRow)))}
    (h : call.Answers before k n answer) (rest : AllTold before (k + n) m oversized more) :
    AllTold before k (n + m) (call.oversized before || oversized) (answer :: more) := by
  obtain ⟨told, exceeds, capacity⟩ := rest
  rw [Nat.add_assoc] at told exceeds
  unfold FetchCall.Answers at h
  by_cases large : call.oversized before
  · rw [if_pos large] at h
    obtain ⟨rfl, rfl⟩ := h
    refine ⟨nofun, fun hexceeds => exceeds ?_, by simp [large]⟩
    simpa using hexceeds
  · rw [if_neg large] at h
    rw [Bool.eq_false_iff.mpr large, Bool.false_or]
    rcases answer with _ | (e | (_ | _)) | rows
    · exact ⟨nofun, fun hexceeds => exceeds (by simpa using hexceeds), by simpa using capacity⟩
    · exact ⟨nofun, fun hexceeds => exceeds (by simpa using hexceeds), by simpa using capacity⟩
    · have : maxCount < before.counted + (k + n) := h _ rfl
      exact ⟨nofun, fun _ => by omega, by simpa using capacity⟩
    · exact absurd (h _ rfl) id
    · obtain ⟨length, counted⟩ := h _ rfl
      refine ⟨?_, fun hexceeds => exceeds (by simpa using hexceeds), by simpa using capacity⟩
      intro l hl
      obtain ⟨l', hmore, rfl⟩ := Option.map_eq_some_iff.mp hl
      obtain ⟨rfl, counted'⟩ := told l' hmore
      refine ⟨by rw [length], ?_⟩
      omega

/-- **A sequence of calls for rows** counts what they take. -/
theorem Counts.fetches (fuel : Nat) (calls : List (FetchCall × World σ))
    (h : Counts before asked k c) :
    let out := Cursor.fetches L fuel c calls
    ∃ n, Counts before (asked || calls.any (·.1.asks fuel before)) (k + n) out.2 ∧
      AllTold before k n (calls.any (·.1.oversized before)) out.1 := by
  induction calls generalizing c asked k with
  | nil =>
    refine ⟨0, by simpa [Cursor.fetches] using h, ?_, nofun, by simp [Cursor.fetches]⟩
    rintro _ ⟨⟩
    exact ⟨rfl, Or.inl rfl⟩
  | cons first rest ih =>
    obtain ⟨call, w⟩ := first
    obtain ⟨n, counts, answers⟩ := h.run (L := L) fuel call w
    obtain ⟨m, counts', told⟩ := ih counts
    rw [Nat.add_assoc, Bool.or_assoc] at counts'
    exact ⟨n + m, counts', answers.cons told⟩

/-- Nothing has been fetched of the rows that a statement has just given. -/
theorem counts_keep (c : Cursor) (columns : List String) (res : QueryResult)
    {total : Option Nat} (fits : Fits total) :
    let left := (c.reset.keep (.rows columns res)).counting total
    left.rows = some (.ofResult res) ∧ left.rowCount.toInt = total.elim (-1) Int.ofNat ∧
      Counts left false 0 left := by
  have rows : ∃ first rows, some (Querent.Cursor.ofResult res) = some first ∧
      some (Querent.Cursor.ofResult res) = some rows ∧ first.result.Same rows.result ∧
      rows.Settled ∧ rows.rows = 0 :=
    ⟨_, _, rfl, rfl, .refl res, Querent.Cursor.ofResult_settled res, rfl⟩
  cases total with
  | none => exact ⟨rfl, rfl, rfl, rfl, rows, fun _ => ⟨rfl, rfl⟩, nofun⟩
  | some n => exact ⟨rfl, toInt_ofNat fits, rfl, rfl, rows, fun _ => ⟨rfl, rfl⟩, nofun⟩

variable {left : Cursor} {w w' : World σ} {fuel : Nat} {op : String} {seq : List (List Value)}
  {os : List Outcome} {columns : List String} {res : QueryResult}

/-- **Rows are counted on top.** Where the last statement has rows, the row count before
the first fetch is what the statements before it have counted, reports and ends of data,
and -1 only if they counted nothing. From there on the rows of the last statement that were
fetched so far are added to it. What the statements count may be no machine word: then
executing them panics. So does a fetch that would count one row too many, or that asks for
more at once than there can be room for. -/
theorem rows_counted_on_top
    (series : Series L fuel op c w seq (os ++ [.rows columns res]) left w') :
    (¬ Fits (tally none os) → ∃ ran w₁,
      Overflows L fuel op c w seq none (os ++ [.rows columns res]) ran w₁ ∧
      c.executeMany L fuel op seq w = ((some (.error (.panic .overflow)), ran), w₁)) ∧
    (Fits (tally none os) → ∃ before,
      c.executeMany L fuel op seq w = ((some (.ok ()), before), w') ∧
      before.rows = some (.ofResult res) ∧
      before.rowCount.toInt = (tally none os).elim (-1) Int.ofNat ∧
      (tally none os = none ↔ ∀ o ∈ os, o.count? = none) ∧
      ∀ bound calls, let out := fetches L bound before calls
        ∃ k, Counts before (calls.any (·.1.asks bound before)) k out.2 ∧
          AllTold before 0 k (calls.any (·.1.oversized before)) out.1) := by
  have total : tally none (os ++ [.rows columns res]) = tally none os := tally_snoc none _ os
  constructor
  · intro exceeds
    rw [← total] at exceeds
    exact series.executeMany_overflow exceeds
  · intro fits
    have run := series.executeMany (by rw [total]; exact fits)
    rw [series.left_eq, total] at run
    obtain ⟨rows, count, start⟩ := counts_keep c columns res fits
    refine ⟨_, run, rows, count, by simpa using tally_eq_none_iff none os, fun bound calls => ?_⟩
    obtain ⟨k, counts, told⟩ := start.fetches (L := L) bound calls
    rw [Nat.zero_add, Bool.false_or] at counts
    exact ⟨k, counts, told⟩

end Fetching

/-- A status comes first and then a row: the count is -1, and one when the row was fetched. -/
theorem rows_counted_on_top_of_none :
    let c : Cursor := .ofConnection ⟨0⟩
    let world (last : Nat) (rows : Server.Table) (released : List Nat) (executed : List String)
        (holders : Nat) : World State :=
      ⟨{ last, objects := (1, .connection) :: rows, released, executed,
         script := [("r 1", .status), ("r 2", .row [.bool true])] },
        [⟨some ⟨1⟩, "127.0.0.1:55505", holders⟩]⟩
    let after := world 3 [(3, .built 0 [[.bool true]] [])] [2] ["r 1", "r 2"] 2
    ∃ before, c.executeMany library 9 "r %d" [[.int 1], [.int 2]] (world 1 [] [] [] 1) =
        ((some (.ok ()), before), after) ∧ before.rowCount = -1 ∧
      (fetches library 9 before [(.one, after)]).2.rowCount.toInt = 1 := by
  intro c world after
  have status : Comes library 9 c "r %d" [.int 1] (world 1 [] [] [] 1) .nothing
      (world 2 [] [2] ["r 1"] 1) :=
    ⟨"r 1", [], world 1 [] [] [] 1, .new ⟨2⟩ (some 0),
      world 2 [(2, .result .status true Code.ok none .zero)] [] ["r 1"] 2, ⟨rfl, rfl⟩, rfl,
      .nothing rfl rfl (by decide) rfl rfl⟩
  have row : Comes library 9 (c.reset.keep .nothing) "r %d" [.int 2] (world 2 [] [2] ["r 1"] 1)
      (.rows [] ⟨⟨3⟩, some .row, some 0⟩) after :=
    ⟨"r 2", [], world 2 [] [2] ["r 1"] 1, .new ⟨3⟩ (some 0), after, ⟨rfl, rfl⟩, rfl,
      .rows rfl rfl rfl⟩
  have series : Series library 9 "r %d" c (world 1 [] [] [] 1) [[.int 1], [.int 2]]
      ([.nothing] ++ [.rows [] ⟨⟨3⟩, some .row, some 0⟩]) _ after :=
    .cons status (.cons row .nil)
  have fits : Fits (tally none [.nothing]) := Nat.zero_le _
  obtain ⟨before, run, -, count, -, fetched⟩ := (rows_counted_on_top series).2 fits
  obtain ⟨k, counts, told⟩ := fetched 9 [(.one, after)]
  have start : before.counted = 0 := by
    rw [counted, count]
    rfl
  have one : 1 = k := by
    refine (told.returned 1 ?_).1
    cases (series.executeMany fits).symm.trans run
    dsimp only [c, world, after]
    rfl
  refine ⟨before, run, Int64.toInt_inj.mp count, ?_⟩
  rw [counts.counted rfl, start, ← one]
  rfl

/-- A report of three rows comes first and then a row: the count is three before the first
fetch, and four when the one row was fetched. -/
theorem rows_counted_on_report :
    let server :=
      State.scripted [("r 1", .report ⟨3, 0, 0⟩), ("r 2", .row [.bool true])] none 8192
    ∃ con connected, Connection.connect library {} (.start server) = (.ok con, connected) ∧
      ∃ before after, (ofConnection con.inner).executeMany library 9 "r %d" [[.int 1], [.int 2]]
          connected = ((some (.ok ()), before), after) ∧
        before.rowCount = 3 ∧ (before.fetchOne library after).1.2.rowCount = 4 :=
  ⟨_, _, rfl, _, _, rfl, rfl, rfl⟩

end Cursor

end Querent.DbApi
