import Querent.Procedure.RowBuilder
import Querent.Proofs.Server.Iteration
import Querent.Proofs.Workspace.Ownership

/-!
# Building rows on the server

Two tables say how many bytes a value takes, one before the server is asked and
one on the server. The first asks for at least one byte more than the second
takes, so that the end of the row always fits after a value that was added, as long
as no capacity reaches the bound at which the first table stops counting.

A row result in the making is a sheet: the bytes left, the rows that were ended and
the one at hand. What a builder is asked does to the sheet what the plain step
`Sheet.apply` does, or nothing.
-/

namespace Querent

open Server (Rows State Item Stands Accounts Holdings Course library installation)

/-! ## The bytes of a value -/

/-- The bytes that a value takes in a row, for its type and its content. -/
def Value.bytes : Value → Nat
  | null => 1
  | bool _ => 2
  | text s => s.utf8ByteSize + 2
  | _ => 9

/-- A value that is let pass leaves a byte for the end of the row. -/
theorem bytes_lt_of_required {v : Value} {capacity : Int32} (hmax : capacity < Int32.maxValue)
    (h : requiredCapacity v ≤ capacity) : (v.bytes : Int) < capacity.toInt := by
  rw [Int32.lt_iff_toInt_lt, Int32.toInt_maxValue] at hmax
  rw [Int32.le_iff_toInt_le] at h
  cases v with
  | null | bool =>
    have three : (3 : Int32).toInt = 3 := rfl
    simp only [requiredCapacity, Value.bytes, three] at h ⊢
    omega
  | text s =>
    simp only [requiredCapacity, Value.bytes] at h ⊢
    split at h
    · next hlt =>
      rw [Int32.toInt_ofNat_of_lt hlt] at h
      omega
    · -- the table has stopped counting, at a bound that no capacity reaches
      rw [Int32.toInt_maxValue] at h
      omega
  | date | time | float | int | uint =>
    have ten : (10 : Int32).toInt = 10 := rfl
    simp only [requiredCapacity, Value.bytes, ten] at h ⊢
    omega

/-- The server counts right up to the bound of a word. -/
theorem encodedSize_toInt {v : Value} (h : (v.bytes : Int) < 2 ^ 31) :
    (Server.encodedSize v).toInt = v.bytes := by
  cases v with
  | text s =>
    simp only [Server.encodedSize, Value.bytes] at h ⊢
    have two : (2 : Int32).toInt = 2 := rfl
    rw [Int32.toInt_add, Int32.toInt_ofNat_of_lt (by omega), two]
    exact Int.bmod_eq_of_le (by omega) (by omega)
  | null | bool | date | time | float | int | uint => rfl

theorem toInt_sub_of_le {a b : Int32} (hb : 0 ≤ b.toInt) (h : b.toInt ≤ a.toInt) :
    (a - b).toInt = a.toInt - b.toInt := by
  have ha := a.toInt_lt
  rw [Int32.toInt_sub]
  exact Int.bmod_eq_of_le (by omega) (by omega)

/-! ## Edits and sheets -/

/-- What a builder is asked to do. -/
inductive Edit where
  | push (v : Value)
  | close
  deriving DecidableEq, Repr

namespace Edit

def isClose : Edit → Bool
  | push _ => false
  | close => true

def value? : Edit → Option Value
  | push v => some v
  | close => none

/-- The bytes that an edit takes: those of the value, or one for the end of a row. -/
def cost : Edit → Nat
  | push v => v.bytes
  | close => 1

end Edit

/-- The bytes that edits take. -/
def spent : List Edit → Nat
  | [] => 0
  | e :: edits => e.cost + spent edits

/-- The values of edits in order, cut where rows are ended. -/
def pieces (edits : List Edit) : List Row :=
  (edits.splitOnP Edit.isClose).map (List.filterMap Edit.value?)

/-- Nothing before the first piece. -/
theorem modifyHead_nil_append (ps : List Row) : ps.modifyHead ([] ++ ·) = ps := by
  cases ps <;> rfl

theorem pieces_push (v : Value) (edits : List Edit) :
    pieces (.push v :: edits) = (pieces edits).modifyHead (v :: ·) := by
  rw [pieces, pieces, List.splitOnP_cons_eq_if_modifyHead, if_neg (by simp [Edit.isClose])]
  cases edits.splitOnP Edit.isClose <;> rfl

theorem pieces_close (edits : List Edit) : pieces (.close :: edits) = [] :: pieces edits := by
  rw [pieces, pieces, List.splitOnP_cons_eq_if_modifyHead, if_pos (by simp [Edit.isClose])]
  rfl

/-- A row result in the making. -/
structure Sheet where
  capacity : Int32
  rows : Rows
  current : Row

namespace Sheet

variable (s : Sheet)

def item : Item := .built s.capacity s.rows s.current

def fits (v : Value) : Bool := s.capacity > 0 && s.capacity ≥ requiredCapacity v

/-- The edit is carried out. -/
def accepts : Edit → Bool
  | .push v => s.fits v
  | .close => 1 ≤ s.capacity

def apply : Edit → Sheet
  | .push v => ⟨s.capacity - Server.encodedSize v, s.rows, s.current ++ [v]⟩
  | .close => ⟨s.capacity - 1, s.rows ++ [s.current], []⟩

def refusal : Edit → Error
  | .push v => .rowFull (.noRoom v.type s.capacity)
  | .close => .rowFull (.cannotClose Code.tooBig)

/-- The edits that are carried out, one after the other, and the sheet they leave. -/
def run : List Edit → Sheet → List Edit × Sheet
  | [], s => ([], s)
  | e :: edits, s =>
    if s.accepts e then (e :: (run edits (s.apply e)).1, (run edits (s.apply e)).2)
    else run edits s

variable {s}

/-- A value that is added takes its bytes, as both words and numbers count, and leaves
one byte at least. -/
theorem capacity_push {v : Value} (hmax : s.capacity < Int32.maxValue) (h : s.fits v) :
    (Server.encodedSize v).toInt = v.bytes ∧
      (s.capacity - Server.encodedSize v).toInt = s.capacity.toInt - v.bytes ∧
      v.bytes < s.capacity.toInt := by
  have hroom : requiredCapacity v ≤ s.capacity := by
    simp only [fits, Bool.and_eq_true, decide_eq_true_eq] at h
    exact h.2
  have hlt := bytes_lt_of_required hmax hroom
  have hsize := encodedSize_toInt (v := v) (hlt.trans s.capacity.toInt_lt)
  refine ⟨hsize, ?_, hlt⟩
  rw [toInt_sub_of_le (by omega) (by omega), hsize]

theorem capacity_close (h : s.accepts .close) :
    1 ≤ s.capacity.toInt ∧ (s.capacity - 1).toInt = s.capacity.toInt - 1 := by
  have one : (1 : Int32).toInt = 1 := rfl
  have hroom : (1 : Int32).toInt ≤ s.capacity.toInt := by
    simpa only [accepts, decide_eq_true_eq, Int32.le_iff_toInt_le] using h
  refine ⟨one ▸ hroom, ?_⟩
  rw [toInt_sub_of_le (by omega) hroom, one]

/-- An edit that is carried out takes its bytes, and leaves no less than none. -/
theorem capacity_apply {e : Edit} (hmax : s.capacity < Int32.maxValue) (h : s.accepts e) :
    (s.apply e).capacity.toInt = s.capacity.toInt - e.cost ∧
      0 ≤ (s.apply e).capacity.toInt := by
  cases e with
  | push v =>
    obtain ⟨-, hsub, hlt⟩ := capacity_push hmax h
    exact ⟨hsub, (Int.sub_nonneg_of_le hlt.le).trans_eq hsub.symm⟩
  | close =>
    obtain ⟨hone, hsub⟩ := capacity_close h
    exact ⟨hsub, (Int.sub_nonneg_of_le hone).trans_eq hsub.symm⟩

/-- The capacity stays below the bound. -/
theorem apply_lt_maxValue {e : Edit} (hmax : s.capacity < Int32.maxValue) (h : s.accepts e) :
    (s.apply e).capacity < Int32.maxValue := by
  have hcost := (capacity_apply hmax h).1
  rw [Int32.lt_iff_toInt_lt] at hmax ⊢
  omega

/-- After a value was added a row can be ended. -/
theorem accepts_close_push {v : Value} (hmax : s.capacity < Int32.maxValue)
    (h : s.accepts (.push v)) : (s.apply (.push v)).accepts .close := by
  obtain ⟨-, hsub, hlt⟩ := capacity_push hmax h
  have one : (1 : Int32).toInt = 1 := rfl
  simp only [accepts, apply, decide_eq_true_eq, Int32.le_iff_toInt_le, hsub, one]
  omega

/-- What has become of a sheet through the edits that were carried out. -/
structure Becomes (s : Sheet) (edits : List Edit) (s' : Sheet) : Prop where
  capacity : s'.capacity.toInt = s.capacity.toInt - spent edits
  nonneg : 0 ≤ s.capacity.toInt → 0 ≤ s'.capacity.toInt
  rows : s'.rows ++ [s'.current] = s.rows ++ (pieces edits).modifyHead (s.current ++ ·)

/-- **Through all edits.** -/
theorem run_becomes (hmax : s.capacity < Int32.maxValue) (edits : List Edit) :
    s.Becomes (run edits s).1 (run edits s).2 := by
  induction edits generalizing s with
  | nil => exact ⟨by simp [run, spent], fun h => h, by simp [run, pieces]⟩
  | cons e edits ih =>
    rw [run]
    split
    · next h =>
      obtain ⟨hcost, hnonneg⟩ := capacity_apply hmax h
      obtain ⟨capacity, nonneg, rows⟩ := ih (apply_lt_maxValue hmax h)
      refine ⟨?_, fun _ => nonneg hnonneg, ?_⟩
      · rw [capacity, hcost, spent]
        push_cast
        omega
      · rw [rows]
        cases e with
        | push v =>
          rw [pieces_push, List.modifyHead_modifyHead]
          simp [apply, Function.comp_def]
        | close =>
          rw [pieces_close, List.modifyHead_cons, List.append_nil]
          show s.rows ++ [s.current] ++ (pieces _).modifyHead ([] ++ ·) = _
          rw [modifyHead_nil_append, List.append_assoc]
          rfl
    · exact ih hmax

end Sheet

/-! ## Sheets on the server -/

namespace Server

/-- The world with another item under a handle. -/
def placed (w : World State) (h : Handle) (item : Item) : World State :=
  { w with lib := { w.lib with objects := w.lib.objects.set h.number item } }

variable {w : World State} {h : Handle} {r : QueryResult} {i i' : Item}

theorem Stands.placed (hs : Stands w r i) (hplain : i'.Plain) (hsort : i'.sort = i.sort) :
    Stands (placed w r.handle i') r i' where
  bounded := by
    intro n hn
    have hle := hs.le_last
    have hn : w.lib.last < n := hn
    show (w.lib.objects.set r.handle.number i').get? n = none
    rw [Table.get?_set, if_neg (by omega)]
    exact hs.bounded n hn
  there := by
    show (w.lib.objects.set r.handle.number i').get? r.handle.number = some i'
    rw [Table.get?_set, if_pos rfl, hs.there]
    rfl
  plain := hplain
  known := fun k hk => (hs.known k hk).trans hsort.symm

theorem capacity_of_live {s : State} {sheet : Sheet}
    (hget : s.objects.get? h.number = some sheet.item) : capacity h s = (sheet.capacity, s) := by
  rw [capacity, bind_apply, get_of_live hget]
  rfl

theorem add_of_live {sheet : Sheet} (hget : w.lib.objects.get? h.number = some sheet.item)
    (v : Value) : call (add h v) w =
      if encodedSize v ≥ sheet.capacity then (Code.tooBig, w)
      else (Code.ok, placed w h (sheet.apply (.push v)).item) := by
  rw [call_apply, add, bind_apply, get_of_live hget]
  simp only [Sheet.item]
  split <;> rfl

theorem closeRow_of_live {sheet : Sheet} (hget : w.lib.objects.get? h.number = some sheet.item) :
    call (closeRow h) w =
      if sheet.capacity < 1 then (Code.tooBig, w)
      else (Code.ok, placed w h (sheet.apply .close).item) := by
  rw [call_apply, closeRow, bind_apply, get_of_live hget]
  simp only [Sheet.item]
  split <;> rfl

end Server

namespace RowBuilder

/-- The builder of a result that is alive, inside a procedure, with the sheet `s`. -/
structure Writes (w : World State) (b : RowBuilder) (s : Sheet) : Prop where
  stands : Stands w b.result s.item
  alone : b.result.session = none

def perform (b : RowBuilder) : Edit → Action State (Except Error Unit)
  | .push v => b.push library v
  | .close => b.closeRow library

/-- Does all edits, and tells which of them were carried out. -/
def performAll (b : RowBuilder) : List Edit → Action State (List Edit)
  | [] => return []
  | e :: edits => do
    let outcome ← b.perform e
    let accepted ← b.performAll edits
    return if outcome.isOk then e :: accepted else accepted

variable {w : World State} {b : RowBuilder} {s : Sheet}

theorem start_writes {H : Holdings} (ha : Accounts w H) :
    ∃ b w', start library w = (.ok b, w') ∧ Writes w' b ⟨w.lib.rowCapacity, [], []⟩ := by
  refine ⟨⟨.new ⟨w.lib.last + 1⟩ none⟩,
    { w with lib := (Server.alloc (.built w.lib.rowCapacity [] []) w.lib).2 }, rfl, ?_, rfl⟩
  exact ⟨ha.alloc_bounded _, (ha.alloc_get? _ _).trans (if_pos rfl), trivial,
    fun k hk => absurd hk (by simp [QueryResult.new])⟩

namespace Writes

variable (hw : Writes w b s)

include hw

theorem apply (e : Edit) :
    Writes (Server.placed w b.result.handle (s.apply e).item) b (s.apply e) :=
  ⟨hw.stands.placed (by cases e <;> trivial) (by cases e <;> rfl), hw.alone⟩

theorem capacity_eq : b.capacity library w = (s.capacity, w) := by
  show ((Server.capacity b.result.handle w.lib).1,
    (⟨(Server.capacity b.result.handle w.lib).2, w.sessions⟩ : World State)) = _
  rw [Server.capacity_of_live hw.stands.there]

theorem fits_eq (v : Value) : b.fits library v w = (s.fits v, w) := by
  rw [fits, bind_apply, hw.capacity_eq]
  rfl

/-- **What a builder does with an edit**: what the sheet says, or nothing. -/
theorem perform_eq (hmax : s.capacity < Int32.maxValue) (e : Edit) : b.perform e w =
    if s.accepts e then (.ok (), Server.placed w b.result.handle (s.apply e).item)
    else (.error (s.refusal e), w) := by
  cases e with
  | push v =>
    rw [perform, push, bind_apply, hw.fits_eq]
    dsimp only
    by_cases h : s.fits v
    · have accepted : s.accepts (.push v) := h
      obtain ⟨hsize, -, hlt⟩ := Sheet.capacity_push hmax h
      have room : ¬ Server.encodedSize v ≥ s.capacity := by
        rw [ge_iff_le, Int32.le_iff_toInt_le, hsize]
        omega
      have added : call (library.host.add b.result.handle v) w =
          (Code.ok, Server.placed w b.result.handle (s.apply (.push v)).item) :=
        (Server.add_of_live hw.stands.there v).trans (if_neg room)
      rw [if_pos h, if_pos accepted, bind_apply, added]
      rfl
    · have refused : ¬ s.accepts (.push v) := h
      rw [if_neg h, if_neg refused, bind_apply, hw.capacity_eq]
      rfl
  | close =>
    have closed : call (library.host.closeRow b.result.handle) w = _ :=
      Server.closeRow_of_live hw.stands.there
    rw [perform, closeRow, bind_apply, closed]
    have room : s.capacity < 1 ↔ ¬ s.accepts .close := by
      simp [Sheet.accepts, Int32.lt_iff_toInt_lt, Int32.le_iff_toInt_le]
    by_cases h : s.accepts .close
    · rw [if_pos h, if_neg fun hlt => room.mp hlt h]
      rfl
    · rw [if_neg h, if_pos (room.mpr h)]
      rfl

end Writes

/-- Whatever the capacity is, an edit leaves the builder with some sheet. -/
theorem perform_writes (hw : Writes w b s) (e : Edit) : ∃ s', Writes (b.perform e w).2 b s' := by
  cases e with
  | push v =>
    have added : call (library.host.add b.result.handle v) w = _ :=
      Server.add_of_live hw.stands.there v
    rw [perform, push, bind_apply, hw.fits_eq]
    dsimp only
    split
    · rw [bind_apply, added]
      split
      · exact ⟨s, hw⟩
      · exact ⟨s.apply (.push v), hw.apply (.push v)⟩
    · rw [bind_apply, hw.capacity_eq]
      exact ⟨s, hw⟩
  | close =>
    have closed : call (library.host.closeRow b.result.handle) w = _ :=
      Server.closeRow_of_live hw.stands.there
    rw [perform, closeRow, bind_apply, closed]
    split
    · exact ⟨s, hw⟩
    · exact ⟨s.apply .close, hw.apply .close⟩

theorem performAll_writes (hw : Writes w b s) (edits : List Edit) :
    ∃ s', Writes (b.performAll edits w).2 b s' := by
  induction edits generalizing w s with
  | nil => exact ⟨s, hw⟩
  | cons e edits ih =>
    obtain ⟨s', writes⟩ := perform_writes hw e
    exact ih writes

/-- **Through all edits on the server.** -/
theorem performAll_eq (hw : Writes w b s) (hmax : s.capacity < Int32.maxValue) (edits : List Edit) :
    (b.performAll edits w).1 = (s.run edits).1 ∧
      Writes (b.performAll edits w).2 b (s.run edits).2 := by
  induction edits generalizing w s with
  | nil => exact ⟨rfl, hw⟩
  | cons e edits ih =>
    rw [performAll, bind_apply, hw.perform_eq hmax, Sheet.run]
    split
    · next h =>
      obtain ⟨accepted, writes⟩ := ih (hw.apply e) (Sheet.apply_lt_maxValue hmax h)
      exact ⟨congrArg (e :: ·) accepted, writes⟩
    · exact ih hw hmax

end RowBuilder

/-! ## Builders of a program -/

/-- What is left of the capacity `c`, and the rows, after edits that were carried out. -/
structure Accounted (c : Int32) (edits : List Edit) (s : Sheet) : Prop where
  capacity : s.capacity.toInt = c.toInt - spent edits
  nonneg : 0 ≤ c.toInt → 0 ≤ s.capacity.toInt
  rows : s.rows ++ [s.current] = pieces edits

/-- What comes of adding a value: it succeeds if the builder says that the value fits, and
then the row can be ended, and no word overflows on the way; or the row is full, and nothing
changes. -/
structure Pushes (b : RowBuilder) (w : World State) (s : Sheet) (v : Value) : Prop where
  succeeds : (b.push library v w).1 = .ok () ↔ (b.fits library v w).1 = true
  refused : (b.push library v w).1 ≠ .ok () →
    b.push library v w = (.error (.rowFull (.noRoom v.type s.capacity)), w)
  closes : (b.push library v w).1 = .ok () →
    (b.closeRow library (b.push library v w).2).1 = .ok ()
  exact : (b.push library v w).1 = .ok () → (Server.encodedSize v).toInt = v.bytes ∧
    (s.capacity - Server.encodedSize v).toInt = s.capacity.toInt - v.bytes

/-- What comes of ending a row: it is refused, and nothing changes, or no word overflows. -/
structure Closes (b : RowBuilder) (w : World State) (s : Sheet) : Prop where
  refused : (b.closeRow library w).1 ≠ .ok () →
    b.closeRow library w = (.error (.rowFull (.cannotClose Code.tooBig)), w)
  exact : (b.closeRow library w).1 = .ok () → (s.capacity - 1).toInt = s.capacity.toInt - 1

namespace RowBuilder.Writes

variable {w : World State} {b : RowBuilder} {s : Sheet} (hw : Writes w b s)

include hw

theorem pushes (hmax : s.capacity < Int32.maxValue) (v : Value) : Pushes b w s v := by
  have run : b.push library v w = _ := hw.perform_eq hmax (.push v)
  have fits := hw.fits_eq v
  by_cases h : s.accepts (.push v)
  · rw [if_pos h] at run
    refine ⟨?_, ?_, ?_, fun _ => ?_⟩
    · rw [run, fits]
      exact iff_of_true rfl h
    · rw [run]
      exact fun hne => absurd rfl hne
    · intro _
      have closed := (hw.apply (.push v)).perform_eq (Sheet.apply_lt_maxValue hmax h) .close
      rw [if_pos (Sheet.accepts_close_push hmax h)] at closed
      rw [run]
      exact congrArg Prod.fst closed
    · obtain ⟨hsize, hsub, -⟩ := Sheet.capacity_push hmax h
      exact ⟨hsize, hsub⟩
  · rw [if_neg h] at run
    have failed : (b.push library v w).1 ≠ .ok () := by
      rw [run]
      simp
    refine ⟨?_, fun _ => run, fun hok => absurd hok failed, fun hok => absurd hok failed⟩
    rw [fits]
    exact iff_of_false failed h

theorem closes (hmax : s.capacity < Int32.maxValue) : Closes b w s := by
  have run : b.closeRow library w = _ := hw.perform_eq hmax .close
  by_cases h : s.accepts .close
  · rw [if_pos h] at run
    refine ⟨?_, fun _ => (Sheet.capacity_close h).2⟩
    rw [run]
    exact fun hne => absurd rfl hne
  · rw [if_neg h] at run
    refine ⟨fun _ => run, ?_⟩
    rw [run]
    exact fun hok => absurd hok (by simp)

theorem talks : Server.Talks w b.finish := by
  intro id hid
  rw [finish, hw.alone] at hid
  cases hid

/-- The finished result takes the course of the rows that were ended. -/
theorem follows (n : Nat) :
    let out := Cursor.nexts library n (.ofResult b.finish) w
    let course : Course := ⟨Server.shown s.rows, none, 0⟩
    out.1.1 = course.yields n ∧ (course.rows.length < n →
      out.1.2.isDone ∧ out.2.lib.fetches = w.lib.fetches + course.fetches) :=
  hw.stands.follows hw.talks (Server.Takes.built s.capacity s.rows s.current) n

/-- The finished result delivers the rows that were ended. -/
theorem delivers (hrows : s.rows ≠ []) (n : Nat) :
    (Cursor.nexts library n (.ofResult b.finish) w).1.1 =
      (⟨s.rows, none, 0⟩ : Course).yields n := by
  have yields := (hw.follows n).1
  rw [Server.shown_of_ne_nil hrows] at yields
  exact yields

end RowBuilder.Writes

namespace Workspace

/-- **Rows are built as the capacity allows.** In any state that a program can reach, let
the server offer rows of a capacity below the bound. A builder can be started, and after
any edits the row result under its handle accounts for those that were carried out: the
bytes left, the rows ended and the row at hand are as they say. From there every value
is added or refused as the builder foretells, a row is ended or refused, and a cursor over
the finished result yields the rows that were ended, if there are any. -/
theorem rows_built (replies : List (String × Server.Reply)) (failure : Option Code)
    (rowCapacity : Int32) (fuel : Nat) (steps : List Step) (c : Int32) (hc : c < Int32.maxValue) :
    let ws := play installation fuel steps (start (.scripted replies failure rowCapacity))
    let before : World State :=
      { ws.world with lib := { ws.world.lib with rowCapacity := c } }
    ∃ b begun, RowBuilder.start library before = (.ok b, begun) ∧ ∀ edits,
      let accepted := (b.performAll edits begun).1
      let w := (b.performAll edits begun).2
      ∃ s : Sheet, w.lib.objects.get? b.result.handle.number = some s.item ∧
        b.capacity library w = (s.capacity, w) ∧
        Accounted c accepted s ∧
        (∀ v, Pushes b w s v) ∧
        Closes b w s ∧
        (s.rows ≠ [] → ∀ n, (Cursor.nexts library n (.ofResult b.finish) w).1.1 =
          (⟨s.rows, none, 0⟩ : Course).yields n) := by
  intro ws before
  obtain ⟨hobj, -⟩ := Server.State.scripted_fresh replies failure rowCapacity
  have hk := (kept_start hobj).after_play fuel steps
  have ha : Accounts before _ := hk.accounts.of_eq rfl rfl rfl
  obtain ⟨b, begun, run, writes⟩ := RowBuilder.start_writes ha
  refine ⟨b, begun, run, fun edits => ?_⟩
  obtain ⟨accepted, writes⟩ := RowBuilder.performAll_eq writes hc edits
  obtain ⟨capacity, nonneg, rows⟩ := Sheet.run_becomes (s := ⟨c, [], []⟩) hc edits
  have hmax : (Sheet.run edits ⟨c, [], []⟩).2.capacity < Int32.maxValue := by
    have hle : (Sheet.run edits ⟨c, [], []⟩).2.capacity.toInt ≤ c.toInt :=
      capacity.trans_le (Int.sub_le_self _ (Int.natCast_nonneg _))
    rw [Int32.lt_iff_toInt_lt] at hc ⊢
    exact hle.trans_lt hc
  refine ⟨_, writes.stands.there, writes.capacity_eq, ⟨?_, nonneg, ?_⟩, writes.pushes hmax,
    writes.closes hmax, writes.delivers⟩
  · rw [accepted]
    exact capacity
  · rw [accepted, ← modifyHead_nil_append (pieces _)]
    exact rows

/-- A row of twenty-five bytes: the second number does not fit any more, nor does the last
text, while rows can be ended. -/
theorem rows_built_until_full :
    let world := (start (State.scripted [] none 8192)).world
    let before : World State := { world with lib := { world.lib with rowCapacity := 25 } }
    let edits : List Edit := [.push (.int 1), .push (.text "abc"), .push (.bool true),
      .push (.int 2), .close, .push .null, .close, .push (.text "xyz")]
    ∃ b begun, RowBuilder.start library before = (.ok b, begun) ∧
      (b.performAll edits begun).1 = [.push (.int 1), .push (.text "abc"), .push (.bool true),
        .close, .push .null, .close] ∧
      (Cursor.nexts library 3 (.ofResult b.finish) (b.performAll edits begun).2).1.1 =
        [.row [.int 1, .text "abc", .bool true], .row [.null], .finished] := by
  intro world before edits
  obtain ⟨b, begun, run, built⟩ := rows_built [] none 8192 9 [] 25 (by decide)
  refine ⟨b, begun, run, ?_⟩
  have begins : RowBuilder.start library before = (.ok ⟨.new ⟨1⟩ none⟩, _) := rfl
  cases begins.symm.trans run
  obtain ⟨s, -, -, accounted, -, -, delivers⟩ := built edits
  have accepted : (RowBuilder.performAll ⟨.new ⟨1⟩ none⟩ edits
      (RowBuilder.start library before).2).1 = [.push (.int 1), .push (.text "abc"),
        .push (.bool true), .close, .push .null, .close] := by decide +kernel
  have cut : pieces [.push (.int 1), .push (.text "abc"), .push (.bool true), .close,
      .push .null, .close] = [[.int 1, .text "abc", .bool true], [.null]] ++ [[]] := by
    decide +kernel
  obtain ⟨hrows, -⟩ :=
    List.append_inj' ((accounted.rows.trans (congrArg pieces accepted)).trans cut) rfl
  refine ⟨accepted, ?_⟩
  have yields := delivers (by simp [hrows]) 3
  rw [hrows] at yields
  exact yields

end Workspace

end Querent
