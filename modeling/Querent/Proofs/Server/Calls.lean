import Querent.Proofs.Server.Accounts
import Querent.Server.Calls

/-!
# The calls of the server keep its accounts

A call on a handle that is held finds what lives there, so nothing is misused;
it leaves one object under that handle, takes it away, or puts a new one under
a handle that was never used.
-/

namespace Querent.Server

variable {h : Handle}

theorem get_of_live {s : State} {item : Item} (hget : s.objects.get? h.number = some item)
    (operation : String) : get h operation s = (some item, s) := by
  simp only [get, bind_apply, get_apply, hget, pure_apply]

theorem remove_eq (s : State) : remove h s =
    (s.objects.get? h.number, { s with objects := s.objects.erase h.number }) := rfl

theorem release_of_live {s : State} {item : Item} (hget : s.objects.get? h.number = some item)
    (kind : ResultKind) : release h kind s = ((), (markReleased h (remove h s).2).2) := by
  simp only [release, bind_apply, remove_eq, hget]
  rfl

theorem execute_of_connected {s : State} (hc : s.connected h) (statement : String) :
    execute h statement s = receive statement s := by
  have hget := get_of_live ((s.connected_iff h).mp hc) "execute"
  simp only [execute, bind_apply, hget]

/-- A connect call is refused, or puts a new connection on the table. -/
theorem connect_eq (request : ConnectRequest) (s : State) :
    connect request s = match s.connectFailure with
      | some code => (.error code, s)
      | none => (.ok ⟨s.last + 1⟩, (alloc .connection s).2) := by
  simp only [connect, bind_apply, get_apply]
  cases s.connectFailure <;> rfl

/-- What `wrap` does to a raw handle that lives. -/
def takeOver (raw : Handle) (item : Item) : StateM State (Option Handle) := do
  let _ ← remove raw
  markReleased raw
  return some (← alloc item)

theorem wrap_of_live {s : State} {item : Item} (hget : s.objects.get? h.number = some item) :
    wrap h s = takeOver h item s := by
  simp only [wrap, takeOver, bind_apply, remove_eq, hget]

theorem wrap_of_gone {s : State} (hget : s.objects.get? h.number = none) :
    wrap h s = (none, s) := by
  simp only [wrap, bind_apply, remove_eq, hget, pure_apply]
  rw [Table.erase_of_get?_none _ _ hget]

/-- What a reply puts under a handle is no connection. -/
theorem Reply.item_ok {r : Reply} {item : Item} (h : r.item = .ok item) :
    State.isConnection item = false := by
  cases r <;> simp only [Reply.item, Except.ok.injEq, reduceCtorEq] at h <;> rw [← h] <;> rfl

/-! ## A new object -/

namespace Accounts

variable {w : World State} {H : Holdings}

theorem fresh (ha : Accounts w H) : w.lib.objects.get? (w.lib.last + 1) = none :=
  ha.bounded _ (Nat.lt_succ_self _)

variable (item : Item)

theorem alloc_get? (ha : Accounts w H) (n : Nat) : (alloc item w.lib).2.objects.get? n =
    if n = w.lib.last + 1 then some item else w.lib.objects.get? n :=
  Table.get?_snoc _ n _ item ha.fresh

theorem alloc_distinct (ha : Accounts w H) :
    ((alloc item w.lib).2.objects.map (·.1)).Nodup := by
  show ((w.lib.objects ++ [(w.lib.last + 1, item)]).map (·.1)).Nodup
  rw [List.map_append, List.nodup_append]
  refine ⟨ha.distinct, List.nodup_singleton _, ?_⟩
  rintro n hn m hm rfl
  obtain ⟨e, he, rfl⟩ := List.mem_map.mp hn
  have live := Table.get?_of_mem ha.distinct he
  rw [List.mem_singleton.mp hm, ha.fresh] at live
  exact absurd live (by simp)

theorem alloc_bounded (ha : Accounts w H) (n : Nat) (hn : (alloc item w.lib).2.last < n) :
    (alloc item w.lib).2.objects.get? n = none := by
  have hn : w.lib.last + 1 < n := hn
  rw [ha.alloc_get?, if_neg (by omega)]
  exact ha.bounded n (by omega)

end Accounts

namespace Keeps

/-- Steps of one call, one after the other. -/
theorem call_bind {α β : Type} {act : StateM State α} {f : α → StateM State β} {pre : Holdings}
    {mid : α → Holdings} {post : β → Holdings} (ha : Keeps (call act) pre mid)
    (hf : ∀ a, Keeps (call (f a)) (mid a) post) : Keeps (call (act >>= f)) pre post :=
  (ha.bind hf : Keeps (call act >>= fun a => call (f a)) pre post)

theorem call_pure {α : Type} {a : α} {pre : Holdings} {post : α → Holdings}
    (h : post a = pre) : Keeps (call (Pure.pure a : StateM State α)) pre post :=
  (Keeps.pure h : Keeps (Pure.pure a : Action State α) pre post)

theorem get (operation : String) :
    Keeps (call (Server.get h operation)) (owns h) fun _ => owns h := by
  intro w F ha
  obtain ⟨item, hget, -⟩ := ha.item_of_owned
  rw [call_apply, get_of_live hget]
  exact ⟨ha, Spares.refl w F⟩

/-- Looking at an object changes nothing. -/
theorem inspect {α : Type} (operation : String) (missing : α) (f : Item → α) :
    Keeps (call (Server.inspect operation missing f h)) (owns h) fun _ => owns h :=
  call_bind (get operation) fun _ => call_pure rfl

/-- A new object under a handle that was never used. -/
theorem alloc {item : Item} (hi : State.isConnection item = false) :
    Keeps (call (Server.alloc item)) 0 owns := by
  intro w F ha
  rw [zero_add] at ha
  have fresh := ha.fresh
  have hget := ha.alloc_get? item
  have old : ∀ i ∈ F.1, i.number ≠ w.lib.last + 1 := by
    intro i hi heq
    have := ha.le_last hi
    omega
  have connected : ∀ i, (Server.alloc item w.lib).2.connected i = w.lib.connected i := by
    intro i
    rw [State.connected, State.connected, hget]
    split
    · next hi' => simp [hi', fresh, hi]
    · rfl
  rw [call_apply]
  refine ⟨ha.retable (Server.alloc item w.lib).2 (ha.alloc_distinct item)
    (ha.alloc_bounded item) ?_ connected (zero_add F.2),
    ⟨rfl, Nat.le_succ _, ?_, ?_, ?_, fun _ h => h⟩, rfl⟩
  · intro i
    show (({⟨w.lib.last + 1⟩} : Multiset Handle) + F.1).count i = _
    rw [Multiset.count_add, ha.results, State.holds, State.holds, hget]
    by_cases hi' : i.number = w.lib.last + 1
    · have : i = ⟨w.lib.last + 1⟩ := congrArg Handle.mk hi'
      simp [this, fresh, hi]
    · have : i ≠ ⟨w.lib.last + 1⟩ := fun h => hi' (congrArg Handle.number h)
      simp [hi', this]
  · intro i hi'
    rw [hget, if_neg (old i hi')]
  · intro i hle hi'
    have : i.number ≠ w.lib.last + 1 := by omega
    rw [State.holds, hget, if_neg this]
    exact hi'
  · exact fun i _ hi' => (connected i).trans hi'

/-- Another object under a handle that is held. -/
theorem put {item : Item} (hi : State.isConnection item = false) :
    Keeps (call (Server.put h item)) (owns h) fun _ => owns h := by
  intro w F ha
  obtain ⟨before, hbefore, hconn⟩ := ha.item_of_owned
  have hget : ∀ n, (Server.put h item w.lib).2.objects.get? n =
      if n = h.number then some item else w.lib.objects.get? n := by
    intro n
    refine (Table.get?_set _ n h.number item).trans ?_
    rw [hbefore]
    rfl
  have holds : ∀ i, (Server.put h item w.lib).2.holds i = w.lib.holds i := by
    intro i
    rw [State.holds, State.holds, hget]
    split
    · next hi' => simp [hi', hbefore, hconn, hi]
    · rfl
  have connected : ∀ i, (Server.put h item w.lib).2.connected i = w.lib.connected i := by
    intro i
    rw [State.connected, State.connected, hget]
    split
    · next hi' => simp [hi', hbefore, hconn, hi]
    · rfl
  rw [call_apply]
  refine ⟨ha.retable (Server.put h item w.lib).2 ?_ ?_ ?_ connected rfl,
    ⟨rfl, le_refl _, ?_, ?_, ?_, fun _ h => h⟩, rfl⟩
  · exact (Table.map_fst_set _ _ _).symm ▸ ha.distinct
  · intro n hn
    have hne : n ≠ h.number := by
      rintro rfl
      rw [ha.bounded _ hn] at hbefore
      exact absurd hbefore (by simp)
    rw [hget, if_neg hne]
    exact ha.bounded n hn
  · exact fun i => (ha.results i).trans (congrArg Bool.toNat (holds i).symm)
  · intro i hi'
    rw [hget, if_neg (ha.ne_of_owned hi')]
  · exact fun i _ hi' => (holds i).trans hi'
  · exact fun i _ hi' => (connected i).trans hi'

/-- Nothing any more under a handle that was held. -/
theorem remove : Keeps (call (Server.remove h)) (owns h) fun _ => 0 := by
  intro w F ha
  obtain ⟨before, hbefore, hconn⟩ := ha.item_of_owned
  have hget : ∀ n, (Server.remove h w.lib).2.objects.get? n =
      if n = h.number then none else w.lib.objects.get? n :=
    fun n => Table.get?_erase _ n h.number
  have connected : ∀ i, (Server.remove h w.lib).2.connected i = w.lib.connected i := by
    intro i
    rw [State.connected, State.connected, hget]
    split
    · next hi => simp [hi, hbefore, hconn]
    · rfl
  rw [call_apply, zero_add]
  refine ⟨ha.retable (Server.remove h w.lib).2 ?_ ?_ ?_ connected (zero_add F.2).symm,
    ⟨rfl, le_refl _, ?_, ?_, ?_, fun _ h => h⟩, rfl⟩
  · exact ha.distinct.sublist (List.filter_sublist.map _)
  · intro n hn
    rw [hget]
    split
    · rfl
    · exact ha.bounded n hn
  · intro i
    have hc := ha.results i
    rw [Prod.fst_add, Multiset.count_add, State.holds] at hc
    rw [State.holds, hget]
    by_cases hi : i.number = h.number
    · have : i = h := congrArg Handle.mk hi
      simp [this, ha.not_mem_of_owned]
    · have hne : i ≠ h := fun h => hi (congrArg Handle.number h)
      simpa [hi, owns, hne] using hc
  · intro i hi
    rw [hget, if_neg (ha.ne_of_owned hi)]
  · intro i _ hi
    rw [State.holds, hget]
    split
    · rfl
    · exact hi
  · exact fun i _ hi => (connected i).trans hi

/-! ## Calls on results and rows -/

theorem release (kind : ResultKind) :
    Keeps (call (Server.release h kind)) (owns h) fun _ => 0 := by
  -- on a handle that is held no branch notes misuse
  have released : Keeps (call (Server.remove h) >>= fun _ => call (markReleased h))
      (owns h) fun _ => 0 := Keeps.remove.bind fun _ =>
        Keeps.quiet fun _ => ⟨rfl, rfl, rfl, rfl, rfl⟩
  intro w F ha
  obtain ⟨item, hget, -⟩ := ha.item_of_owned
  refine released.at_eq ?_ ha
  rw [call_apply, release_of_live hget]
  rfl

theorem openCursor : Keeps (call (Server.openCursor h)) (owns h) fun _ => owns h := by
  refine call_bind (get "cursor_open") fun item => ?_
  split <;> exact call_pure rfl

theorem fetch : Keeps (call (Server.fetch h)) (owns h) fun _ => owns h := by
  refine call_bind (quiet fun _ => ⟨rfl, rfl, rfl, rfl, rfl⟩) fun _ =>
    call_bind (get "cursor_fetch") fun item => ?_
  split
  · exact call_bind (put rfl) fun _ => call_pure rfl
  · exact call_pure rfl

theorem copied (rows : Rows) : Keeps (call (Server.copied rows)) 0 (ifGiven owns) :=
  call_bind (alloc rfl) fun _ => call_pure rfl

theorem copyBatch :
    Keeps (call (Server.copyBatch h)) (owns h) fun made => ifGiven owns made + owns h := by
  refine call_bind (get "cursor_row") fun item => ?_
  split
  · split
    · exact (copied _).making (owns h)
    · exact call_pure (zero_add _)
  · exact call_pure (zero_add _)

theorem copyRow :
    Keeps (call (Server.copyRow h)) (owns h) fun made => ifGiven owns made + owns h := by
  refine call_bind (get "row_copy") fun item => ?_
  split
  · exact (copied _).making (owns h)
  · exact (copied _).making (owns h)
  · exact call_pure (zero_add _)

theorem nextRow : Keeps (call (Server.nextRow h)) (owns h) fun _ => owns h := by
  refine call_bind (get "row_next") fun item => ?_
  split
  · exact call_bind (put rfl) fun _ => call_pure rfl
  · exact call_pure rfl

/-! ## Calls of procedures -/

theorem receive (statement : String) : Keeps (call (Server.receive statement)) 0 (ifMade owns) := by
  refine call_bind (quiet fun _ => ⟨rfl, rfl, rfl, rfl, rfl⟩) fun _ =>
    call_bind (quiet fun _ => ⟨rfl, rfl, rfl, rfl, rfl⟩) fun s => ?_
  split
  · next item h => exact call_bind (alloc (Reply.item_ok h)) fun _ => call_pure rfl
  · exact call_pure rfl

theorem wrap : Keeps (call (Server.wrap h)) (owns h) (ifGiven owns) := by
  intro w F ha
  obtain ⟨item, hget, hitem⟩ := ha.item_of_owned
  have taken : Keeps (call (takeOver h item)) (owns h) (ifGiven owns) :=
    call_bind remove fun _ => call_bind (quiet fun _ => ⟨rfl, rfl, rfl, rfl, rfl⟩) fun _ =>
      call_bind (alloc hitem) fun _ => call_pure rfl
  refine taken.at_eq ?_ ha
  rw [call_apply, wrap_of_live hget]
  rfl

theorem makeRow : Keeps (call Server.makeRow) 0 (ifGiven owns) :=
  call_bind (quiet fun _ => ⟨rfl, rfl, rfl, rfl, rfl⟩) fun _ =>
    call_bind (alloc rfl) fun _ => call_pure rfl

theorem make {item : Item} (hi : State.isConnection item = false) :
    Keeps (call (do return some (← Server.alloc item))) 0 (ifGiven owns) :=
  call_bind (alloc hi) fun _ => call_pure rfl

theorem capacity : Keeps (call (Server.capacity h)) (owns h) fun _ => owns h := by
  refine call_bind (get "row_capacity") fun item => ?_
  split <;> exact call_pure rfl

theorem add (v : Value) : Keeps (call (Server.add h v)) (owns h) fun _ => owns h := by
  refine call_bind (get "add_to_row") fun item => ?_
  split
  · split
    · exact call_pure rfl
    · exact call_bind (put rfl) fun _ => call_pure rfl
  · exact call_pure rfl

theorem closeRow : Keeps (call (Server.closeRow h)) (owns h) fun _ => owns h := by
  refine call_bind (get "close_row") fun item => ?_
  split
  · split
    · exact call_pure rfl
    · exact call_bind (put rfl) fun _ => call_pure rfl
  · exact call_pure rfl

end Keeps

end Querent.Server
