import PolarDB.Buffer.ConsistentSteps

/-!
# The consistent LSN does not decrease

With an empty list no copy buffer is in use, so that the insert position is a lower
bound of all oldest LSNs. Otherwise the head of the list is, and each copy buffer
lowers the result to its own oldest LSN. Values computed before are lower bounds of
both.
-/

namespace PolarDB.Buffer.ConsistentRun

open Lib.Doubly
open Lib.Runs
open Buffer.Bufmgr
open Buffer.FlushOrder

variable {Page Buf : Type} {pool : State Page Buf} {machine : Machine Page Buf} {lsn : XLogRecPtr}
  {proc : Nat}

theorem ListFloor.mono {smaller : XLogRecPtr} (floor : ListFloor pool lsn) (below : smaller ≤ lsn) :
    ListFloor pool smaller :=
  ⟨Nat.le_trans below floor.1, fun buf valid => Nat.le_trans below (floor.2 buf valid)⟩

variable {earlier : List XLogRecPtr}

theorem Inv.computed (inv : Inv machine) {cur lsn : XLogRecPtr}
    (unheld : (machine.procs proc).holds = none) (floor : Floor machine.pool lsn)
    (above : cur ≤ lsn) (later : ∀ value ∈ earlier, value ≤ lsn) :
    Inv ((machine.finish lsn).go proc (.computed cur earlier lsn)) := by
  have finished : Inv (machine.finish lsn) :=
    { inv with floors := List.forall_mem_cons.mpr ⟨floor, inv.floors⟩ }
  exact finished.go _ unheld ⟨floor, above, later⟩

theorem Inv.calScan (inv : Inv machine) {cur lsn res : XLogRecPtr} {idx : Nat}
    (here : machine.procs proc = .scanning cur earlier lsn idx res) :
    Inv (calScan machine proc cur earlier lsn idx res) := by
  have sound := inv.sound here
  have ⟨list, copies, above, later, floor, floors⟩ := sound
  have unheld : (machine.procs proc).holds = none := congrArg Pc.holds here
  unfold ConsistentRun.calScan
  split_ifs with more
  · apply inv.go _ unheld
    have value := combine_scanCopy lsn res (machine.pool.copyBuffers idx).oldestLsn
    -- a lower bound of the copy buffer that is read bounds the new result
    have bounded : ∀ bound, bound ≤ combine lsn res → Floor machine.pool bound →
        bound ≤ combine lsn (scanCopy res (machine.pool.copyBuffers idx).oldestLsn) := by
      intro _ below known
      rw [value]
      split_ifs with absent
      · exact below
      · exact Nat.le_min.mpr ⟨below, known.2 idx more absent⟩
    refine ⟨list, ?_, bounded cur above floor, fun v mem => bounded v (later v mem) (floors v mem),
      floor, floors⟩
    intro cbuf inside inUse
    rw [value]
    rcases Nat.lt_succ_iff_lt_or_eq.mp inside with before | rfl
    · split_ifs with absent
      · exact copies cbuf before inUse
      · exact Nat.le_trans (Nat.min_le_left _ _) (copies cbuf before inUse)
    · rw [if_neg inUse]
      exact Nat.min_le_right _ _
  · refine inv.computed unheld ⟨list.mono (combine_le lsn res), ?_⟩ above later
    intro cbuf inside
    exact copies cbuf (Nat.lt_of_lt_of_le inside (Nat.le_of_not_lt more))

theorem Inv.setConsistentLsn (inv : Inv machine) {cur lsn : XLogRecPtr}
    (here : machine.procs proc = .computed cur earlier lsn) :
    Inv ({ machine with consistentLsn := max machine.consistentLsn lsn }.go proc .idle) := by
  have sound := inv.sound here
  have raised : Floor machine.pool (max machine.consistentLsn lsn) := by
    rcases Nat.le_total machine.consistentLsn lsn with below | below
    · rw [Nat.max_eq_right below]
      exact sound.1
    · rw [Nat.max_eq_left below]
      exact inv.stored
  have stored : Inv { machine with consistentLsn := max machine.consistentLsn lsn } :=
    { inv with stored := raised }
  exact stored.go .idle (congrArg Pc.holds here) trivial

theorem inv_start {insertRecPtr consistentLsn : XLogRecPtr} {copies : Nat}
    {storage : Page → List XLogRecPtr} (positive : invalidXLogRecPtr < insertRecPtr)
    (known : consistentLsn ≤ insertRecPtr) : Inv
    (startMachine (startState insertRecPtr copies storage : State Page Buf) consistentLsn) where
  order := ordered_start positive
  uncopied := fun _ _ => rfl
  paired := fun _ inUse => absurd rfl inUse
  floors := nofun
  stored := ⟨⟨known, fun _ valid => absurd rfl valid⟩, fun _ _ valid => absurd rfl valid⟩
  procs := fun _ => trivial

variable [DecidableEq Buf]

theorem Inv.floor_of_empty (inv : Inv machine) (empty : polarFlushListIsEmpty machine.pool = true) :
    Floor machine.pool machine.pool.insertRecPtr := by
  have isEmpty := of_decide_eq_true empty
  have unlisted : ∀ buf, oldestOf machine.pool buf ≠ invalidXLogRecPtr → False := by
    intro buf present
    have ⟨first, isFirst⟩ := inv.order.first_exists present
    rw [isFirst] at isEmpty
    cases isEmpty.1
  refine ⟨⟨Nat.le_refl _, fun buf present => (unlisted buf present).elim⟩, ?_⟩
  intro cbuf _ inUse
  have ⟨buf, present, _⟩ := inv.paired cbuf inUse
  exact (unlisted buf present).elim

theorem first_of_nonempty (order : InOrder pool) (nonempty : polarFlushListIsEmpty pool = false) :
    ∃ first, pool.flushCtl.first = .node first ∧ oldestOf pool first ≠ invalidXLogRecPtr := by
  have ⟨nodes, threads, _, members⟩ := order.listed
  cases nodes with
  | nil =>
    have first : pool.flushCtl.first = .endOfList := threads.first
    have last : pool.flushCtl.last = .endOfList := threads.last
    unfold polarFlushListIsEmpty at nonempty
    rw [first, last] at nonempty
    simp at nonempty
  | cons first => exact ⟨first, threads.first, (members first).mp List.mem_cons_self⟩

theorem Inv.calHead (inv : Inv machine) {cur : XLogRecPtr}
    (here : machine.procs proc = .reading cur) : Inv (calHead machine proc cur) := by
  have floor := inv.sound here
  have unheld : (machine.procs proc).holds = none := congrArg Pc.holds here
  unfold ConsistentRun.calHead
  cases empty : polarFlushListIsEmpty machine.pool with
  | true =>
    exact inv.computed unheld (inv.floor_of_empty empty) floor.1.1 fun value mem =>
      (inv.floors value mem).1.1
  | false =>
    have ⟨first, isFirst, present⟩ := first_of_nonempty inv.order empty
    rw [isFirst]
    apply inv.go _ unheld
    · have list : ListFloor machine.pool (oldestOf machine.pool first) :=
        ⟨inv.order.bound first, fun buf valid => inv.order.first_le isFirst valid⟩
      exact ⟨list, fun _ inside => absurd inside (Nat.not_lt_zero _), floor.1.2 first present,
        fun value mem => (inv.floors value mem).1.2 first present, floor, inv.floors⟩

theorem step_keeps {event : Event} {after : Machine Page Buf} (inv : Inv machine)
    (step : Step event machine after) : Inv after := by
  cases step with
  | lock proc buf free => exact inv.setUse fun _ _ => not_busy_of_free free
  | unlock proc buf held => exact inv.setUse fun _ _ => by rw [held]; exact nofun
  | markDirty proc buf held marked =>
      exact inv.markDirty (fun _ => by rw [held]; exact nofun) marked
  | insert size => exact inv.insert size
  | copyStart proc buf cbuf _ here free uncopied valid =>
      exact inv.copyStart here free uncopied valid
  | copyStamp proc buf cbuf here => exact inv.copyStamp here
  | copyAttach proc buf cbuf here => exact inv.copyAttach here
  | releaseStart proc buf reset here free => exact inv.releaseStart here free
  | detach proc buf reset here => exact inv.detach here
  | clear proc buf _ reset here => exact inv.clear here
  | finishRelease proc _ _ here => exact inv.finishRelease here
  | polarGetConsistentLsn proc here =>
    exact inv.go _ (congrArg Pc.holds here) inv.stored
  | calHead proc cur here => exact inv.calHead here
  | calScan proc cur earlier lsn _ _ here => exact inv.calScan here
  | polarSetConsistentLsn _ _ _ _ here => exact inv.setConsistentLsn here

/-- Every computed value is at least those computed before it began, and the update never panics. -/
theorem consistent_lsn_monotone {insertRecPtr consistentLsn cur lsn : XLogRecPtr} {copies : Nat}
    {storage : Page → List XLogRecPtr} {earlier : List XLogRecPtr} (proc : Nat)
    (positive : invalidXLogRecPtr < insertRecPtr) (known : consistentLsn ≤ insertRecPtr)
    (run : Run Step (fun _ _ => True)
      (startMachine (startState insertRecPtr copies storage) consistentLsn) machine)
    (here : machine.procs proc = .computed cur earlier lsn) :
    (∀ value ∈ earlier, value ≤ lsn) ∧
    ∀ xlogReplayFrom, updateConsistentLsnDelta xlogReplayFrom cur lsn = .ok lsn := by
  have inv := run.invariant Inv (inv_start positive known) fun _ _ _ inv step _ =>
    step_keeps inv step
  have sound := inv.sound here
  refine ⟨sound.2.2, ?_⟩
  intro _
  unfold updateConsistentLsnDelta
  rw [if_neg (Nat.not_lt.mpr sound.2.1)]

/-- A buffer is dirtied at 10 and the value 10 computed; behind its flush the next value is the
insert position. -/
theorem flushed_buffer_raises_consistent_lsn : ∃ machine : Machine Unit Unit,
      Run Step (fun _ _ => True) (startMachine (startState 10 1 fun _ => []) 0) machine ∧
      machine.procs 0 = .computed 10 [10] 15 ∧ (∀ value ∈ [10], value ≤ 15) ∧
      ∀ xlogReplayFrom, updateConsistentLsnDelta xlogReplayFrom 10 15 = .ok 15 := by
  have started : Run Step (fun _ _ => True)
      (startMachine (startState 10 1 fun _ => [] : State Unit Unit) 0) _ := .refl
  have locked := started.snoc (.lock 1 () rfl)
  have dirtied := locked.snoc (.markDirty 1 () rfl rfl)
  have unlocked := dirtied.snoc (.unlock 1 () rfl)
  have got := unlocked.snoc (.polarGetConsistentLsn 0 rfl)
  have head := got.snoc (.calHead 0 0 rfl)
  have scanned := head.snoc (.calScan 0 0 [] 10 0 0 rfl)
  have computed := scanned.snoc (.calScan 0 0 [] 10 1 0 rfl)
  have stored := computed.snoc (.polarSetConsistentLsn 0 0 [] 10 rfl)
  have inserted := stored.snoc (.insert 5)
  have begun := inserted.snoc (.releaseStart 1 () true rfl rfl)
  have detached := begun.snoc (.detach 1 () true rfl)
  have released := detached.snoc (.finishRelease 1 () true rfl)
  have again := released.snoc (.polarGetConsistentLsn 0 rfl)
  have empty := again.snoc (.calHead 0 10 rfl)
  refine ⟨_, empty, rfl, ?_⟩
  exact consistent_lsn_monotone 0 (by decide) (by decide) empty rfl

end PolarDB.Buffer.ConsistentRun
