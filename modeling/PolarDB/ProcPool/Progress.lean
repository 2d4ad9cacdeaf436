import PolarDB.ProcPool.Removal

/-!
# Every task is removed in the end

Once no worker has anything to do all tasks of the running list are finished, and a dispatcher
that goes on calling `polar_sched_remove_finished_task` empties the list.
-/

namespace PolarDB.ProcPool.Pool

open Function List ProcPool.Sched
open ProcPool.Execution

variable {Tag : Type} [DecidableEq Tag] {sys : System Tag} {start fetched : Nat → Nat}

def polarSchedEmptyRunningTask (sched : TaskSched Tag) : Bool := sched.runningTasks.isEmpty

/-- No assertion of a worker or of the dispatcher fails. -/
structure NoPanic (sys : System Tag) : Prop where
  fetch : ∀ proc, (sys.worker proc).activity = .fetching →
    ∃ res, fetchWaitingTaskNode sys.sched proc (sys.worker proc) = .ok res
  repeats : ∀ proc task, (sys.worker proc).activity = .handling task →
    (sys.sched.taskNodes task).status = .running
  successor : ∀ proc task, (sys.worker proc).activity = .handled task →
    (sys.sched.taskNodes task).nextLatch = true → (markTaskFinished sys.sched task).2 ≠ none
  held : ∀ proc task, (sys.worker proc).activity = .releasing (some task) →
    (sys.sched.taskNodes task).status = .hold
  mark : ∀ task, (sys.sched.taskNodes task).status = .finished →
    ∃ after, schedProcMarkFinishedTasksRemoved sys.sched task = .ok after

theorem Inv.no_panic (inv : Inv sys start fetched) (queued : Queued sys.sched) : NoPanic sys := by
  constructor
  · intro proc fetching
    obtain ⟨res, -, ok, -⟩ := inv.fetch fetching
    exact ⟨res, ok⟩
  · exact fun proc task handling => (inv.hands.in_handler handling mem_cons_self).2.2.2
  · intro proc task handled latch
    have running := (inv.hands.in_handler handled mem_cons_self).2.2.2
    obtain ⟨_, _, _, hasTag, whole, -⟩ := inv.busy_chain handled mem_cons_self
    rw [markTaskFinished_successor inv.chains whole hasTag running, ne_eq, head?_eq_none_iff]
    exact (inv.chains.latch _ _ task _ whole (by rw [running]; exact nofun)).mp latch
  · exact fun proc task releasing => (inv.chains.known task ⟨proc, releasing⟩).2.2
  · intro task finished
    obtain ⟨after, ok, -⟩ := inv.mark_ok queued finished
    exact ⟨after, ok⟩

/-- When all tasks of the running list are finished, `polar_sched_remove_finished_task` is called
then or later, and returns. -/
def RemovesFairly (states : Nat → System Tag) : Prop :=
  ∀ idx, (states idx).sched.runningTasks ≠ [] →
    (∀ node ∈ (states idx).sched.runningTasks,
      ((states idx).sched.taskNodes node).status = .finished) →
    ∃ called returned, idx ≤ called ∧ called ≤ returned ∧
      polarSchedRemoveFinishedTask (states called).sched = .ok (states returned).sched

theorem Inv.ring_nonempty (inv : Inv sys start fetched) {node : NodeId}
    (occupied : (sys.sched.taskNodes node).addSeq ≠ 0) :
    node.proc < sys.sched.totalProc ∧ taskQueueIsEmpty (sys.sched.subProc node.proc) = false := by
  obtain ⟨task, mem, isNode, live, -⟩ := task_of_node inv.rings occupied
  have placed := inv.history.placed task mem
  have ring := inv.rings.ring node.proc
  have window := inv.rings.window node.proc
  rw [Live, isNode] at live
  rw [isNode] at placed
  refine ⟨placed.1, Bool.eq_false_iff.mpr fun empty => ?_⟩
  obtain ⟨same, notFull⟩ : _ ∧ _ := by simpa [taskQueueIsEmpty] using empty
  rw [ring.1, ring.2.1] at same
  have room : sys.count node.proc ≠ start node.proc + sys.sched.taskQueueDepth := by
    rw [ne_eq, ← ring.2.2, notFull]
    exact Bool.false_ne_true
  exact Lib.Circular.mod_ne_of_lt (show start node.proc < sys.count node.proc by omega) (by omega)
    same.symm

/-- At rest the oldest task of every ring is finished or removed, so that a removal makes
progress. -/
theorem Known.rest_fewer {after : TaskSched Tag} (known : Known sys) (rest : AtRest sys)
    (nonempty : sys.sched.runningTasks ≠ [])
    (ok : polarSchedRemoveFinishedTask sys.sched = .ok after) :
    leftToRemove after < leftToRemove sys.sched := by
  obtain ⟨_, _, inv⟩ := known.inv
  obtain ⟨node, mem⟩ := exists_mem_of_ne_nil _ nonempty
  obtain ⟨_, inChain⟩ := (known.queued.member node).mp mem
  have ring := inv.ring_nonempty ((inv.chains.member _ _).mp inChain).1
  obtain ⟨first, firstMember, isNode, isFirst⟩ := inv.tail_task ring.2
  have live : _ ≤ first.position := le_of_eq isFirst.symm
  refine polarSchedRemoveFinishedTask_fewer known ring.1 ok ring.2
    (or_iff_not_imp_right.mpr fun unremoved => ?_)
  rw [← isNode] at unremoved ⊢
  refine inv.rest_chain known.bounds rest (inv.unremoved_chained firstMember ?_ unremoved)
  rw [Live, isNode]
  exact live

section

variable {first : System Tag} {states : Nat → System Tag} {events : Nat → Event}
  (schedule : FairSchedule first states events) (known : ∀ idx, Known (states idx))
  {last : Nat} (settled : ∀ idx, last ≤ idx → Settled (events idx))
include schedule known settled

theorem running_antitone {idx later : Nat} (late : last ≤ idx) (order : idx ≤ later) :
    (states later).sched.runningTasks.length ≤ (states idx).sched.runningTasks.length := by
  induction later, order using Nat.le_induction with
  | base => exact le_rfl
  | succ later order before =>
    obtain ⟨⟨_, _, inv⟩, -, queued⟩ := known later
    exact ((inv.queued_step queued (schedule.step later)).2.1
      (settled later (late.trans order)).1).trans before

theorem leftToRemove_antitone {idx later : Nat} (late : last ≤ idx) (order : idx ≤ later) :
    leftToRemove (states later).sched ≤ leftToRemove (states idx).sched := by
  induction later, order using Nat.le_induction with
  | base => exact le_rfl
  | succ later order before =>
    exact ((known later).leftToRemove_step (schedule.step later)
      (settled later (late.trans order)).1).1.trans before

theorem all_removed (removes : RemovesFairly states) {idx : Nat} (late : last ≤ idx) :
    ∃ later, idx ≤ later ∧ (states later).sched.runningTasks = [] := by
  obtain ⟨calm, order, rest⟩ :=
    comes_to_rest schedule (fun idx => ⟨(known idx).inv, (known idx).bounds⟩) settled late
  -- from here on each call leaves less to remove
  suffices ∀ now, calm ≤ now → ∃ later, now ≤ later ∧ (states later).sched.runningTasks = [] by
    obtain ⟨later, behind, empty⟩ := this calm le_rfl
    exact ⟨later, order.trans behind, empty⟩
  intro now behind
  generalize isLeft : leftToRemove (states now).sched = left
  induction left using Nat.strong_induction_on generalizing now with
  | _ left fewer =>
    by_cases empty : (states now).sched.runningTasks = []
    · exact ⟨now, le_rfl, empty⟩
    obtain ⟨called, returned, after, ends, ok⟩ := removes now empty fun node mem => by
      obtain ⟨_, inChain⟩ := ((known now).queued.member node).mp mem
      obtain ⟨_, _, inv⟩ := (known now).inv
      exact inv.rest_chain (known now).bounds (rest now behind) inChain
    by_cases done : (states called).sched.runningTasks = []
    · exact ⟨called, after, done⟩
    have less := (known called).rest_fewer (rest called (behind.trans after)) done ok
    have bound := leftToRemove_antitone schedule known settled
      (late.trans (order.trans behind)) after
    obtain ⟨later, further, isEmpty⟩ := fewer _ (isLeft ▸ less.trans_le bound) returned
      (by omega) rfl
    exact ⟨later, by omega, isEmpty⟩

end

/-- The worker has marked the first of two tasks as finished and not yet woken the second one. -/
theorem first_finished : ∃ sys : System Nat, Run (startSystem 1 2) sys ∧
    sys.sched.taskHash 7 = [⟨0, 0⟩, ⟨0, 1⟩] ∧ (sys.sched.taskNodes ⟨0, 0⟩).status = .finished ∧
    (sys.sched.taskNodes ⟨0, 1⟩).status = .hold := by
  have started : Run (startSystem 1 2 : System Nat) _ := .refl _
  have added := (started.tail (.add 0 7 (by decide) rfl)).tail (.add 0 7 (by decide) rfl)
  have fetched := added.tail (.fetch 0 (by decide) rfl rfl)
  have handled :=
    fetched.tail (.handled 0 _ ((startSystem 1 2 : System Nat).placing 0 7) rfl (by decide) rfl)
  exact ⟨_, handled.tail (.finish 0 _ rfl), rfl, rfl, rfl⟩

theorem one_task_removes : RemovesFairly oneTask := by
  intro idx nonempty _
  by_cases early : idx ≤ 5
  · exact ⟨5, 7, early, by decide, rfl⟩
  · obtain ⟨idx, rfl⟩ := Nat.exists_eq_add_of_le' (Nat.lt_of_not_le early)
    rcases idx with _ | _ <;> exact absurd rfl nonempty

/--
In every state of a run the unremoved tasks of a tag are chained, finished ones first; the first
unfinished one is running, or held while a worker is about to set it running, and the others are
held. No assertion fails, and every schedule that goes on from here removes all tasks.
-/
theorem pool_makes_progress {totalProc depth : Nat} (positive : 0 < depth) {sys : System Tag}
    (run : Run (startSystem totalProc depth) sys) :
    (∀ task ∈ sys.added, task ∉ sys.removed → task.node ∈ sys.sched.taskHash task.tag) ∧
    (∀ tag, ∃ done rest, sys.sched.taskHash tag = done ++ rest ∧
      (∀ node ∈ done, (sys.sched.taskNodes node).status = .finished) ∧
      Waiting sys.sched.taskNodes (Releasing sys.worker) rest) ∧
    NoPanic sys ∧
    ∀ states events, FairSchedule sys states events → RemovesFairly states →
      ∃ idx, ∀ later, idx ≤ later → polarSchedEmptyRunningTask (states later).sched = true ∧
        ∀ task ∈ (states later).added,
          task ∈ (states later).completed ∧ task ∈ (states later).removed := by
  obtain ⟨⟨_, _, inv⟩, -, queued⟩ := known_of_run positive run
  refine ⟨fun task mem unremoved => ?_, inv.chains.shape, inv.no_panic queued,
    fun states events schedule removes => ?_⟩
  · have left := Classical.not_imp.mp fun gone => unremoved (inv.ledger.gone task mem gone)
    exact inv.unremoved_chained mem left.1 left.2
  · have reached := fun idx => known_of_run positive (Run.trans run (FairSchedule.run schedule idx))
    obtain ⟨last, settled⟩ := schedule.settles
    obtain ⟨idx, late, empty⟩ := all_removed schedule reached settled removes le_rfl
    refine ⟨idx, fun later order => ?_⟩
    have fewer := running_antitone schedule reached settled late order
    rw [empty] at fewer
    have isEmpty := length_eq_zero_iff.mp (Nat.le_zero.mp fewer)
    refine ⟨List.isEmpty_iff.mpr isEmpty, fun task mem => ?_⟩
    obtain ⟨⟨start, _, inv⟩, -, queued⟩ := reached later
    have removed : Live start task → ((states later).sched.taskNodes task.node).status =
      .removed := by
      intro live
      by_contra unremoved
      have there := (queued.member _).mpr ⟨_, inv.unremoved_chained mem live unremoved⟩
      rw [isEmpty] at there
      cases there
    exact ⟨(inv.ledger.isOver task mem).mpr fun live => .inr (.inl (removed live)),
      inv.ledger.gone task mem removed⟩

theorem first_finished_no_panic : (∃ sys : System Nat, Run (startSystem 1 2) sys ∧
    (sys.sched.taskNodes ⟨0, 1⟩).status = .hold ∧ NoPanic sys) ∧
    FairSchedule taskAdded oneTask oneTaskEvents ∧ RemovesFairly oneTask ∧
    ∃ idx, ∀ later, idx ≤ later → polarSchedEmptyRunningTask (oneTask later).sched = true ∧
      ∀ task ∈ (oneTask later).added,
        task ∈ (oneTask later).completed ∧ task ∈ (oneTask later).removed := by
  obtain ⟨sys, run, -, -, held⟩ := first_finished
  have given : Run (startSystem 1 1) taskAdded := (Run.refl _).tail (.add 0 7 (by decide) rfl)
  refine ⟨⟨sys, run, held, (pool_makes_progress (by decide) run).2.2.1⟩, one_task_fair,
    one_task_removes, ?_⟩
  exact (pool_makes_progress (by decide) given).2.2.2 _ _ one_task_fair one_task_removes

theorem chain_without_running : ∃ sys : System Nat, Run (startSystem 1 2) sys ∧
    (∃ node ∈ sys.sched.taskHash 7, (sys.sched.taskNodes node).status = .hold) ∧
    ∀ node ∈ sys.sched.taskHash 7, (sys.sched.taskNodes node).status ≠ .running := by
  obtain ⟨sys, run, chain, finished, held⟩ := first_finished
  refine ⟨sys, run, ?_⟩
  simp [chain, finished, held]

end PolarDB.ProcPool.Pool
