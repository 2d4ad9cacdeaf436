import Mathlib.Algebra.Order.BigOperators.Group.Finset
import Mathlib.Data.Prod.Lex
import PolarDB.ProcPool.PoolRun

/-!
# Every task is handled once, in order

Safety is read off the invariant. That every task is handled in the end follows
from a measure, the tasks not handled yet and then what the workers have to do
before they fetch again: no step but a new task and a repeated one raises it,
every step that brings a worker forward lowers it, and when no worker has
anything to do, every task is handled.
-/

namespace PolarDB.ProcPool.Pool

open Function List ProcPool.Sched
open ProcPool.Execution

variable {Tag : Type} [DecidableEq Tag] {sys next : System Tag} {start fetched : Nat → Nat}
  {event : Event}

section
variable (inv : Inv sys start fetched)
include inv

theorem Inv.completed_nodup : sys.completed.Nodup := by
  apply nodup_iff_count_le_one.mpr
  intro task
  have within := (inv.ledger.ordered task.tag).sublist.count_le task
  rw [count_filter (by simp), count_filter (by simp)] at within
  exact within.trans (nodup_iff_count_le_one.mp inv.history.nodup task)

theorem Inv.completed_added {task : Placed Tag} (mem : task ∈ sys.completed) :
    task ∈ sys.added := by
  have inFilter : task ∈ sys.completed.filter fun other => other.tag = task.tag :=
    mem_filter.mpr ⟨mem, by simp⟩
  exact (mem_filter.mp ((inv.ledger.ordered task.tag).subset inFilter)).1

theorem Inv.one_handler {proc other : Nat} {task otherTask : NodeId}
    (handling : (sys.worker proc).activity = .handling task)
    (otherHandling : (sys.worker other).activity = .handling otherTask)
    (sameTag : (sys.sched.taskNodes task).tag = (sys.sched.taskNodes otherTask).tag) :
    proc = other := by
  have mine := inv.hands.in_handler handling mem_cons_self
  have others := inv.hands.in_handler otherHandling mem_cons_self
  -- before and behind the running task of the chain nothing runs
  obtain ⟨tag, _, _, hasTag, whole, finished, -, held⟩ := inv.busy_chain handling mem_cons_self
  have othersIn : otherTask ∈ sys.sched.taskHash tag := by
    rw [inv.chains.member, others.2.2.2]
    exact ⟨others.2.1, sameTag ▸ hasTag, nofun⟩
  rw [whole] at othersIn
  have same : otherTask = task := by
    rcases mem_append.mp othersIn with early | late
    · have isFinished := finished otherTask early
      rw [others.2.2.2] at isFinished
      cases isFinished
    · rcases mem_cons.mp late with isTask | later
      · exact isTask
      · have isHeld := (held otherTask later).1
        rw [others.2.2.2] at isHeld
        cases isHeld
  rw [← mine.1, ← others.1, same]

/-- A node that was given to a later task: the earlier one was handled and removed. -/
theorem Inv.reused_node {early late : Placed Tag} (earlyIn : early ∈ sys.added)
    (lateIn : late ∈ sys.added) (sameNode : early.node = late.node) (order : early.seq < late.seq) :
    early ∈ sys.completed ∧ early ∈ sys.removed := by
  have history := inv.history
  have earlyPlaced := history.placed early earlyIn
  have latePlaced := history.placed late lateIn
  have before : early.position < late.position :=
    (history.along early earlyIn late lateIn (by rw [sameNode])).mp order
  have notLive : ¬ Live start early := by
    intro live
    have window := (inv.rings.window late.node.proc).2
    rw [Live, sameNode] at live
    apply Lib.Circular.mod_ne_of_lt before
      (show late.position < early.position + sys.sched.taskQueueDepth by omega)
    rw [← earlyPlaced.2.1, ← latePlaced.2.1, sameNode]
  exact ⟨(inv.ledger.isOver early earlyIn).mpr fun live => absurd live notLive,
    inv.ledger.gone early earlyIn fun live => absurd live notLive⟩

end

def rank : Activity → Nat
  | .handling _ => 0
  | .fetching => 1
  | .releasing _ => 2
  | .handled _ => 3

def effort (sub : SubTask) : Nat := rank sub.activity + delays sub.repeatTasks

def uncompleted (sys : System Tag) : Nat :=
  (sys.added.filter fun task => task ∉ sys.completed).length

def workLeft (sys : System Tag) : Nat ×ₗ Nat :=
  toLex (uncompleted sys, ∑ proc ∈ Finset.range sys.sched.totalProc, effort (sys.worker proc))

def AtRest (sys : System Tag) : Prop := ∀ proc, proc < sys.sched.totalProc → ¬ Occupied sys proc

variable {proc : Nat} {placed : Placed Tag}

section
variable (total : next.sched.totalProc = sys.sched.totalProc) (added : next.added = sys.added)
  (completed : next.completed = sys.completed)
include total added completed

theorem workLeft_lt {sub : SubTask}
    (workers : next.worker = update sys.worker proc sub) (within : proc < sys.sched.totalProc)
    (less : effort sub < effort (sys.worker proc)) : workLeft next < workLeft sys := by
  have sameTasks : uncompleted next = uncompleted sys := by
    rw [uncompleted, uncompleted, added, completed]
  rw [workLeft, workLeft, sameTasks, total, workers]
  apply Prod.Lex.toLex_lt_toLex.mpr
  refine .inr ⟨rfl, Finset.sum_lt_sum ?_ ⟨proc, Finset.mem_range.mpr within, ?_⟩⟩
  · intro _ _
    rw [update_apply]
    split_ifs with same
    · rw [same]
      exact less.le
    · rfl
  · rw [update_self]
    exact less

theorem workLeft_congr (workers : ∀ proc, effort (next.worker proc) = effort (sys.worker proc)) :
    workLeft next = workLeft sys := by
  have sameTasks : uncompleted next = uncompleted sys := by
    rw [uncompleted, uncompleted, added, completed]
  rw [workLeft, workLeft, sameTasks, total]
  simp only [workers]

end

section
variable {task : NodeId} (inv : Inv sys start fetched)
  (handling : (sys.worker proc).activity = .handling task) (known : placed ∈ sys.added)
  (same : placed.seq = (sys.sched.taskNodes task).addSeq)
include inv handling known same

theorem Inv.not_completed : placed ∉ sys.completed := by
  obtain ⟨isNode, live, -, notOver⟩ := inv.task_in_handler handling known same
  intro completed
  have isOver := (inv.ledger.isOver placed known).mp completed live
  rw [isNode] at isOver
  exact notOver isOver

theorem Inv.uncompleted_handled :
    (sys.added.filter fun other => other ∉ sys.completed ++ [placed]).length < uncompleted sys := by
  have notCompleted := inv.not_completed handling known same
  have narrower : (sys.added.filter fun other => other ∉ sys.completed ++ [placed]) =
      (sys.added.filter fun other => other ∉ sys.completed).filter fun other => other ≠ placed := by
    rw [filter_filter]
    apply filter_congr
    intro _ _
    simp [and_comm]
  rw [narrower, uncompleted, length_filter_lt_length_iff_exists]
  exact ⟨placed, mem_filter.mpr ⟨known, by simpa using notCompleted⟩, by simp⟩

end

omit [DecidableEq Tag] in
theorem Bounds.fetching (bounds : Bounds sys)
    (rest : AtRest sys) (proc : Nat) :
    (sys.worker proc).activity = .fetching := by
  by_contra active
  exact rest proc (bounds.within active) (.inl active)

section
variable (inv : Inv sys start fetched)
include inv

theorem Inv.advances (bounds : Bounds sys) (step : Step event sys next)
    (advances : Advances sys event) : workLeft next < workLeft sys := by
  cases step with
  | add | mark | reset | choose | notHandled => exact advances.elim
  | @fetch _ res proc within fetching ok =>
    obtain ⟨_, _, isResult, left⟩ := inv.fetch fetching
    rw [ok] at isResult
    injection isResult with same
    rw [← same] at left
    have less : effort (afterFetch res) < effort (sys.worker proc) := by
      rw [effort, effort, fetching]
      cases isFound : res.1 with
      | some task =>
        have handling : (afterFetch res).activity = .handling task := by rw [afterFetch, isFound]
        have sameDelays : (afterFetch res).repeatTasks = res.2.repeatTasks := by
          rw [afterFetch, isFound]
        have fewer := left.fewer
        rw [handling, sameDelays]
        simp only [rank]
        omega
      | none =>
        have unchanged : afterFetch res = res.2 := by rw [afterFetch, isFound]
        rw [unchanged, left.activity]
        rcases advances with isSome | repeats
        · exact absurd isFound isSome
        · exact Nat.add_lt_add_left (left.less isFound repeats) _
    exact workLeft_lt rfl rfl rfl rfl within less
  | handled proc task _ handling known same =>
    apply Prod.Lex.toLex_lt_toLex.mpr
    exact .inl (inv.uncompleted_handled handling known same)
  | finish proc task handled =>
    have within :=
      bounds.within (show (sys.worker proc).activity ≠ .fetching by rw [handled]; exact nofun)
    have less : effort { sys.worker proc with
        activity := .releasing (markTaskFinished sys.sched task).2 } < effort
          (sys.worker proc) := by
      rw [effort, effort, handled]
      simp only [rank]
      omega
    exact workLeft_lt rfl rfl rfl rfl within less
  | release proc successor releasing =>
    have within :=
      bounds.within (show (sys.worker proc).activity ≠ .fetching by rw [releasing]; exact nofun)
    have less : effort { sys.worker proc with activity := .fetching } < effort
      (sys.worker proc) := by
      rw [effort, effort, releasing]
      simp only [rank]
      omega
    cases successor with
    | none | some => exact workLeft_lt rfl rfl rfl rfl within less

theorem Inv.idles (step : Step event sys next) (settled : Settled event)
    (idle : ¬ Advances sys event) : workLeft next = workLeft sys ∧ next.added = sys.added := by
  cases step with
  | add proc _ within => exact absurd rfl settled.1
  | mark task _ done =>
    exact ⟨workLeft_congr (schedProcMarkFinishedTasksRemoved_marks done).total rfl rfl fun _ => rfl,
      rfl⟩
  | reset | choose => exact ⟨workLeft_congr rfl rfl rfl fun _ => rfl, rfl⟩
  | @fetch _ res proc within fetching ok =>
    obtain ⟨_, _, isResult, left⟩ := inv.fetch fetching
    rw [ok] at isResult
    injection isResult with same
    rw [← same] at left
    have nothing : res.1 = none ∧ (sys.worker proc).repeatTasks = [] := by
      unfold Advances at idle
      rw [not_or, not_not, not_not] at idle
      exact idle
    have unchanged : afterFetch res = res.2 := by rw [afterFetch, nothing.1]
    have noDelays : delays res.2.repeatTasks = delays (sys.worker proc).repeatTasks := by
      have fewer := left.fewer
      rw [nothing.2] at fewer ⊢
      exact Nat.le_zero.mp fewer
    refine ⟨workLeft_congr rfl rfl rfl ?_, rfl⟩
    intro other
    change effort (update sys.worker proc (afterFetch res) other) = _
    rw [update_apply]
    split_ifs with isProc
    · rw [isProc, unchanged, effort, effort, left.activity, fetching, noDelays]
    · rfl
  | notHandled proc task handling => exact absurd rfl (settled.2 proc)
  | handled | finish | release => exact absurd trivial idle

theorem Inv.not_running (rest : AtRest sys) {node : NodeId}
    (fetching : (sys.worker node.proc).activity = .fetching)
    (occupied : (sys.sched.taskNodes node).addSeq ≠ 0) : (sys.sched.taskNodes node).status ≠
    .running := by
  intro running
  obtain ⟨task, mem, isNode, _, isSeq, -⟩ := task_of_node inv.rings occupied
  have placed := inv.history.placed task mem
  rw [isNode] at placed
  have notOccupied := rest node.proc placed.1
  obtain ⟨res, _, ok, left⟩ := inv.fetch fetching
  have nothing : res.1 = none := by
    cases isFound : res.1 with
    | none => rfl
    | some found =>
      have isPair : res = (some found, res.2) := by rw [← isFound]
      rw [isPair] at ok
      exact absurd (.inr (.inr ⟨found, res.2, ok⟩)) notOccupied
  have noRepeats : (sys.worker node.proc).repeatTasks = [] := by
    by_contra repeats
    exact notOccupied (.inr (.inl repeats))
  have unchanged : afterFetch res = res.2 := by rw [afterFetch, nothing]
  have keeps := left.inv
  rw [unchanged] at keeps
  -- the worker has the task in its hands by now
  have seen : (sys.sched.taskNodes node).addSeq ≤ res.2.maxFetchSeq := by
    have reading :=
      (keeps.fetched.seq task mem).mpr (by rw [isNode, left.all nothing]; exact placed.2.2)
    rw [isNode, setWorker_worker, isSeq] at reading
    exact reading
  have inHands := (keeps.hands.member node.proc node).mpr ⟨rfl,
    occupied, by rw [setWorker_worker]; exact seen, .inl running⟩
  have emptyRepeats : res.2.repeatTasks.map Prod.fst = [] := by
    have same := left.repeated nothing
    rw [noRepeats] at same
    exact same.eq_nil
  rw [setWorker_worker, inHand, left.activity, emptyRepeats] at inHands
  have held := left.held nothing node inHands
  rw [running] at held
  cases held

/-- At rest every task of a chain is finished: nobody is about to release the first one that is
not. -/
theorem Inv.rest_chain (bounds : Bounds sys) (rest : AtRest sys) {tag : Tag}
    {node : NodeId} (mem : node ∈ sys.sched.taskHash tag) : (sys.sched.taskNodes node).status =
    .finished := by
  have fetching := bounds.fetching rest
  obtain ⟨done, waitingPart, whole, finished, waiting⟩ := inv.chains.shape tag
  cases waitingPart with
  | nil =>
    rw [whole, append_nil] at mem
    exact finished node mem
  | cons first =>
    have running : (sys.sched.taskNodes first).status = .running := by
      rcases waiting.1 with runs | ⟨-, proc, releasing⟩
      · exact runs.1
      · rw [fetching proc] at releasing
        cases releasing
    have firstIn : first ∈ sys.sched.taskHash tag := by
      rw [whole]
      exact mem_append_right _ mem_cons_self
    have occupied := ((inv.chains.member _ _).mp firstIn).1
    exact absurd running (inv.not_running rest (fetching first.proc) occupied)

theorem Inv.unremoved_chained {task : Placed Tag} (mem : task ∈ sys.added) (live : Live start task)
    (unremoved : (sys.sched.taskNodes task.node).status ≠ .removed) :
    task.node ∈ sys.sched.taskHash task.tag := by
  have stored := inv.rings.live task mem live
  have positive := (inv.history.numbered task mem).1
  exact (inv.chains.member _ _).mpr ⟨by omega, stored.2.1, unremoved⟩

theorem Inv.at_rest (bounds : Bounds sys) (rest : AtRest sys) :
    ∀ task ∈ sys.added, task ∈ sys.completed := by
  intro task mem
  rw [inv.ledger.isOver task mem]
  intro live
  by_contra notOver
  have chained := inv.unremoved_chained mem live fun removed => notOver (.inr (.inl removed))
  exact notOver (.inl (inv.rest_chain bounds rest chained))

end

section

variable {first : System Tag} {states : Nat → System Tag} {events : Nat → Event}

theorem FairSchedule.run (schedule : FairSchedule first states events) (idx : Nat) :
    Run first (states idx) := by
  induction idx with
  | zero =>
    rw [schedule.start]
    exact .refl first
  | succ idx before => exact before.tail (schedule.step idx)

variable (schedule : FairSchedule first states events)
  (known : ∀ idx, (∃ start fetched, Inv (states idx) start fetched) ∧ Bounds (states idx))
  {last : Nat} (settled : ∀ idx, last ≤ idx → Settled (events idx))

include schedule known settled

theorem workLeft_step {idx : Nat} (late : last ≤ idx) :
    workLeft (states (idx + 1)) ≤ workLeft (states idx) := by
  obtain ⟨⟨_, _, inv⟩, bounds⟩ := known idx
  by_cases advances : Advances (states idx) (events idx)
  · exact (inv.advances bounds (schedule.step idx) advances).le
  · exact le_of_eq (inv.idles (schedule.step idx) (settled idx late) advances).1

theorem workLeft_antitone {idx later : Nat} (late : last ≤ idx) (order : idx ≤ later) :
    workLeft (states later) ≤ workLeft (states idx) := by
  induction later, order using Nat.le_induction with
  | base => exact le_rfl
  | succ _ _ before => exact (workLeft_step schedule known settled (by omega)).trans before

/-- From some state on no worker has anything to do. -/
theorem comes_to_rest {idx : Nat} (late : last ≤ idx) :
    ∃ calm, idx ≤ calm ∧ ∀ later, calm ≤ later → AtRest (states later) := by
  generalize isWork : workLeft (states idx) = work
  induction work using WellFoundedLT.induction generalizing idx with
  | ind _ smaller =>
    by_cases rest : ∀ later, idx ≤ later → AtRest (states later)
    · exact ⟨idx, le_rfl, rest⟩
    unfold AtRest at rest
    push Not at rest
    obtain ⟨active, behind, occupied⟩ := rest
    obtain ⟨later, order, advances⟩ := schedule.fair active occupied
    obtain ⟨⟨_, _, inv⟩, bounds⟩ := known later
    have less := inv.advances bounds (schedule.step later) advances
    have fewer := workLeft_antitone schedule known settled late (behind.trans order)
    rw [isWork] at fewer
    obtain ⟨final, _, isRest⟩ := smaller _ (less.trans_le fewer)
      (show last ≤ later + 1 by omega) rfl
    exact ⟨final, by omega, isRest⟩

theorem all_completed :
    ∃ idx, ∀ later, idx ≤ later → ∀ task ∈ (states later).added,
    task ∈ (states later).completed := by
  obtain ⟨idx, late, rest⟩ := comes_to_rest schedule known settled (Nat.le_refl last)
  obtain ⟨⟨_, _, inv⟩, bounds⟩ := known idx
  have finished : uncompleted (states idx) = 0 := by
    rw [uncompleted, length_eq_zero_iff, filter_eq_nil_iff]
    intro task mem
    simpa using inv.at_rest bounds (rest idx le_rfl) task mem
  refine ⟨idx, ?_⟩
  intro later order task mem
  have fewer := workLeft_antitone schedule known settled late order
  have none : uncompleted (states later) = 0 := by
    rcases Prod.Lex.toLex_le_toLex.mp fewer with less | same
    · rw [finished] at less
      exact absurd less (Nat.not_lt_zero _)
    · exact same.1.trans finished
  rw [uncompleted, length_eq_zero_iff, filter_eq_nil_iff] at none
  simpa using none task mem

end

def taskAdded : System Nat :=
  { (startSystem 1 1 : System Nat) with
    sched := polarSchedProcAddTask (startSystem 1 1).sched 0 7
    count := update (fun _ => 0) 0 1
    added := [(startSystem 1 1).placing 0 7] }

def taskFetched : System Nat :=
  taskAdded.setWorker 0
    { holdTasks := [], repeatTasks := [], maxFetchSeq := 1, fetchTaskIdx := 1
      activity := .handling ⟨0, 0⟩ }

def taskHandled : System Nat :=
  { taskFetched.setWorker 0 { taskFetched.worker 0 with activity := .handled ⟨0, 0⟩ } with
    completed := taskAdded.added }

def taskFinished : System Nat :=
  { taskHandled.setWorker 0 { taskHandled.worker 0 with activity := .releasing none } with
    sched := (markTaskFinished taskHandled.sched ⟨0, 0⟩).1 }

def taskReleased : System Nat :=
  taskFinished.setWorker 0 { taskFinished.worker 0 with activity := .fetching }

def nothingFetched : System Nat :=
  taskReleased.setWorker 0 { taskReleased.worker 0 with fetchTaskIdx := 0 }

def taskMarked : System Nat :=
  { nothingFetched with
    sched := TaskSched.setStatus { nothingFetched.sched with
      runningTasks := [], taskHash := update nothingFetched.sched.taskHash 7 [] } ⟨0, 0⟩ .removed
    removed := taskAdded.added }

def taskReset : System Nat := { taskMarked with sched := resetTail taskMarked.sched 0 }

/-- A pool with one worker and room for one task handles a task, removes it and idles. -/
def oneTask : Nat → System Nat
  | 0 => taskAdded
  | 1 => taskFetched
  | 2 => taskHandled
  | 3 => taskFinished
  | 4 => taskReleased
  | 5 => nothingFetched
  | 6 => taskMarked
  | _ => taskReset

def oneTaskEvents : Nat → Event
  | 0 => .fetch 0 (some ⟨0, 0⟩)
  | 1 => .handled 0
  | 2 => .finish 0
  | 3 => .release 0
  | 5 => .mark
  | 6 => .reset
  | _ => .fetch 0 none

omit [DecidableEq Tag] in
theorem not_occupied {sub : SubTask} (total : sys.sched.totalProc = 1)
    (fetching : (sys.worker 0).activity = .fetching) (noRepeats : (sys.worker 0).repeatTasks = [])
    (nothing : fetchWaitingTaskNode sys.sched 0 (sys.worker 0) = .ok (none, sub)) :
    ¬ ∃ proc, proc < sys.sched.totalProc ∧ Occupied sys proc := by
  rintro ⟨proc, within, occupied⟩
  obtain rfl : proc = 0 := by omega
  rcases occupied with active | repeats | ⟨task, other, found⟩
  · exact active fetching
  · exact repeats noRepeats
  · rw [nothing] at found
    cases found

theorem one_task_fair : FairSchedule taskAdded oneTask oneTaskEvents where
  start := rfl
  step := by
    have idles : Step (.fetch 0 none) taskReset (taskReset.setWorker 0 (taskReset.worker 0)) :=
      @Step.fetch Nat _ taskReset (none, taskReset.worker 0) 0 Nat.one_pos rfl rfl
    rw [System.setWorker, update_eq_self] at idles
    intro idx
    rcases idx with _ | _ | _ | _ | _ | _ | _ | _
    · exact @Step.fetch Nat _ taskAdded (some ⟨0, 0⟩, _) 0 Nat.one_pos rfl rfl
    · exact .handled 0 ⟨0, 0⟩ ((startSystem 1 1).placing 0 7) rfl (by decide) rfl
    · exact .finish 0 ⟨0, 0⟩ rfl
    · exact .release 0 none rfl
    · exact @Step.fetch Nat _ taskReleased (none, _) 0 Nat.one_pos rfl rfl
    · exact .mark ⟨0, 0⟩ rfl rfl
    · exact .reset 0 (by decide) rfl rfl
    · exact idles
  settles := by
    refine ⟨0, fun idx _ => ?_⟩
    rcases idx with _ | _ | _ | _ | _ | _ | _ | _ <;> simp [Settled, oneTaskEvents]
  fair := by
    intro idx occupied
    by_cases early : idx ≤ 3
    · exact ⟨3, early, trivial⟩
    · obtain ⟨idx, rfl⟩ := Nat.exists_eq_add_of_le' (Nat.lt_of_not_le early)
      rcases idx with _ | _ | _ | _ <;> exact absurd occupied (not_occupied rfl rfl rfl rfl)

/--
For every run of the pool: no task is handled to completion twice, two tasks of
one tag are never in their handlers together and are completed in the order they
were added, a node is given to another task only after its task was handled and
removed, and every schedule that goes on from here completes every task once.
-/
theorem tasks_handled_once_in_order {totalProc depth : Nat} (positive : 0 < depth)
    {sys : System Tag} (run : Run (startSystem totalProc depth) sys) :
    sys.completed.Nodup ∧ (∀ task ∈ sys.completed, task ∈ sys.added) ∧
    (∀ proc other task otherTask, (sys.worker proc).activity = .handling task →
      (sys.worker other).activity = .handling otherTask →
      (sys.sched.taskNodes task).tag = (sys.sched.taskNodes otherTask).tag → proc = other) ∧
    (∀ tag, (sys.completed.filter fun task => task.tag = tag) <+:
      sys.added.filter fun task => task.tag = tag) ∧
    (∀ early ∈ sys.added, ∀ late ∈ sys.added, early.node = late.node → early.seq < late.seq →
      early ∈ sys.completed ∧ early ∈ sys.removed) ∧
    ∀ states events, FairSchedule sys states events → ∃ idx, ∀ later, idx ≤ later →
      ∀ task ∈ (states later).added, (states later).completed.count task = 1 := by
  obtain ⟨start, fetched, inv⟩ := (Run.known positive run).1
  refine ⟨inv.completed_nodup, fun task => inv.completed_added, ?_, inv.ledger.ordered, ?_, ?_⟩
  · exact fun proc other task otherTask => inv.one_handler
  · exact fun early earlyIn late lateIn => inv.reused_node earlyIn lateIn
  · intro states _ schedule
    have known := fun idx => Run.known positive (Run.trans run (FairSchedule.run schedule idx))
    obtain ⟨_, settled⟩ := schedule.settles
    obtain ⟨idx, completes⟩ := all_completed schedule known settled
    refine ⟨idx, ?_⟩
    intro later order task mem
    obtain ⟨⟨_, _, invLater⟩, -⟩ := known later
    exact count_eq_one_of_mem invLater.completed_nodup (completes later order task mem)

/-- A run in which the second task of a tag waits for the first one, is released and fetched; and a
schedule that goes on for ever. -/
theorem second_task_waits_for_first : (∃ sys : System Nat, Run (startSystem 1 2) sys ∧
    sys.added.length = 2 ∧ sys.completed.length = 1 ∧
    (sys.worker 0).activity = .handling { proc := 0, index := 1 } ∧ sys.completed.Nodup) ∧
    FairSchedule taskAdded oneTask oneTaskEvents ∧ ∃ idx, ∀ later, idx ≤ later →
      ∀ task ∈ (oneTask later).added, (oneTask later).completed.count task = 1 := by
  have started : Run (startSystem 1 2 : System Nat) _ := .refl _
  have one := started.tail (.add 0 7 (by decide) rfl)
  have two := one.tail (.add 0 7 (by decide) rfl)
  have fetched := two.tail (.fetch 0 (by decide) rfl rfl)
  have handled :=
    fetched.tail (.handled 0 _ ((startSystem 1 2 : System Nat).placing 0 7) rfl (by decide) rfl)
  have finished := handled.tail (.finish 0 _ rfl)
  have released := finished.tail (.release 0 _ rfl)
  have again := released.tail (.fetch 0 (by decide) rfl rfl)
  have given : Run (startSystem 1 1) taskAdded := (Run.refl _).tail (.add 0 7 (by decide) rfl)
  refine ⟨⟨_, again, rfl, rfl, rfl, (tasks_handled_once_in_order (by decide) again).1⟩,
    one_task_fair, ?_⟩
  exact (tasks_handled_once_in_order (by decide) given).2.2.2.2.2 _ _ one_task_fair

end PolarDB.ProcPool.Pool
