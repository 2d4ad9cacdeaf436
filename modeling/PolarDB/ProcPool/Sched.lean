import Mathlib.Algebra.GroupWithZero.Nat
import Mathlib.Data.List.Basic

/-!
# The task pool

One dispatcher puts tasks into the ring of a worker, tasks of one tag are chained
in the order they were added, and a task is held back until its predecessor in
the chain is finished. A node is named by the worker whose ring it lies in and
its index there. The chain of a tag, a circular list threaded through the nodes
whose head is in the hash table, is the list of its nodes from that head.

The latches only wake processes up; a `nextLatch` says whether one was set.
-/

namespace PolarDB.ProcPool.Sched

open Function

inductive Status where
  | idle
  | running
  | hold
  | finished
  | removed
  deriving DecidableEq, Repr

structure NodeId where
  proc : Nat
  index : Nat
  deriving DecidableEq, Repr

structure TaskNode (Tag : Type) where
  tag : Option Tag
  nextLatch : Bool
  addSeq : Nat
  status : Status
  deriving DecidableEq, Repr

structure SubProc where
  taskHead : Nat
  taskTail : Nat
  ringFull : Bool
  /-- Its process was found to be started. -/
  proc : Bool
  deriving DecidableEq, Repr

structure TaskSched (Tag : Type) where
  totalProc : Nat
  taskQueueDepth : Nat
  taskNodes : NodeId → TaskNode Tag
  addedSeq : Nat
  subProc : Nat → SubProc
  /-- The chain of a tag, empty when the hash table has no entry for it. -/
  taskHash : Tag → List NodeId
  runningTasks : List NodeId
  dstProc : Nat

inductive Panic where
  | previousNotFinished
  | statusIncorrect
  | unexpectedStatus
  deriving DecidableEq, Repr

variable {Tag : Type}

def emptyNode : TaskNode Tag := { tag := none, nextLatch := false, addSeq := 0, status := .idle }

def TaskSched.setNode (sched : TaskSched Tag) (id : NodeId) (node : TaskNode Tag) : TaskSched Tag :=
  { sched with taskNodes := update sched.taskNodes id node }

def TaskSched.setStatus (sched : TaskSched Tag) (id : NodeId) (status : Status) : TaskSched Tag :=
  sched.setNode id { sched.taskNodes id with status := status }

def TaskSched.setSubProc (sched : TaskSched Tag) (proc : Nat) (sub : SubProc) : TaskSched Tag :=
  { sched with subProc := update sched.subProc proc sub }

/-- The owner of a node, from the upper half of its 32-bit status word. -/
def taskNodeProc (id : NodeId) : Nat := id.proc % 2 ^ 16

def advance (depth pos : Nat) : Nat := if pos + 1 = depth then 0 else pos + 1

def taskQueueIsEmpty (sub : SubProc) : Bool := sub.taskHead = sub.taskTail ∧ sub.ringFull = false

section

variable [DecidableEq Tag]

def polarSchedProcAdvanceRing (depth : Nat) (sub : SubProc) : SubProc :=
  let tail := if sub.ringFull then advance depth sub.taskTail else sub.taskTail
  let head := advance depth sub.taskHead
  { sub with taskHead := head, taskTail := tail, ringFull := head = tail }

/-- Chain the node behind the last task of its tag, which is told to release it when unfinished. -/
def polarSchedAddTaskHashTable (sched : TaskSched Tag) (tag : Tag) (id : NodeId) : TaskSched Tag :=
  let chained := { sched with taskHash := update sched.taskHash tag (sched.taskHash tag ++ [id]) }
  match (sched.taskHash tag).getLast? with
  | none => chained.setStatus id .running
  | some previous =>
    if (sched.taskNodes previous).status = .finished then chained.setStatus id .running
    else
      (chained.setNode previous { sched.taskNodes previous with nextLatch := true }).setStatus id
        .hold

def polarSchedProcAddTask (sched : TaskSched Tag) (dstProc : Nat) (tag : Tag) : TaskSched Tag :=
  let sub := sched.subProc dstProc
  let id : NodeId := { proc := dstProc, index := sub.taskHead }
  let copied := sched.setNode id
    { sched.taskNodes id with tag := some tag, status := .idle, addSeq := sched.addedSeq + 1 }
  let queued := { copied with
      addedSeq := sched.addedSeq + 1, runningTasks := sched.runningTasks ++ [id] }
  (polarSchedAddTaskHashTable queued tag id).setSubProc dstProc
    (polarSchedProcAdvanceRing sched.taskQueueDepth sub)

/-- Remove the finished tasks of a chain up to `task`. -/
def markFinishedLoop (tag : Tag) (task : NodeId) : List NodeId → TaskSched Tag →
    Except Panic (TaskSched Tag)
  | [], sched => .ok sched
  | previous :: rest, sched =>
    if (sched.taskNodes previous).status ≠ .finished then .error .previousNotFinished
    else
      let dropped := { sched with
        runningTasks := sched.runningTasks.erase previous
        taskHash := update sched.taskHash tag rest }
      let removed := dropped.setStatus previous .removed
      if previous = task then .ok removed else markFinishedLoop tag task rest removed

def schedProcMarkFinishedTasksRemoved (sched : TaskSched Tag) (task : NodeId) :
    Except Panic (TaskSched Tag) :=
  match (sched.taskNodes task).tag with
  | none => .ok sched
  | some tag => markFinishedLoop tag task (sched.taskHash tag) sched

/-- Walk one ring from its tail over finished and removed tasks; the head is met within one
round. -/
def setTasksRemovedLoop (proc : Nat) : Nat → Nat → TaskSched Tag → Except Panic (TaskSched Tag)
  | 0, _, sched => .ok sched
  | fuel + 1, pos, sched =>
    let id : NodeId := { proc := proc, index := pos }
    let onward (next : TaskSched Tag) : Except Panic (TaskSched Tag) :=
      if pos = (next.subProc proc).taskHead then .ok next
      else setTasksRemovedLoop proc fuel (advance next.taskQueueDepth pos) next
    match (sched.taskNodes id).status with
    | .finished =>
      match schedProcMarkFinishedTasksRemoved sched id with
      | .error panic => .error panic
      | .ok next => onward next
    | .removed => onward sched
    | _ => .ok sched

def polarSchedProcSetTasksRemoved (sched : TaskSched Tag) : Except Panic (TaskSched Tag) :=
  (List.range sched.totalProc).foldlM
    (fun sched proc =>
      if taskQueueIsEmpty (sched.subProc proc) then .ok sched
      else setTasksRemovedLoop proc (sched.taskQueueDepth + 1) (sched.subProc proc).taskTail sched)
    sched

end

/-- Reset the removed task at the tail of a ring and give its node back. -/
def resetTail (sched : TaskSched Tag) (proc : Nat) : TaskSched Tag :=
  let sub := sched.subProc proc
  let id : NodeId := { proc := proc, index := sub.taskTail }
  let node := { tag := (sched.taskNodes id).tag, nextLatch := false, addSeq := 0, status := .idle }
  (sched.setNode id node).setSubProc proc
    { sub with ringFull := false, taskTail := advance sched.taskQueueDepth sub.taskTail }

def resetRemovedLoop (proc : Nat) : Nat → TaskSched Tag → TaskSched Tag
  | 0, sched => sched
  | fuel + 1, sched =>
    let sub := sched.subProc proc
    if taskQueueIsEmpty sub then sched
    else if (sched.taskNodes { proc := proc, index := sub.taskTail }).status ≠ .removed then sched
    else resetRemovedLoop proc fuel (resetTail sched proc)

def polarSchedProcResetRemovedTasks (sched : TaskSched Tag) : TaskSched Tag :=
  (List.range sched.totalProc).foldl
  (fun sched proc => resetRemovedLoop proc sched.taskQueueDepth sched) sched

section

variable [DecidableEq Tag]

def polarSchedRemoveFinishedTask (sched : TaskSched Tag) : Except Panic (TaskSched Tag) := do
  let marked ← polarSchedProcSetTasksRemoved sched
  return polarSchedProcResetRemovedTasks marked

/-- Pass the turn on and look for the process of the worker whose turn it was, if it was not found
before. -/
def takeTurn (started : Nat → Bool) (sched : TaskSched Tag) : TaskSched Tag :=
  let turned := { sched with
    dstProc := if sched.dstProc + 1 = sched.totalProc then 0 else sched.dstProc + 1 }
  let sub := turned.subProc sched.dstProc
  if sub.proc then turned else turned.setSubProc sched.dstProc
    { sub with proc := started sched.dstProc }

/-- Try the workers in turn; `started` tells which processes can be found by now. -/
def getNextProcLoop (started : Nat → Bool) : Nat → TaskSched Tag → TaskSched Tag × Option Nat
  | 0, sched => (sched, none)
  | fuel + 1, sched =>
    let procNum := sched.dstProc
    let looked := takeTurn started sched
    if (looked.subProc procNum).proc ∧ (looked.subProc procNum).ringFull = false then (looked,
      some procNum)
    else getNextProcLoop started fuel looked

def polarSchedGetNextProc (started : Nat → Bool) (sched : TaskSched Tag) :
    TaskSched Tag × Option Nat :=
  getNextProcLoop started sched.totalProc sched

/-- The worker of the last task with the same tag if its ring has room, otherwise the next one. -/
def polarSchedGetDstProc (started : Nat → Bool) (sched : TaskSched Tag) (tag : Tag) :
    Except Panic (TaskSched Tag × Option Nat) :=
  match (sched.taskHash tag).getLast? with
  | none => .ok (polarSchedGetNextProc started sched)
  | some last =>
    if (sched.subProc (taskNodeProc last)).ringFull = false then .ok (sched,
      some (taskNodeProc last))
    else do
      let cleaned ← polarSchedRemoveFinishedTask sched
      if (cleaned.subProc (taskNodeProc last)).ringFull = false then
        return (cleaned, some (taskNodeProc last))
      else return polarSchedGetNextProc started cleaned

def polarSchedAddTask (started : Nat → Bool) (sched : TaskSched Tag) (tag : Tag) :
    Except Panic (TaskSched Tag × Bool) := do
  let chosen ← polarSchedGetDstProc started sched tag
  match chosen.2 with
  | none => return (chosen.1, false)
  | some dstProc => return (polarSchedProcAddTask chosen.1 dstProc tag, true)

end

/-- What the main loop of a worker is doing. -/
inductive Activity where
  | fetching
  | handling (task : NodeId)
  /-- The handler reported the task as handled. -/
  | handled (task : NodeId)
  /-- The task is marked as finished; the successor found under its lock is still to be released. -/
  | releasing (successor : Option NodeId)
  deriving DecidableEq, Repr

structure SubTask where
  holdTasks : List NodeId
  repeatTasks : List (NodeId × Nat)
  maxFetchSeq : Nat
  fetchTaskIdx : Nat
  activity : Activity
  deriving DecidableEq, Repr

def polarTaskMaxRepeatDelayTimes : Nat := 3

/-- Take the first repeat task whose delay is over; the delays before it count down. -/
def fetchFromRepeatList (sched : TaskSched Tag) :
    List (NodeId × Nat) → Except Panic (Option NodeId × List (NodeId × Nat))
  | [] => .ok (none, [])
  | (task, delay) :: rest =>
    if (sched.taskNodes task).status ≠ .running then .error .statusIncorrect
    else if delay = 0 then .ok (some task, rest)
    else
      match fetchFromRepeatList sched rest with
      | .error panic => .error panic
      | .ok (found, others) => .ok (found, (task, delay - 1) :: others)

def fetchFromHoldList (sched : TaskSched Tag) : List NodeId →
    Except Panic (Option NodeId × List NodeId)
  | [] => .ok (none, [])
  | task :: rest =>
    match (sched.taskNodes task).status with
    | .running => .ok (some task, rest)
    | .hold =>
      match fetchFromHoldList sched rest with
      | .error panic => .error panic
      | .ok (found, others) => .ok (found, task :: others)
    | _ => .error .statusIncorrect

/-- Fetch from the ring. A node whose status is still idle is looked at again by the next fetch. -/
def fetchFromQueue (sched : TaskSched Tag) (proc : Nat) : Nat → SubTask →
    Except Panic (Option NodeId × SubTask)
  | 0, sub => .ok (none, sub)
  | fuel + 1, sub =>
    let idx := if sched.taskQueueDepth ≤ sub.fetchTaskIdx then 0 else sub.fetchTaskIdx
    let id : NodeId := { proc := proc, index := idx }
    let node := sched.taskNodes id
    if node.addSeq ≤ sub.maxFetchSeq then .ok (none, { sub with fetchTaskIdx := idx })
    else
      match node.status with
      | .running => .ok (some id, { sub with fetchTaskIdx := idx + 1, maxFetchSeq := node.addSeq })
      | .hold =>
        fetchFromQueue sched proc fuel { sub with
            fetchTaskIdx := idx + 1, maxFetchSeq := node.addSeq, holdTasks :=
              sub.holdTasks ++ [id] }
      | .idle => .ok (none, { sub with fetchTaskIdx := idx })
      | _ => .error .unexpectedStatus

def fetchWaitingTaskNode (sched : TaskSched Tag) (proc : Nat) (sub : SubTask) :
    Except Panic (Option NodeId × SubTask) :=
  match fetchFromRepeatList sched sub.repeatTasks with
  | .error panic => .error panic
  | .ok (some task, rest) => .ok (some task, { sub with repeatTasks := rest })
  | .ok (none, rest) =>
    match fetchFromHoldList sched sub.holdTasks with
    | .error panic => .error panic
    | .ok (some task, others) =>
        .ok (some task, { sub with repeatTasks := rest, holdTasks := others })
    | .ok (none, _) => fetchFromQueue sched proc (sched.taskQueueDepth + 1)
        { sub with repeatTasks := rest }

/-- The task after this one in its chain; behind the last one the chain starts over. -/
def dependNext (chain : List NodeId) (task : NodeId) : Option NodeId :=
  match (chain.dropWhile fun id => id ≠ task).tail with
  | successor :: _ => some successor
  | [] => if chain.head? = some task then none else chain.head?

/-- Under the lock of the task: look for a successor and mark the task as finished. -/
def markTaskFinished (sched : TaskSched Tag) (task : NodeId) : TaskSched Tag × Option NodeId :=
  let node := sched.taskNodes task
  let successor :=
    match node.nextLatch, node.tag with
    | true, some tag => dependNext (sched.taskHash tag) task
    | _, _ => none
  (sched.setStatus task .finished, successor)

end PolarDB.ProcPool.Sched
