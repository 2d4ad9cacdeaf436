import PolarDB.ProcPool.Sched

/-!
# Runs of the task pool

The dispatcher adds a task to a ring, marks a chain of finished tasks as removed
and resets a removed task; its calls are made of these steps, so that workers may
act between them. A worker fetches, handles, marks as finished and releases the
successor. `added`, `completed` and `removed` record the past and are read by no
function. Latches are left out: whoever can take a step may take it.
-/

namespace PolarDB.ProcPool.Execution

open ProcPool.Sched

/-- A task that was added: its node and its place in the history of that ring. -/
structure Placed (Tag : Type) where
  seq : Nat
  tag : Tag
  node : NodeId
  position : Nat
  deriving DecidableEq, Repr

structure System (Tag : Type) where
  sched : TaskSched Tag
  worker : Nat → SubTask
  /-- How many tasks were added to each ring. -/
  count : Nat → Nat
  added : List (Placed Tag)
  completed : List (Placed Tag)
  removed : List (Placed Tag)

variable {Tag : Type} [DecidableEq Tag]

def System.setWorker (sys : System Tag) (proc : Nat) (sub : SubTask) : System Tag :=
  { sys with worker := Function.update sys.worker proc sub }

/-- The task the dispatcher puts into a ring next. -/
def System.placing (sys : System Tag) (proc : Nat) (tag : Tag) : Placed Tag :=
  { seq := sys.sched.addedSeq + 1
    tag := tag
    node := { proc := proc, index := (sys.sched.subProc proc).taskHead }
    position := sys.count proc }

def newlyRemoved (before after : TaskSched Tag) (added : List (Placed Tag)) : List (Placed Tag) :=
  added.filter fun task =>
    (before.taskNodes task.node).addSeq = task.seq ∧ (before.taskNodes task.node).status ≠
      .removed ∧ (after.taskNodes task.node).status = .removed

def afterFetch (res : Option NodeId × SubTask) : SubTask :=
  match res.1 with
  | none => res.2
  | some task => { res.2 with activity := .handling task }

/-- Who did what: the dispatcher, or the worker with this number. -/
inductive Event where
  | add
  | mark
  | reset
  | choose
  | fetch (proc : Nat) (found : Option NodeId)
  | notHandled (proc : Nat)
  | handled (proc : Nat)
  | finish (proc : Nat)
  | release (proc : Nat)
  deriving DecidableEq, Repr

inductive Step : Event → System Tag → System Tag → Prop
  | add {sys : System Tag} (proc : Nat) (tag : Tag) (within : proc < sys.sched.totalProc)
      (room : (sys.sched.subProc proc).ringFull = false) :
      Step .add sys { sys with
        sched := polarSchedProcAddTask sys.sched proc tag
        count := Function.update sys.count proc (sys.count proc + 1)
        added := sys.added ++ [sys.placing proc tag] }
  | mark {sys : System Tag} {next : TaskSched Tag} (task : NodeId)
      (finished : (sys.sched.taskNodes task).status = .finished)
      (done : schedProcMarkFinishedTasksRemoved sys.sched task = .ok next) :
      Step .mark sys { sys with
        sched := next
        removed := sys.removed ++ newlyRemoved sys.sched next sys.added }
  | reset {sys : System Tag} (proc : Nat) (within : proc < sys.sched.totalProc)
      (nonempty : taskQueueIsEmpty (sys.sched.subProc proc) = false)
      (removed : (sys.sched.taskNodes
        { proc := proc, index := (sys.sched.subProc proc).taskTail }).status = .removed) :
      Step .reset sys { sys with sched := resetTail sys.sched proc }
  | choose {sys : System Tag} (dstProc : Nat) (started : Nat → Bool)
      (turn : dstProc < sys.sched.totalProc) : Step .choose sys { sys with
        sched := { sys.sched with
          dstProc := dstProc
          subProc := fun proc => { sys.sched.subProc proc with proc := started proc } } }
  | fetch {sys : System Tag} {res : Option NodeId × SubTask} (proc : Nat)
      (within : proc < sys.sched.totalProc) (fetching : (sys.worker proc).activity = .fetching)
      (fetched : fetchWaitingTaskNode sys.sched proc (sys.worker proc) = .ok res) :
      Step (.fetch proc res.1) sys (sys.setWorker proc (afterFetch res))
  | notHandled {sys : System Tag} (proc : Nat) (task : NodeId)
      (handling : (sys.worker proc).activity = .handling task) :
      Step (.notHandled proc) sys (sys.setWorker proc { sys.worker proc with
        repeatTasks := (task, polarTaskMaxRepeatDelayTimes) :: (sys.worker proc).repeatTasks
        activity := .fetching })
  | handled {sys : System Tag} (proc : Nat) (task : NodeId) (placed : Placed Tag)
      (handling : (sys.worker proc).activity = .handling task) (known : placed ∈ sys.added)
      (same : placed.seq = (sys.sched.taskNodes task).addSeq) :
      Step (.handled proc) sys
        { sys.setWorker proc { sys.worker proc with activity := .handled task } with
          completed := sys.completed ++ [placed] }
  | finish {sys : System Tag} (proc : Nat) (task : NodeId)
      (handled : (sys.worker proc).activity = .handled task) :
      Step (.finish proc) sys { sys.setWorker proc { sys.worker proc with
          activity := .releasing (markTaskFinished sys.sched task).2 } with
        sched := (markTaskFinished sys.sched task).1 }
  | release {sys : System Tag} (proc : Nat) (successor : Option NodeId)
      (releasing : (sys.worker proc).activity = .releasing successor) :
      Step (.release proc) sys
        { sys.setWorker proc { sys.worker proc with activity := .fetching } with
          sched := successor.elim sys.sched fun task => sys.sched.setStatus task .running }

inductive Run : System Tag → System Tag → Prop
  | refl (sys : System Tag) : Run sys sys
  | tail {start middle next : System Tag} {event : Event} (run : Run start middle)
      (step : Step event middle next) : Run start next

def startSystem (totalProc depth : Nat) : System Tag :=
  { sched :=
      { totalProc := totalProc
        taskQueueDepth := depth
        taskNodes := fun _ => emptyNode
        addedSeq := 0
        subProc := fun _ => { taskHead := 0, taskTail := 0, ringFull := false, proc := false }
        taskHash := fun _ => []
        runningTasks := []
        dstProc := 0 }
    worker := fun _ =>
      { holdTasks := [], repeatTasks := [], maxFetchSeq := 0, fetchTaskIdx := 0,
        activity := .fetching }
    count := fun _ => 0
    added := []
    completed := []
    removed := [] }

/-- The worker has a task in its handler or to finish, tasks to repeat, or finds one to fetch. -/
def Occupied (sys : System Tag) (proc : Nat) : Prop :=
  (sys.worker proc).activity ≠ .fetching ∨ (sys.worker proc).repeatTasks ≠ [] ∨
    ∃ task sub, fetchWaitingTaskNode sys.sched proc (sys.worker proc) = .ok (some task, sub)

/-- The step brings a worker forward; it is not a look at empty lists and a ring without news. -/
def Advances (sys : System Tag) : Event → Prop
  | .fetch proc found => found ≠ none ∨ (sys.worker proc).repeatTasks ≠ []
  | .handled _ => True
  | .finish _ => True
  | .release _ => True
  | _ => False

/-- The step neither adds a task nor reports one as not handled. -/
def Settled (event : Event) : Prop := event ≠ .add ∧ ∀ proc, event ≠ .notHandled proc

/--
An endless schedule from a state on: finitely many tasks are added, the handlers
report tasks as not handled finitely often, and as long as some worker has
something to do, some worker is brought forward.
-/
structure FairSchedule (first : System Tag) (states : Nat → System Tag) (events : Nat → Event) :
    Prop where
  start : states 0 = first
  step : ∀ idx, Step (events idx) (states idx) (states (idx + 1))
  settles : ∃ last, ∀ idx, last ≤ idx → Settled (events idx)
  fair : ∀ idx, (∃ proc, proc < (states idx).sched.totalProc ∧ Occupied (states idx) proc) →
    ∃ later, idx ≤ later ∧ Advances (states later) (events later)

end PolarDB.ProcPool.Execution
