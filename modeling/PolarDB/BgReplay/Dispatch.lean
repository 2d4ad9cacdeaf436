import PolarDB.Lib.Runs
import Mathlib.Data.List.Basic

/-!
# Parallel replay in the background

The startup process adds the pages of each record to the logindex and then
advances the replayed positions. The background process reads the logindex in LSN
order and hands every entry to a worker through the running queue; the workers and
the dispatcher advance `bg_replayed_lsn`, and each dispatch iteration recomputes
`replayed_oldest_lsn` from it and from what the backends publish.

One step is one access to shared memory or one critical section. The LSN iterator
is a position in the list of the entries; which worker runs a task, and when, is
left open, as is whether the pool has room for one more.
-/

namespace PolarDB.BgReplay.Dispatch

open Function Lib.Runs

inductive NodeRole where
  | standby
  | replica
  | promoting
  deriving DecidableEq, Repr

structure IndexEntry (Tag : Type) where
  lsn : Nat
  tag : Tag
  deriving DecidableEq, Repr

/-- What `polar_lsn_iterator_next` returned: the entry and its place in the logindex. -/
structure PageLsn (Tag : Type) where
  position : Nat
  lsn : Nat
  tag : Tag
  deriving DecidableEq, Repr

/-- The result of `polar_xlog_need_replay`. -/
inductive BufReplayStat where
  | needReplay
  | isReplaying
  | isReplayed
  | isFlushed
  | isTruncated
  deriving DecidableEq, Repr

/-- How far a worker is with a task; `compared` holds the LSN of the queue's head it read. -/
inductive Stage where
  | added
  | handled
  | compared (headLsn : Nat)
  | advanced
  | finished
  deriving DecidableEq, Repr

structure ReplayTask (Tag : Type) where
  position : Nat
  lsn : Nat
  tag : Tag
  stage : Stage
  deriving DecidableEq, Repr

/-- Where the dispatcher stands in `polar_logindex_bg_dispatch`, with its local variables. -/
inductive Phase where
  | idle
  | removing
  | round
  | poll (xlogReplayed : Nat)
  | decide (xlogReplayed : Nat)
  | settle (xlogReplayed : Nat) (dispatchDone : Bool)
  | forward (xlogReplayed : Nat)
  | readBg
  | scan (bgReplayed next res : Nat)
  | panicked
  deriving DecidableEq, Repr

structure State (Tag : Type) where
  role : NodeRole
  /-- The logindex, in the order of insertion. -/
  entries : List (IndexEntry Tag)
  /-- Start and end of the record the startup process is parsing. -/
  parsing : Option (Nat × Nat)
  lastReplayedRead : Nat
  lastReplayedEnd : Nat
  redoRecPtr : Nat
  /-- Where the iteration started. -/
  iterLsn : Nat
  iterNext : Nat
  replayPage : Option (PageLsn Tag)
  maxDispatched : Nat
  phase : Phase
  running : List (ReplayTask Tag)
  /-- Positions of the entries whose task of this iteration is finished. -/
  handled : List Nat
  bgReplayed : Nat
  replayedOldest : Nat
  numProcs : Nat
  readMin : Nat → Nat
  /-- The redo LSN a backend of a replica has read and not yet published. -/
  localRedo : Nat → Option Nat

variable {Tag : Type}

/-- `polar_logindex_lsn_iterator_next`, unless an entry is still waiting for a worker. -/
def pollIterator (st : State Tag) (xlogReplayed : Nat) : State Tag :=
  match st.replayPage with
  | some _ => { st with phase := .decide xlogReplayed }
  | none =>
    match st.entries[st.iterNext]? with
    | none => { st with phase := .settle xlogReplayed true }
    | some entry =>
      { st with
        iterNext := st.iterNext + 1
        replayPage := some { position := st.iterNext, lsn := entry.lsn, tag := entry.tag }
        phase := .decide xlogReplayed }

/-- `polar_sched_add_task` succeeded: the task is at the end of the running queue. -/
def dispatchPage (st : State Tag) (page : PageLsn Tag) : State Tag :=
  { st with
    running := st.running ++
      [{ position := page.position, lsn := page.lsn, tag := page.tag, stage := .added }]
    maxDispatched := page.lsn
    replayPage := none
    phase := .round }

def settle (st : State Tag) (xlogReplayed : Nat) (dispatchDone : Bool) : State Tag :=
  { st with
    phase := if dispatchDone && st.running.isEmpty then .forward xlogReplayed else .readBg }

/-- One round of `polar_get_backend_min_replay_lsn`. -/
def minReplay (res readMin : Nat) : Nat :=
  if res = 0 ∨ (readMin ≠ 0 ∧ readMin < res) then readMin else res

/-- The smaller of `bg_replayed_lsn` and a valid `backend_min_lsn`. -/
def oldestLsn (bgReplayed backendMin : Nat) : Nat :=
  if backendMin ≠ 0 ∧ backendMin < bgReplayed then backendMin else bgReplayed

/-- The end of the iteration, with its assertion. -/
def setOldest (st : State Tag) (oldest : Nat) : State Tag :=
  if st.replayedOldest ≤ oldest then { st with replayedOldest := oldest, phase := .idle }
  else { st with phase := .panicked }

/-- `POLAR_SCHED_RUNNING_QUEUE_HEAD`. -/
def headLsn : List (ReplayTask Tag) → Nat
  | [] => 0
  | task :: _ => task.lsn

def setStage (st : State Tag) (front : List (ReplayTask Tag)) (task : ReplayTask Tag)
    (back : List (ReplayTask Tag)) (stage : Stage) : State Tag :=
  { st with running := front ++ { task with stage := stage } :: back }

/-- The second half of `parallel_replay_task_finished`. -/
def advanceBgReplayed (bgReplayed head lsn : Nat) : Nat :=
  if head = lsn ∧ bgReplayed < lsn then lsn else bgReplayed

/-- What `polar_logindex_require_backend_redo` publishes under the spinlock outside a replica. -/
def requireBackendRedo (st : State Tag) : Option Nat :=
  match st.role with
  | .replica => none
  | .standby => some (if st.bgReplayed = 0 then st.redoRecPtr else st.bgReplayed)
  | .promoting => if st.bgReplayed ≤ st.lastReplayedRead then some st.bgReplayed else none

/-- The place where an LSN iterator that was created for `lsn` starts. -/
def iteratorStart (entries : List (IndexEntry Tag)) (lsn : Nat) : Nat :=
  (entries.takeWhile fun entry => entry.lsn < lsn).length

/-- `polar_reset_bg_replayed_lsn` and the control structure that is created after it. -/
def resetBgReplayed (st : State Tag) (oldestRedo : Nat) : State Tag :=
  { st with
    role := .promoting
    iterLsn := oldestRedo
    iterNext := iteratorStart st.entries oldestRedo
    replayPage := none
    maxDispatched := 0
    running := []
    handled := []
    bgReplayed := oldestRedo
    replayedOldest := oldestRedo }

inductive Event where
  | parse
  | add
  | replayed
  | checkpoint
  | enter
  | remove
  | dispatchLoop
  | readReplayed
  | poll
  | beyond
  | dispatch
  | full
  | settle
  | forward
  | readBg
  | scan
  | compute
  | handle
  | compare
  | advance
  | finish
  | readRedo (backend : Nat)
  | publishRedo (backend : Nat)
  | requireRedo (backend : Nat)
  | lockApply (backend : Nat)
  | clear (backend : Nat)
  | promoteStandby
  | promoteReplica (oldestRedo : Nat)
  deriving DecidableEq, Repr

inductive Step : Event → State Tag → State Tag → Prop
  | parse {st : State Tag} (readPtr endPtr : Nat) (recovering : st.role ≠ .promoting)
      (free : st.parsing = none) (later : st.lastReplayedEnd ≤ readPtr) (size : readPtr < endPtr) :
      Step .parse st { st with parsing := some (readPtr, endPtr) }
  | add {st : State Tag} (readPtr endPtr : Nat) (tag : Tag) (busy : st.parsing = some (readPtr,
      endPtr)) : Step .add st { st with entries := st.entries ++ [{ lsn := readPtr, tag := tag }] }
  | replayed {st : State Tag} (readPtr endPtr : Nat) (busy : st.parsing = some (readPtr, endPtr)) :
      Step .replayed st { st with
          parsing := none, lastReplayedRead := readPtr, lastReplayedEnd := endPtr }
  | checkpoint {st : State Tag} (redo : Nat) (later : st.redoRecPtr ≤ redo) :
      Step .checkpoint st { st with redoRecPtr := redo }
  | enter {st : State Tag} (here : st.phase = .idle) : Step .enter st { st with phase := .removing }
  -- `polar_sched_remove_finished_task` is called at the start of an iteration and by
  -- `polar_sched_add_task`
  | remove {st : State Tag} (front back : List (ReplayTask Tag)) (task : ReplayTask Tag)
      (here : st.phase = .removing ∨ ∃ xlogReplayed, st.phase = .decide xlogReplayed)
      (whole : st.running = front ++ task :: back) (done : task.stage = .finished) :
      Step .remove st { st with running := front ++ back }
  | dispatchLoop {st : State Tag} (here : st.phase = .removing) :
      Step .dispatchLoop st { st with phase := .round }
  | readReplayed {st : State Tag} (here : st.phase = .round) :
      Step .readReplayed st { st with phase := .poll st.lastReplayedEnd }
  | poll {st : State Tag} (xlogReplayed : Nat) (here : st.phase = .poll xlogReplayed) :
      Step .poll st (pollIterator st xlogReplayed)
  | beyond {st : State Tag} (xlogReplayed : Nat) (page : PageLsn Tag)
      (here : st.phase = .decide xlogReplayed)
      (waiting : st.replayPage = some page) (late : st.lastReplayedRead < page.lsn) :
      Step .beyond st { st with phase := .settle xlogReplayed true }
  | dispatch {st : State Tag} (xlogReplayed : Nat) (page : PageLsn Tag)
      (here : st.phase = .decide xlogReplayed) (waiting : st.replayPage = some page)
      (reached : page.lsn ≤ st.lastReplayedRead) : Step .dispatch st (dispatchPage st page)
  | full {st : State Tag} (xlogReplayed : Nat) (page : PageLsn Tag)
      (here : st.phase = .decide xlogReplayed)
      (waiting : st.replayPage = some page) (reached : page.lsn ≤ st.lastReplayedRead) :
      Step .full st { st with phase := .settle xlogReplayed false }
  | settle {st : State Tag} (xlogReplayed : Nat) (dispatchDone : Bool)
      (here : st.phase = .settle xlogReplayed dispatchDone) :
      Step .settle st (settle st xlogReplayed dispatchDone)
  | forward {st : State Tag} (xlogReplayed : Nat) (here : st.phase = .forward xlogReplayed) :
      Step .forward st
        { st with bgReplayed := max xlogReplayed st.maxDispatched, phase := .readBg }
  | readBg {st : State Tag} (here : st.phase = .readBg) :
      Step .readBg st { st with phase := .scan st.bgReplayed 0 0 }
  | scan {st : State Tag} (bgReplayed next res : Nat) (here : st.phase = .scan bgReplayed next res)
      (more : next < st.numProcs) :
      Step .scan st
        { st with phase := .scan bgReplayed (next + 1) (minReplay res (st.readMin next)) }
  | compute {st : State Tag} (bgReplayed next res : Nat)
      (here : st.phase = .scan bgReplayed next res)
      (whole : st.numProcs ≤ next) : Step .compute st (setOldest st (oldestLsn bgReplayed res))
  | handle {st : State Tag} (front back : List (ReplayTask Tag)) (task : ReplayTask Tag)
      (bufStat : BufReplayStat) (whole : st.running = front ++ task :: back)
      (fresh : task.stage = .added)
      (free : bufStat ≠ .isReplaying) : Step .handle st (setStage st front task back .handled)
  | compare {st : State Tag} (front back : List (ReplayTask Tag)) (task : ReplayTask Tag)
      (whole : st.running = front ++ task :: back) (done : task.stage = .handled) :
      Step .compare st (setStage st front task back (.compared (headLsn st.running)))
  | advance {st : State Tag} (front back : List (ReplayTask Tag)) (task : ReplayTask Tag)
      (head : Nat)
      (whole : st.running = front ++ task :: back) (seen : task.stage = .compared head) :
      Step .advance st { setStage st front task back .advanced with
        bgReplayed := advanceBgReplayed st.bgReplayed head task.lsn }
  | finish {st : State Tag} (front back : List (ReplayTask Tag)) (task : ReplayTask Tag)
      (whole : st.running = front ++ task :: back) (done : task.stage = .advanced) :
      Step .finish st { setStage st front task back .finished with
        handled := task.position :: st.handled }
  | readRedo {st : State Tag} (backend : Nat) (isReplica : st.role = .replica) :
      Step (.readRedo backend) st
        { st with localRedo := update st.localRedo backend (some st.redoRecPtr) }
  | publishRedo {st : State Tag} (backend redo : Nat) (seen : st.localRedo backend = some redo) :
      Step (.publishRedo backend) st { st with
          readMin := update st.readMin backend redo
          localRedo := update st.localRedo backend none }
  | requireRedo {st : State Tag} (backend lsn : Nat) (required : requireBackendRedo st = some lsn) :
      Step (.requireRedo backend) st { st with readMin := update st.readMin backend lsn }
  | lockApply {st : State Tag} (backend : Nat) : Step (.lockApply backend) st
        { st with readMin := update st.readMin backend st.bgReplayed }
  | clear {st : State Tag} (backend : Nat) :
      Step (.clear backend) st { st with readMin := update st.readMin backend 0 }
  | promoteStandby {st : State Tag} (isStandby : st.role = .standby) (stopped : st.parsing = none) :
      Step .promoteStandby st { st with role := .promoting }
  | promoteReplica {st : State Tag} (oldestRedo : Nat) (isReplica : st.role = .replica)
      (stopped : st.parsing = none) (released : st.phase = .idle) (valid : 0 < oldestRedo)
      (replayed : oldestRedo ≤ st.lastReplayedEnd) :
      Step (.promoteReplica oldestRedo) st (resetBgReplayed st oldestRedo)

/-- The positions the startup process keeps: the logindex is sorted, and an entry that was
not replayed yet belongs to the record being parsed. -/
structure Parsed (entries : List (IndexEntry Tag)) (parsing : Option (Nat × Nat))
    (lastReplayedRead lastReplayedEnd : Nat) : Prop where
  ordered : entries.Pairwise fun early late => early.lsn ≤ late.lsn
  parsed : ∀ entry ∈ entries, entry.lsn ≤ lastReplayedRead ∨
    ∃ endPtr, parsing = some (entry.lsn, endPtr)
  record : lastReplayedRead < lastReplayedEnd
  later : ∀ readPtr endPtr, parsing = some (readPtr, endPtr) → lastReplayedEnd ≤ readPtr ∧
    readPtr < endPtr

/-- The state after `polar_logindex_wakeup_bg_replay` and `polar_create_bg_redo_ctl`. -/
structure Started (st : State Tag) : Prop where
  recovering : st.role ≠ .promoting
  parsed : Parsed st.entries st.parsing st.lastReplayedRead st.lastReplayedEnd
  valid : 0 < st.bgReplayed
  replayed : st.bgReplayed ≤ st.lastReplayedEnd
  oldest : st.replayedOldest = st.bgReplayed
  iterLsn : st.iterLsn = st.bgReplayed
  iterNext : st.iterNext = iteratorStart st.entries st.bgReplayed
  replayPage : st.replayPage = none
  maxDispatched : st.maxDispatched = 0
  phase : st.phase = .idle
  running : st.running = []
  readMin : ∀ backend, st.readMin backend = 0
  localRedo : ∀ backend, st.localRedo backend = none

/-- A node that has just reached consistency and whose logindex is empty. -/
def wakeupState (role : NodeRole) (readPtr endPtr redo numProcs : Nat) : State Tag :=
  { role := role
    entries := []
    parsing := none
    lastReplayedRead := readPtr
    lastReplayedEnd := endPtr
    redoRecPtr := redo
    iterLsn := endPtr
    iterNext := 0
    replayPage := none
    maxDispatched := 0
    phase := .idle
    running := []
    handled := []
    bgReplayed := endPtr
    replayedOldest := endPtr
    numProcs := numProcs
    readMin := fun _ => 0
    localRedo := fun _ => none }

theorem wakeupState_started {role : NodeRole} {readPtr endPtr redo numProcs : Nat}
    (recovering : role ≠ .promoting) (record : readPtr < endPtr) :
    Started (wakeupState role readPtr endPtr redo numProcs : State Tag) := by
  have parsed : Parsed ([] : List (IndexEntry Tag)) none readPtr endPtr :=
    ⟨List.Pairwise.nil, nofun, record, nofun⟩
  exact ⟨recovering, parsed, Nat.zero_lt_of_lt record, Nat.le_refl _, rfl, rfl, rfl, rfl, rfl,
    rfl, rfl,
    fun _ => rfl, fun _ => rfl⟩

end PolarDB.BgReplay.Dispatch
