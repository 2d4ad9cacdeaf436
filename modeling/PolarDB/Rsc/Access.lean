import PolarDB.Rsc.Pool
import PolarDB.Lib.Runs

/-!
# Processes that use the relation size cache

A lookup tries the entry it remembers from an earlier lookup, then the mapping table,
and at last asks the file system and stores the answer. An extension or truncation
changes the file and then stores the new size. Both allocate an entry if the relation
has none, evicting another relation if need be.

The sections under a lock are one step each, except that a process keeps the shared
partition lock between finding the entry, reading the file size and storing it; a
section under the exclusive lock waits for those.
-/

namespace PolarDB.Rsc.Access

open Lib.Runs
open Rsc.Pool
open Function Storage

/-- One call. A lookup knows no size; `expected` and `stamp` are the settled size of the fork and
the number of its changes when the lookup started. -/
structure Task where
  rnode : RelFileNode
  fork : ForkNumber
  known : Option Nat
  expected : Option Nat
  stamp : Nat
  deriving DecidableEq, Repr

/-- Where a process stands, with its local variables. -/
inductive Pc where
  | idle
  | searchRef (task : Task)
  | checkRef (task : Task) (idx generation res : Nat)
  | searchMapping (task : Task)
  | resizing (task : Task)
  | update (task : Task)
  | reading (task : Task) (idx : Nat)
  | storing (task : Task) (idx nblocks : Nat)
  | sweeping (task : Task) (used : Nat)
  | picked (task : Task) (idx : Nat) (victim : RelFileNode)
  | allocated (task : Task) (idx : Nat)
  | finished (task : Task) (nblocks : Nat)
  deriving DecidableEq, Repr

def Pc.task : Pc → Option Task
  | .idle => none
  | .searchRef task => some task
  | .checkRef task _ _ _ => some task
  | .searchMapping task => some task
  | .resizing task => some task
  | .update task => some task
  | .reading task _ => some task
  | .storing task _ _ => some task
  | .sweeping task _ => some task
  | .picked task _ _ => some task
  | .allocated task _ => some task
  | .finished task _ => some task

/-- The relation whose partition lock the process holds in shared mode, and the entry it found. -/
def Pc.holds : Pc → Option (RelFileNode × Nat)
  | .reading task idx => some (task.rnode, idx)
  | .storing task idx _ => some (task.rnode, idx)
  | _ => none

/-- `refs` are the `rsc_ref` and `rsc_generation` of the process's `SMgrRelation`s. -/
structure Process where
  pc : Pc
  refs : RelFileNode → Option (Nat × Nat)

structure Size where
  rnode : RelFileNode
  fork : ForkNumber
  nblocks : Nat
  deriving DecidableEq, Repr

structure State where
  rsc : RelSizeCache
  file : RelFileNode → ForkNumber → Nat
  procs : Nat → Process
  /-- The sizes that were stored, and the answers of the two searches. -/
  stored : List Size
  answers : List Size
  /-- The size of the last resize of a fork, from when it is stored until the next resize or drop
  starts. -/
  settled : RelFileNode → ForkNumber → Option Nat
  /-- How many resizes and drops of a fork were started. -/
  changes : RelFileNode → ForkNumber → Nat

def State.setPc (st : State) (proc : Nat) (pc : Pc) : State :=
  { st with procs := update st.procs proc { st.procs proc with pc := pc } }

def State.setRef (st : State) (proc : Nat) (rnode : RelFileNode) (ref : Option (Nat × Nat)) :
    State :=
  { st with
    procs := update st.procs proc
      { st.procs proc with refs := update (st.procs proc).refs rnode ref } }

/-- A resize or drop of the fork starts. -/
def State.unsettle (st : State) (rnode : RelFileNode) (fork : ForkNumber) : State :=
  { st with
    settled := update st.settled rnode (update (st.settled rnode) fork none)
    changes := update st.changes rnode
      (update (st.changes rnode) fork (st.changes rnode fork + 1)) }

def State.unsettleRelation (st : State) (rnode : RelFileNode) : State :=
  { st with
    settled := update st.settled rnode fun _ => none
    changes := update st.changes rnode fun fork => st.changes rnode fork + 1 }

def State.noteStored (st : State) (task : Task) (nblocks : Nat) : State :=
  { st with stored := { rnode := task.rnode, fork := task.fork, nblocks := nblocks } :: st.stored }

/-- A search returned: with a size the lookup is finished, without it goes on. -/
def State.answer (st : State) (proc : Nat) (task : Task) (res : Nat) (otherwise : Pc) : State :=
  if res = invalidBlockNumber then st.setPc proc otherwise
  else
    { st.setPc proc (.finished task res) with
      answers := { rnode := task.rnode, fork := task.fork, nblocks := res } :: st.answers }

section
variable (st : State) (proc : Nat) (task : Task)

/-- The first load of `polar_rsc_search_by_ref`. -/
def searchByRef : State :=
  match (st.procs proc).refs task.rnode with
  | none => st.setPc proc (.searchMapping task)
  | some (idx, generation) =>
    st.setPc proc (.checkRef task idx generation ((st.rsc.entries idx).nblocks task.fork))

/-- The second load of `polar_rsc_search_by_ref`. -/
def checkGeneration (idx generation res : Nat) : State :=
  if (st.rsc.entries idx).generation = generation then
    { st with rsc := st.rsc.touch idx }.answer proc task res (.searchMapping task)
  else (st.setRef proc task.rnode none).setPc proc (.searchMapping task)

def searchByMapping : State :=
  match st.rsc.mappings task.rnode with
  | none => st.setPc proc (.update task)
  | some idx =>
    let entry := st.rsc.entries idx
    ({ st with rsc := st.rsc.touch idx }.setRef proc task.rnode (some (idx,
      entry.generation))).answer proc task (entry.nblocks task.fork) (.update task)

/-- `polar_rsc_update_entry` at its label `rsc_nblocks_update`. -/
def findEntry : State :=
  match st.rsc.mappings task.rnode with
  | none => st.setPc proc (.sweeping task 0)
  | some idx =>
    match task.known with
    | none => st.setPc proc (.reading task idx)
    | some nblocks => st.setPc proc (.storing task idx nblocks)

def store (idx nblocks : Nat) : State :=
  let next :=
    { st.setPc proc (.finished task nblocks) with
      rsc := st.rsc.updateEntry idx task.fork nblocks task.known.isSome }
  match task.known with
  | some _ =>
    { next.noteStored task nblocks with
      settled := update st.settled task.rnode
        (update (st.settled task.rnode) task.fork (some nblocks)) }
  | none => if (st.rsc.entries idx).dirty task.fork then next else next.noteStored task nblocks

/-- `rsc_alloc_entry` looks at the entry the sweep picked. -/
def lookAtPicked (idx : Nat) : State :=
  let entry := st.rsc.entries idx
  if entry.valid then st.setPc proc (.picked task idx entry.rnode)
  else st.setPc proc (.allocated task idx)

/-- One round of `rsc_lru_pool_sweep`; `random` is used when the hand has passed enough entries. -/
def sweep (used random : Nat) : State :=
  let (idx, rsc) := st.rsc.sweepHand
  let next := { st with rsc := rsc }
  if (rsc.entries idx).usecount ≤ 0 then lookAtPicked next proc task idx
  else if used + 1 ≥ rsc.poolSweepTimes then lookAtPicked next proc task
    (random % rsc.sharedRelations)
  else next.setPc proc (.sweeping task (used + 1))

def evictPicked (idx : Nat) (victim : RelFileNode) : State :=
  if st.rsc.mappings victim = some idx then
    { st with rsc := st.rsc.evict idx victim }.setPc proc (.allocated task idx)
  else st.setPc proc (.sweeping task 0)

def enterAllocated (idx : Nat) : State :=
  if (st.rsc.entries idx).valid then st.setPc proc (.sweeping task 0)
  else { st with rsc := st.rsc.enter idx task.rnode }.setPc proc (.update task)

end

/-- A process has begun to extend or truncate the fork and has not returned. -/
def ResizingFork (st : State) (rnode : RelFileNode) (fork : ForkNumber) : Prop :=
  ∃ proc task, (st.procs proc).pc.task = some task ∧ task.known ≠ none ∧ task.rnode = rnode ∧
  task.fork = fork

/-- No process holds the partition lock of the relation in shared mode. -/
def Exclusive (partitionOf : RelFileNode → Nat) (st : State) (rnode : RelFileNode) : Prop :=
  ∀ proc held idx, (st.procs proc).pc.holds = some (held, idx) →
  partitionOf held ≠ partitionOf rnode

inductive Event where
  | lookup
  | resize (rnode : RelFileNode) (fork : ForkNumber)
  | access
  | drop
  | unlink (rnode : RelFileNode) (fork : ForkNumber)
  | promote
  | replay
  deriving DecidableEq, Repr

inductive Step (partitionOf : RelFileNode → Nat) : Event → State → State → Prop
  | lookup {st : State} (proc : Nat) (rnode : RelFileNode) (fork : ForkNumber)
      (here : (st.procs proc).pc = .idle) :
      Step partitionOf .lookup st
        (st.setPc proc (.searchRef
          { rnode := rnode
            fork := fork
            known := none
            expected := st.settled rnode fork
            stamp := st.changes rnode fork }))
  | resize {st : State} (proc : Nat) (rnode : RelFileNode) (fork : ForkNumber) (nblocks : Nat)
      (here : (st.procs proc).pc = .idle) (sound : nblocks ≠ invalidBlockNumber) :
      Step partitionOf (.resize rnode fork) st
        ((st.unsettle rnode fork).setPc proc (.resizing
          { rnode := rnode, fork := fork, known := some nblocks, expected := none, stamp := 0 }))
  | changeFile {st : State} (proc : Nat) (task : Task) (nblocks : Nat)
      (here : (st.procs proc).pc = .resizing task) (isKnown : task.known = some nblocks) :
      Step partitionOf .access st
        { st.setPc proc (.update task) with
          file := update st.file task.rnode (update (st.file task.rnode) task.fork nblocks) }
  | searchByRef {st : State} (proc : Nat) (task : Task)
      (here : (st.procs proc).pc = .searchRef task) :
      Step partitionOf .access st (searchByRef st proc task)
  | checkGeneration {st : State} (proc : Nat) (task : Task) (idx generation res : Nat)
      (here : (st.procs proc).pc = .checkRef task idx generation res) :
      Step partitionOf .access st (checkGeneration st proc task idx generation res)
  | searchByMapping {st : State} (proc : Nat) (task : Task)
      (here : (st.procs proc).pc = .searchMapping task) :
      Step partitionOf .access st (searchByMapping st proc task)
  | findEntry {st : State} (proc : Nat) (task : Task) (here : (st.procs proc).pc = .update task) :
      Step partitionOf .access st (findEntry st proc task)
  | readFile {st : State} (proc : Nat) (task : Task) (idx : Nat)
      (here : (st.procs proc).pc = .reading task idx) :
      Step partitionOf .access st (st.setPc proc (.storing task idx (st.file task.rnode task.fork)))
  | store {st : State} (proc : Nat) (task : Task) (idx nblocks : Nat)
      (here : (st.procs proc).pc = .storing task idx nblocks) :
      Step partitionOf .access st (store st proc task idx nblocks)
  | sweep {st : State} (proc : Nat) (task : Task) (used random : Nat)
      (here : (st.procs proc).pc = .sweeping task used) :
      Step partitionOf .access st (sweep st proc task used random)
  | evictPicked {st : State} (proc : Nat) (task : Task) (idx : Nat) (victim : RelFileNode)
      (here : (st.procs proc).pc = .picked task idx victim)
      (alone : Exclusive partitionOf st victim) :
      Step partitionOf .access st (evictPicked st proc task idx victim)
  | enterAllocated {st : State} (proc : Nat) (task : Task) (idx : Nat)
      (here : (st.procs proc).pc = .allocated task idx)
      (alone : Exclusive partitionOf st task.rnode) :
      Step partitionOf .access st (enterAllocated st proc task idx)
  | return {st : State} (proc : Nat) (task : Task) (nblocks : Nat)
      (here : (st.procs proc).pc = .finished task nblocks) :
      Step partitionOf .access st (st.setPc proc .idle)
  | drop {st : State} (rnode : RelFileNode) (alone : Exclusive partitionOf st rnode) :
      Step partitionOf .drop st { st.unsettleRelation rnode with rsc := st.rsc.dropEntry rnode }
  | unlink {st : State} (rnode : RelFileNode) (fork : ForkNumber) (nblocks : Nat) :
      -- The file of a dropped relation is gone, and a new relation may get its number.
      Step partitionOf (.unlink rnode fork) st
        { st with
          file := update st.file rnode (update (st.file rnode) fork nblocks) }
  | promote {st : State} (alone : ∀ rnode, Exclusive partitionOf st rnode) :
      Step partitionOf .promote st { st with rsc := st.rsc.promote }
  | replay {st : State} (rnode : RelFileNode) (fork : ForkNumber) (nblocks : Nat) :
        Step partitionOf .replay st { st with
          rsc := st.rsc.updateIfExistsAndGreaterThan rnode fork nblocks
          stored :=
            if st.rsc.cachesLess rnode fork nblocks then
              { rnode := rnode, fork := fork, nblocks := nblocks } :: st.stored
            else st.stored }

/-- A primary replays nothing, and the relation locks of the callers serialise the changes of a
fork. -/
def OnPrimary : Event → State → Prop
  | .resize rnode fork, st => ¬ ResizingFork st rnode fork
  | .unlink rnode fork, st => st.settled rnode fork = none ∧ ¬ ResizingFork st rnode fork
  | .replay, _ => False
  | _, _ => True

/-- After `polar_rsc_shmem_init`, with no call under way. -/
structure Started (st : State) : Prop where
  mappings : ∀ rnode, st.rsc.mappings rnode = none
  invalid : ∀ idx, (st.rsc.entries idx).valid = false
  positive : 0 < st.rsc.sharedRelations
  idle : ∀ proc, (st.procs proc).pc = .idle
  refs : ∀ proc rnode, (st.procs proc).refs rnode = none
  answers : st.answers = []
  settled : ∀ rnode fork, st.settled rnode fork = none

end PolarDB.Rsc.Access
