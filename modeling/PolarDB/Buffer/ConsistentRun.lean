import PolarDB.Buffer.FlushOrder
import PolarDB.Lib.Runs

/-!
# Successive consistent LSNs

`polar_cal_cur_consistent_lsn` reads the head of the flush list under the lock of the
list, and then the copy buffers one after the other without a lock, while other
processes dirty, copy, flush and invalidate buffers. Copying a buffer and freeing its
copy take several steps each, under the I/O lock of the buffer.

A value that was returned stays a lower bound of all oldest LSNs, in the list, in the
copy buffers and to come, so that the next computation cannot find a smaller one.
-/

namespace PolarDB.Buffer.ConsistentRun

open Function Lib.Doubly
open Lib.Runs
open Buffer.Bufmgr
open Buffer.FlushOrder

/-- Who may change a buffer: the holder of the exclusive content lock, or the one process that does
I/O on it under a share lock, or that invalidates it while nobody has it pinned. -/
inductive Use where
  | free
  | exclusive (proc : Nat)
  | busy (proc : Nat)
  deriving DecidableEq

inductive Pc (Buf : Type) where
  | idle
  | copyTaken (buf : Buf) (cbuf : Nat)
  | copyStamped (buf : Buf) (cbuf : Nat)
  /-- With the I/O lock, before the copy buffer is freed. The oldest LSN is reset behind that by
  `FlushBuffer` and `InvalidateBuffer`, and not by `polar_flush_copy_buffer`. -/
  | releasing (buf : Buf) (reset : Bool)
  | detached (buf : Buf) (cbuf : Nat) (reset : Bool)
  | released (buf : Buf) (reset : Bool)
  | reading (curConsistentLsn : XLogRecPtr)
  /-- `earlier` are the values that were computed before this computation began. -/
  | scanning (curConsistentLsn : XLogRecPtr) (earlier : List XLogRecPtr) (lsn : XLogRecPtr)
      (idx : Nat) (res : XLogRecPtr)
  | computed (curConsistentLsn : XLogRecPtr) (earlier : List XLogRecPtr) (lsn : XLogRecPtr)

structure Machine (Page Buf : Type) where
  pool : State Page Buf
  use : Buf → Use
  procs : Nat → Pc Buf
  consistentLsn : XLogRecPtr
  /-- All values computed so far. -/
  finished : List XLogRecPtr

variable {Page Buf : Type} [DecidableEq Buf]

def takeCopy (pool : State Page Buf) (rest : List Nat) : State Page Buf :=
  { pool with freeCopyBuffers := rest }

def stampCopy (pool : State Page Buf) (buf : Buf) (cbuf : Nat) : State Page Buf :=
  { pool with
    copyBuffers := update pool.copyBuffers cbuf
      { oldestLsn := (pool.buffers buf).oldestLsn
        originBuffer := some buf
        image := (pool.buffers buf).image } }

def attachCopy (pool : State Page Buf) (buf : Buf) (cbuf : Nat) : State Page Buf :=
  pool.setBuffer buf { pool.buffers buf with copyBuffer := some cbuf }

def detachCopy (pool : State Page Buf) (buf : Buf) : State Page Buf :=
  pool.setBuffer buf { pool.buffers buf with copyBuffer := none, firstTouchedAfterCopy := false }

def clearCopy (pool : State Page Buf) (cbuf : Nat) : State Page Buf :=
  { pool with
    copyBuffers := update pool.copyBuffers cbuf
      { pool.copyBuffers cbuf with oldestLsn := invalidXLogRecPtr, originBuffer := none }
    freeCopyBuffers := cbuf :: pool.freeCopyBuffers }

section
variable {pool : State Page Buf} {buf : Buf} {cbuf : Nat}

theorem copyBufferAlloc_eq {rest : List Nat} (uncopied : (pool.buffers buf).copyBuffer = none)
    (valid : (pool.buffers buf).oldestLsn ≠ invalidXLogRecPtr)
    (free : pool.freeCopyBuffers = cbuf :: rest) :
    copyBufferAlloc pool buf = attachCopy (stampCopy (takeCopy pool rest) buf cbuf) buf cbuf := by
  unfold copyBufferAlloc
  rw [uncopied, free]
  dsimp only [Option.isSome_none]
  rw [if_neg (by decide), if_neg valid]
  rfl

theorem polarFreeCopyBuffer_eq (copied : (pool.buffers buf).copyBuffer = some cbuf) :
    polarFreeCopyBuffer pool buf = clearCopy (detachCopy pool buf) cbuf := by
  unfold polarFreeCopyBuffer
  rw [copied]
  rfl

end

/-- One round of the loop of `polar_copy_buffers_get_oldest_lsn`. -/
def scanCopy (res curLsn : XLogRecPtr) : XLogRecPtr :=
  if curLsn = invalidXLogRecPtr then res
  else if res = invalidXLogRecPtr ∨ curLsn < res then curLsn
  else res

omit [DecidableEq Buf] in
theorem polarCopyBuffersGetOldestLsn_eq (pool : State Page Buf) :
    polarCopyBuffersGetOldestLsn pool = (List.range pool.polarCopyBuffers).foldl
      (fun res cbuf => scanCopy res (pool.copyBuffers cbuf).oldestLsn) invalidXLogRecPtr :=
  rfl

/-- The result of the computation from the head of the list and the copy buffers. -/
def combine (lsn clsn : XLogRecPtr) : XLogRecPtr :=
  if clsn = invalidXLogRecPtr then lsn else min lsn clsn

inductive Decrease where
  | consistentLsn
  deriving DecidableEq, Repr

/-- The check of `update_consistent_lsn_delta`; `xlogReplayFrom` is there with a redo instance. -/
def updateConsistentLsnDelta (xlogReplayFrom : Option XLogRecPtr)
    (curConsistentLsn nextConsistentLsn : XLogRecPtr) : Except Decrease XLogRecPtr :=
  if nextConsistentLsn < curConsistentLsn then
    match xlogReplayFrom with
    | some replayFrom =>
      if replayFrom = invalidXLogRecPtr ∨ nextConsistentLsn < replayFrom then .ok curConsistentLsn
      else .error .consistentLsn
    | none => .error .consistentLsn
  else .ok nextConsistentLsn

def Machine.go (machine : Machine Page Buf) (proc : Nat) (pc : Pc Buf) : Machine Page Buf :=
  { machine with procs := update machine.procs proc pc }

def Machine.setUse (machine : Machine Page Buf) (buf : Buf) (use : Use) : Machine Page Buf :=
  { machine with use := update machine.use buf use }

def Machine.setPool (machine : Machine Page Buf) (pool : State Page Buf) : Machine Page Buf :=
  { machine with pool := pool }

def Machine.finish (machine : Machine Page Buf) (lsn : XLogRecPtr) : Machine Page Buf :=
  { machine with finished := lsn :: machine.finished }

def releaseStep (machine : Machine Page Buf) (proc : Nat) (buf : Buf) (reset : Bool) :
    Machine Page Buf :=
  match (machine.pool.buffers buf).copyBuffer with
  | none => machine.go proc (.released buf reset)
  | some cbuf => (machine.setPool (detachCopy machine.pool buf)).go proc (.detached buf cbuf reset)

def finishRelease (machine : Machine Page Buf) (proc : Nat) (buf : Buf) (reset : Bool) :
    Machine Page Buf :=
  let pool := if reset then polarResetBufferOldestLsn machine.pool buf else machine.pool
  ((machine.setPool pool).setUse buf .free).go proc .idle

/-- Under the lock of the list: the empty list gives the insert position at once. -/
def calHead (machine : Machine Page Buf) (proc : Nat) (curConsistentLsn : XLogRecPtr) :
    Machine Page Buf :=
  if polarFlushListIsEmpty machine.pool then
    (machine.finish machine.pool.insertRecPtr).go proc
      (.computed curConsistentLsn machine.finished machine.pool.insertRecPtr)
  else
    let lsn := match machine.pool.flushCtl.first with
      | .node buf => (machine.pool.buffers buf).oldestLsn
      | _ => invalidXLogRecPtr
    machine.go proc (.scanning curConsistentLsn machine.finished lsn 0 invalidXLogRecPtr)

def calScan (machine : Machine Page Buf) (proc : Nat) (curConsistentLsn : XLogRecPtr)
    (earlier : List XLogRecPtr) (lsn : XLogRecPtr) (idx : Nat) (res : XLogRecPtr) :
    Machine Page Buf :=
  if idx < machine.pool.polarCopyBuffers then
    machine.go proc
      (.scanning curConsistentLsn earlier lsn (idx + 1)
        (scanCopy res (machine.pool.copyBuffers idx).oldestLsn))
  else (machine.finish (combine lsn res)).go proc
    (.computed curConsistentLsn earlier (combine lsn res))

inductive Event where
  | step

inductive Step : Event → Machine Page Buf → Machine Page Buf → Prop
  | lock {machine : Machine Page Buf} (proc : Nat) (buf : Buf) (free : machine.use buf = .free) :
      Step .step machine (machine.setUse buf (.exclusive proc))
  | unlock {machine : Machine Page Buf} (proc : Nat) (buf : Buf)
      (held : machine.use buf = .exclusive proc) : Step .step machine (machine.setUse buf .free)
  | markDirty {machine : Machine Page Buf} {pool : State Page Buf} (proc : Nat) (buf : Buf)
      (held : machine.use buf = .exclusive proc)
      (marked : markBufferDirty machine.pool buf = .ok pool) :
      Step .step machine (machine.setPool pool)
  | insert {machine : Machine Page Buf} (size : Nat) : Step .step machine
        (machine.setPool { machine.pool with insertRecPtr := machine.pool.insertRecPtr + size })
  | copyStart {machine : Machine Page Buf} (proc : Nat) (buf : Buf) (cbuf : Nat) (rest : List Nat)
      (here : machine.procs proc = .idle) (free : machine.use buf = .free)
      (uncopied : (machine.pool.buffers buf).copyBuffer = none)
      (valid : (machine.pool.buffers buf).oldestLsn ≠ invalidXLogRecPtr)
      (listed : machine.pool.freeCopyBuffers = cbuf :: rest) :
      Step .step machine
        (((machine.setPool (takeCopy machine.pool rest)).setUse buf (.busy proc)).go proc
          (.copyTaken buf cbuf))
  | copyStamp {machine : Machine Page Buf} (proc : Nat) (buf : Buf) (cbuf : Nat)
      (here : machine.procs proc = .copyTaken buf cbuf) :
      Step .step machine
        ((machine.setPool (stampCopy machine.pool buf cbuf)).go proc (.copyStamped buf cbuf))
  | copyAttach {machine : Machine Page Buf} (proc : Nat) (buf : Buf) (cbuf : Nat)
      (here : machine.procs proc = .copyStamped buf cbuf) :
      Step .step machine
        (((machine.setPool (attachCopy machine.pool buf cbuf)).setUse buf .free).go proc .idle)
  | releaseStart {machine : Machine Page Buf} (proc : Nat) (buf : Buf) (reset : Bool)
      (here : machine.procs proc = .idle) (free : machine.use buf = .free) :
      Step .step machine ((machine.setUse buf (.busy proc)).go proc (.releasing buf reset))
  | detach {machine : Machine Page Buf} (proc : Nat) (buf : Buf) (reset : Bool)
      (here : machine.procs proc = .releasing buf reset) :
      Step .step machine (releaseStep machine proc buf reset)
  | clear {machine : Machine Page Buf} (proc : Nat) (buf : Buf) (cbuf : Nat) (reset : Bool)
      (here : machine.procs proc = .detached buf cbuf reset) :
      Step .step machine
        ((machine.setPool (clearCopy machine.pool cbuf)).go proc (.released buf reset))
  | finishRelease {machine : Machine Page Buf} (proc : Nat) (buf : Buf) (reset : Bool)
      (here : machine.procs proc = .released buf reset) :
      Step .step machine (finishRelease machine proc buf reset)
  | polarGetConsistentLsn {machine : Machine Page Buf} (proc : Nat)
      (here : machine.procs proc = .idle) :
      Step .step machine (machine.go proc (.reading machine.consistentLsn))
  | calHead {machine : Machine Page Buf} (proc : Nat) (curConsistentLsn : XLogRecPtr)
      (here : machine.procs proc = .reading curConsistentLsn) :
      Step .step machine (calHead machine proc curConsistentLsn)
  | calScan {machine : Machine Page Buf} (proc : Nat) (curConsistentLsn : XLogRecPtr)
      (earlier : List XLogRecPtr) (lsn : XLogRecPtr) (idx : Nat) (res : XLogRecPtr)
      (here : machine.procs proc = .scanning curConsistentLsn earlier lsn idx res) :
      Step .step machine (calScan machine proc curConsistentLsn earlier lsn idx res)
  | polarSetConsistentLsn {machine : Machine Page Buf} (proc : Nat) (curConsistentLsn : XLogRecPtr)
      (earlier : List XLogRecPtr) (lsn : XLogRecPtr)
      (here : machine.procs proc = .computed curConsistentLsn earlier lsn) :
      Step .step machine
        ({ machine with consistentLsn := max machine.consistentLsn lsn }.go proc .idle)

/-- A primary behind recovery: the stored consistent LSN, if any, is not beyond the WAL. -/
def startMachine (pool : State Page Buf) (consistentLsn : XLogRecPtr) : Machine Page Buf where
  pool := pool
  use := fun _ => .free
  procs := fun _ => .idle
  consistentLsn := consistentLsn
  finished := []

end PolarDB.Buffer.ConsistentRun
