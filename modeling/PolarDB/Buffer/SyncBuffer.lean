import Mathlib.Algebra.GroupWithZero.Nat
import PolarDB.Buffer.Bufmgr
import PolarDB.Lib.Runs

/-!
# Which page images a primary writes

`SyncOneBuffer` and the search for a victim in `BufferAlloc` decide under the share
content lock whether a buffer may be written, and write it later under its I/O lock. In
between other processes with a share lock may flush the buffer, copy it, or set a hint
bit in it. `writes` keeps what was written, with the oldest apply LSN of the decision.

A page image is known by its LSN.
-/

namespace PolarDB.Buffer.SyncBuffer

open Function

open Buffer.Bufmgr (XLogRecPtr invalidXLogRecPtr)

inductive ForkNumber where
  | main
  | fsm
  | visibilityMap
  | init
  deriving DecidableEq, Repr

structure Config where
  polarEnableSharedStorageMode : Bool
  polarEnableFlushlist : Bool
  polarEnableControlVmFlush : Bool
  polarIgnoreRoLatency : Bool
  polarCopyBufferEnabled : Bool
  /-- `POLAR_LOGINDEX_ENABLE_FULLPAGE()` -/
  fullpageEnabled : Bool
  bgRedoStateIsParallel : Bool
  replayDelayThreshold : Nat
  oldestLsnDelayThreshold : Nat
  snapshotMinModifiedCount : Nat
  fullpageMaxSegmentSize : Nat
  copyMinModifiedCount : Nat
  copyThresholdLag : Nat
  deriving DecidableEq, Repr

structure CopyBufferDesc where
  lsn : XLogRecPtr
  oldestLsn : XLogRecPtr
  deriving DecidableEq, Repr

structure BufferDesc where
  forkNum : ForkNumber
  valid : Bool
  dirty : Bool
  justDirtied : Bool
  permanent : Bool
  lsn : XLogRecPtr
  pageIsNew : Bool
  oldestLsn : XLogRecPtr
  recentlyModifiedCount : Nat
  copyBuffer : Option CopyBufferDesc
  firstTouchedAfterCopy : Bool
  deriving DecidableEq, Repr

/-- What the checks read besides the buffer. -/
structure Positions where
  insertLsn : XLogRecPtr
  consistentLsn : XLogRecPtr
  fullpageSegmentSize : Nat
  deriving DecidableEq, Repr

/-- The reasons to flush that `polar_buffer_can_be_flushed` has besides the LSN of the page. -/
def letThrough (cfg : Config) (forkNum : ForkNumber) (oldestApplyLsn : XLogRecPtr) : Bool :=
  !cfg.polarEnableSharedStorageMode ||
  oldestApplyLsn == invalidXLogRecPtr ||
  forkNum == .fsm ||
  forkNum == .init ||
  (forkNum == .visibilityMap && !cfg.polarEnableControlVmFlush) ||
  cfg.polarIgnoreRoLatency

def polarBufferCanBeFlushed (cfg : Config) (buf : BufferDesc) (oldestApplyLsn : XLogRecPtr)
    (useCbuf : Bool) : Bool :=
  if letThrough cfg buf.forkNum oldestApplyLsn || buf.lsn ≤ oldestApplyLsn then true
  else if useCbuf then
    match buf.copyBuffer with
    | some cbuf => cbuf.lsn ≤ oldestApplyLsn
    | none => false
  else false

def oneMb : Nat := 1024 * 1024

def polarBufferNeedFullpageSnapshot (cfg : Config) (positions : Positions) (buf : BufferDesc)
    (oldestApplyLsn : XLogRecPtr) : Bool :=
  if cfg.bgRedoStateIsParallel then false
  else if buf.pageIsNew || buf.lsn ≤ oldestApplyLsn || buf.forkNum != .main then false
  else
    let bufOldestLsn := match buf.copyBuffer with
      | some cbuf => min cbuf.oldestLsn buf.oldestLsn
      | none => buf.oldestLsn
    if !cfg.fullpageEnabled || oldestApplyLsn == invalidXLogRecPtr ||
        bufOldestLsn == invalidXLogRecPtr then false
    else if positions.insertLsn < bufOldestLsn + cfg.oldestLsnDelayThreshold * oneMb then false
    else if buf.lsn < oldestApplyLsn + cfg.replayDelayThreshold * oneMb &&
        buf.recentlyModifiedCount < cfg.snapshotMinModifiedCount then false
    else if cfg.fullpageMaxSegmentSize < positions.fullpageSegmentSize then false
    else true

/-- The lag behind the consistent LSN is kept in 32 bits. -/
def lsnLagWithConsLsn (positions : Positions) (oldestLsn : XLogRecPtr) : Nat :=
  (oldestLsn + 2 ^ 64 - positions.consistentLsn) % 2 ^ 32

def polarBufferCopyIsSatisfied (cfg : Config) (positions : Positions) (buf : BufferDesc)
    (oldestApplyLsn : XLogRecPtr) (ioInProgress : Bool) : Bool :=
  if !cfg.polarCopyBufferEnabled then false
  else if !cfg.polarEnableSharedStorageMode || oldestApplyLsn == invalidXLogRecPtr ||
      buf.forkNum == .fsm || buf.forkNum == .init ||
      (buf.forkNum == .visibilityMap && !cfg.polarEnableControlVmFlush) ||
      buf.lsn ≤ oldestApplyLsn then false
  else if buf.copyBuffer.isSome then false
  else if buf.oldestLsn == invalidXLogRecPtr then false
  else if !buf.permanent || ioInProgress then false
  else
    let lag := lsnLagWithConsLsn positions buf.oldestLsn
    (cfg.copyMinModifiedCount < buf.recentlyModifiedCount && lag < cfg.copyThresholdLag * oneMb) ||
      lag < cfg.copyThresholdLag * oneMb / 2

/-- `FlushBuffer` logs a full page snapshot before it writes a future page. -/
def logsSnapshot (cfg : Config) (buf : BufferDesc) (oldestApplyLsn : XLogRecPtr)
    (skipFullpage : Bool) : Bool :=
  cfg.fullpageEnabled && !skipFullpage && !buf.pageIsNew && oldestApplyLsn != invalidXLogRecPtr &&
    oldestApplyLsn < buf.lsn && buf.forkNum == .main

/-- A written page image. `flushControl` is unset for the writes of `FlushRelationBuffers` and its
like, which hold an exclusive lock on the relation and leave out the checks. -/
structure Write where
  forkNum : ForkNumber
  lsn : XLogRecPtr
  oldestApplyLsn : XLogRecPtr
  snapshotLogged : Bool
  flushControl : Bool
  deriving DecidableEq, Repr

/-- Where a process is. All places but `idle`, `pinned` and `modifying` are under the share content
lock. -/
inductive Pc (Buf : Type) where
  | idle
  | modifying (buf : Buf)
  | hinting (buf : Buf) (lsn : XLogRecPtr)
  | pinned (buf : Buf) (oldestApplyLsn : XLogRecPtr) (shutdown : Bool)
  | flushCheck (buf : Buf) (oldestApplyLsn : XLogRecPtr) (shutdown : Bool)
  | snapshotCheck (buf : Buf) (oldestApplyLsn : XLogRecPtr) (shutdown : Bool)
  | copyFlushCheck (buf : Buf) (oldestApplyLsn : XLogRecPtr)
  | copyCheck (buf : Buf) (oldestApplyLsn : XLogRecPtr)
  | victimCheck (buf : Buf) (oldestApplyLsn : XLogRecPtr)
  /-- At the start of `FlushBuffer`. -/
  | flush (buf : Buf) (oldestApplyLsn : XLogRecPtr) (skipFullpage : Bool)
  | writing (buf : Buf) (oldestApplyLsn : XLogRecPtr) (skipFullpage : Bool)
  | written (buf : Buf)
  /-- At the start of `polar_flush_copy_buffer`. -/
  | flushCopy (buf : Buf)
  | recheckCopy (buf : Buf)
  | writingCopy (buf : Buf) (oldestApplyLsn : XLogRecPtr)
  /-- At the start of `copy_buffer_alloc`. -/
  | copy (buf : Buf) (oldestApplyLsn : XLogRecPtr)
  | copying (buf : Buf) (oldestApplyLsn : XLogRecPtr)
  deriving DecidableEq

def Pc.buffer {Buf : Type} : Pc Buf → Option Buf
  | .idle => none
  | .modifying buf | .hinting buf _ | .pinned buf _ _ | .flushCheck buf _ _ | .snapshotCheck buf _ _
  | .copyFlushCheck buf _ | .copyCheck buf _ | .victimCheck buf _ | .flush buf _
      _ | .writing buf _ _
  | .written buf | .flushCopy buf | .recheckCopy buf | .writingCopy buf _ | .copy buf _ | .copying
      buf _ => some buf

structure State (Buf : Type) where
  buffers : Buf → BufferDesc
  /-- Holders of the share content lock. -/
  sharers : Buf → List Nat
  /-- Holder of the exclusive content lock. -/
  exclusive : Buf → Option Nat
  /-- The process that set `BM_IO_IN_PROGRESS`. -/
  io : Buf → Option Nat
  positions : Positions
  oldestApplyLsn : XLogRecPtr
  procs : Nat → Pc Buf
  writes : List Write

variable {Buf : Type} [DecidableEq Buf]

def State.go (st : State Buf) (proc : Nat) (pc : Pc Buf) : State Buf :=
  { st with procs := update st.procs proc pc }

def State.setBuffer (st : State Buf) (buf : Buf) (desc : BufferDesc) : State Buf :=
  { st with buffers := update st.buffers buf desc }

def State.share (st : State Buf) (proc : Nat) (buf : Buf) : State Buf :=
  { st with sharers := update st.sharers buf (proc :: st.sharers buf) }

def State.setIo (st : State Buf) (buf : Buf) (owner : Option Nat) : State Buf :=
  { st with io := update st.io buf owner }

def State.setExclusive (st : State Buf) (buf : Buf) (owner : Option Nat) : State Buf :=
  { st with exclusive := update st.exclusive buf owner }

def State.release (st : State Buf) (proc : Nat) (buf : Buf) : State Buf :=
  { st with
    sharers := update st.sharers buf ((st.sharers buf).erase proc)
    procs := update st.procs proc .idle }

def State.record (st : State Buf) (write : Write) : State Buf :=
  { st with writes := write :: st.writes }

/-- The first touch behind a copy renews the oldest LSN: the copy has the older one. -/
def polarSetBufferFakeOldestLsn (cfg : Config) (positions : Positions) (buf : BufferDesc) :
    BufferDesc :=
  if !cfg.polarEnableSharedStorageMode || !cfg.polarEnableFlushlist then buf
  else
    let touched := { buf with recentlyModifiedCount := (buf.recentlyModifiedCount + 1) % 2 ^ 16 }
    if buf.oldestLsn = invalidXLogRecPtr then { touched with oldestLsn := positions.insertLsn }
    else if buf.copyBuffer.isSome && !buf.firstTouchedAfterCopy then
      { touched with oldestLsn := positions.insertLsn, firstTouchedAfterCopy := true }
    else touched

/-- `MarkBufferDirty`, and the new LSN of the page, under the exclusive content lock. -/
def modifyBuffer (cfg : Config) (positions : Positions) (buf : BufferDesc) (lsn : XLogRecPtr)
    (pageIsNew : Bool) : BufferDesc :=
  { polarSetBufferFakeOldestLsn cfg positions buf with
    dirty := true
    justDirtied := true
    lsn := lsn
    pageIsNew := pageIsNew }

/-- `MarkBufferDirtyHint` under a share lock, behind the WAL record for the hint, if there is
one. -/
def markBufferDirtyHint (buf : BufferDesc) (lsn : XLogRecPtr) : BufferDesc :=
  { buf with
    dirty := true
    justDirtied := true
    lsn := if !buf.dirty && lsn != invalidXLogRecPtr then lsn else buf.lsn }

def setOldestReplicaLsn (current oldestApplyLsn : XLogRecPtr) : XLogRecPtr :=
  if current < oldestApplyLsn ∨ oldestApplyLsn = invalidXLogRecPtr then oldestApplyLsn else current

section
variable (cfg : Config) (st : State Buf) (proc : Nat) (buf : Buf) (oldestApplyLsn : XLogRecPtr)

def flushCheck (shutdown : Bool) : State Buf :=
  if polarBufferCanBeFlushed cfg (st.buffers buf) oldestApplyLsn false then
    st.go proc (.flush buf oldestApplyLsn false)
  else st.go proc (.snapshotCheck buf oldestApplyLsn shutdown)

def snapshotCheck (shutdown : Bool) : State Buf :=
  if !shutdown &&
      polarBufferNeedFullpageSnapshot cfg st.positions (st.buffers buf) oldestApplyLsn then
    st.go proc (.flush buf oldestApplyLsn false)
  else st.go proc (.copyFlushCheck buf oldestApplyLsn)

def copyFlushCheck : State Buf :=
  if polarBufferCanBeFlushed cfg (st.buffers buf) oldestApplyLsn true then
    st.go proc (.flushCopy buf)
  else st.go proc (.copyCheck buf oldestApplyLsn)

def copyCheck : State Buf :=
  if polarBufferCopyIsSatisfied cfg st.positions (st.buffers buf) oldestApplyLsn
      (st.io buf).isSome then
    st.go proc (.copy buf oldestApplyLsn)
  else st.release proc buf

/-- `BufferAlloc` gives a victim up that cannot be flushed. -/
def victimCheck : State Buf :=
  if polarBufferCanBeFlushed cfg (st.buffers buf) oldestApplyLsn false then
    st.go proc (.flush buf oldestApplyLsn false)
  else st.release proc buf

/-- `StartBufferIO`: nothing is left to do if another process has written the buffer. -/
def startFlush (skipFullpage : Bool) : State Buf :=
  if !(st.buffers buf).dirty then st.release proc buf
  else
    ((st.setIo buf (some proc)).setBuffer buf { st.buffers buf with justDirtied := false }).go proc
      (.writing buf oldestApplyLsn skipFullpage)

def writeBuffer (skipFullpage : Bool) : State Buf :=
  (st.record
    { forkNum := (st.buffers buf).forkNum
      lsn := (st.buffers buf).lsn
      oldestApplyLsn := oldestApplyLsn
      snapshotLogged := logsSnapshot cfg (st.buffers buf) oldestApplyLsn skipFullpage
      flushControl := !skipFullpage }).go proc (.written buf)

/-- Nothing changes without a copy buffer. -/
def polarFreeCopyBuffer (buf : BufferDesc) : BufferDesc :=
  { buf with
    copyBuffer := none
    firstTouchedAfterCopy := buf.firstTouchedAfterCopy && buf.copyBuffer.isNone }

/-- Nothing changes without an oldest LSN. -/
def polarResetBufferOldestLsn (buf : BufferDesc) : BufferDesc :=
  let listed := buf.oldestLsn != invalidXLogRecPtr
  { buf with
    oldestLsn := invalidXLogRecPtr
    recentlyModifiedCount := if listed then 0 else buf.recentlyModifiedCount
    firstTouchedAfterCopy := !listed && buf.firstTouchedAfterCopy }

/-- Behind the write, up to `TerminateBufferIO`. -/
def cleaned (buf : BufferDesc) : BufferDesc :=
  { (if cfg.polarEnableSharedStorageMode then polarResetBufferOldestLsn (polarFreeCopyBuffer buf)
    else buf) with
    dirty := buf.justDirtied }

def finishFlush : State Buf :=
  ((st.setBuffer buf (cleaned cfg (st.buffers buf))).setIo buf none).release proc buf

def startFlushCopy : State Buf :=
  if !(st.buffers buf).valid || !(st.buffers buf).dirty || (st.buffers buf).copyBuffer.isNone then
    st.release proc buf
  else (st.setIo buf (some proc)).go proc (.recheckCopy buf)

/-- The oldest apply LSN is read again, and the buffer checked with it. -/
def recheckCopy : State Buf :=
  if polarBufferCanBeFlushed cfg (st.buffers buf) st.oldestApplyLsn true then
    st.go proc (.writingCopy buf st.oldestApplyLsn)
  else (st.setIo buf none).release proc buf

def writeCopy : State Buf :=
  match (st.buffers buf).copyBuffer with
  | none => (st.setIo buf none).release proc buf
  | some cbuf =>
    (((st.record
      { forkNum := (st.buffers buf).forkNum
        lsn := cbuf.lsn
        oldestApplyLsn := oldestApplyLsn
        snapshotLogged := false
        flushControl := true }).setBuffer buf
      (polarFreeCopyBuffer (st.buffers buf))).setIo buf none).release proc buf

def startCopy : State Buf :=
  if !(st.buffers buf).valid || !(st.buffers buf).dirty || (st.buffers buf).copyBuffer.isSome then
    st.release proc buf
  else (st.setIo buf (some proc)).go proc (.copying buf oldestApplyLsn)

/-- The check is made again under the I/O lock; `available` says that there is a free copy
buffer. -/
def copyBufferAlloc (available : Bool) : State Buf :=
  if polarBufferCopyIsSatisfied cfg st.positions (st.buffers buf) oldestApplyLsn false &&
      available then
    ((st.setBuffer buf
      { st.buffers buf with
        copyBuffer := some ⟨(st.buffers buf).lsn, (st.buffers buf).oldestLsn⟩ }).setIo buf
      none).release proc buf
  else (st.setIo buf none).release proc buf

end

inductive Event (Buf : Type) where
  | hint (buf : Buf) (lsn : XLogRecPtr)
  | other

inductive Step (cfg : Config) : Event Buf → State Buf → State Buf → Prop
  /-- The positions and the reports of the replicas change at any time. -/
  | positions {st : State Buf} (positions : Positions) :
      Step cfg .other st { st with positions := positions }
  | setOldestReplicaLsn {st : State Buf} (oldestApplyLsn : XLogRecPtr) : Step cfg .other st
        { st with oldestApplyLsn := setOldestReplicaLsn st.oldestApplyLsn oldestApplyLsn }
  /-- A buffer that nobody has pinned is invalidated, or evicted and read again. -/
  | replace {st : State Buf} (buf : Buf) (desc : BufferDesc)
      (unpinned : ∀ proc, (st.procs proc).buffer ≠ some buf) (clean : desc.dirty = false)
      (uncopied : desc.copyBuffer = none) : Step cfg .other st (st.setBuffer buf desc)
  | lockExclusive {st : State Buf} (proc : Nat) (buf : Buf) (here : st.procs proc = .idle)
      (unshared : st.sharers buf = []) (free : st.exclusive buf = none) :
      Step cfg .other st ((st.setExclusive buf (some proc)).go proc (.modifying buf))
  | modify {st : State Buf} (proc : Nat) (buf : Buf) (lsn : XLogRecPtr) (pageIsNew : Bool)
      (here : st.procs proc = .modifying buf) :
      Step cfg .other st
        (st.setBuffer buf (modifyBuffer cfg st.positions (st.buffers buf) lsn pageIsNew))
  | unlockExclusive {st : State Buf} (proc : Nat) (buf : Buf)
      (here : st.procs proc = .modifying buf) :
      Step cfg .other st ((st.setExclusive buf none).go proc .idle)
  /-- `lsn` is invalid if no WAL record is needed for the hint. -/
  | hintLog {st : State Buf} (proc : Nat) (buf : Buf) (lsn : XLogRecPtr)
      (here : st.procs proc = .idle) (free : st.exclusive buf = none) :
      Step cfg .other st ((st.share proc buf).go proc (.hinting buf lsn))
  | markBufferDirtyHint {st : State Buf} (proc : Nat) (buf : Buf) (lsn : XLogRecPtr)
      (here : st.procs proc = .hinting buf lsn) :
      Step cfg (.hint buf lsn) st
        ((st.setBuffer buf (markBufferDirtyHint (st.buffers buf) lsn)).release proc buf)
  | syncOneBuffer {st : State Buf} (proc : Nat) (buf : Buf) (shutdown : Bool)
      (here : st.procs proc = .idle)
      (valid : (st.buffers buf).valid = true) (dirty : (st.buffers buf).dirty = true) :
      Step cfg .other st (st.go proc (.pinned buf st.oldestApplyLsn shutdown))
  | lockShared {st : State Buf} (proc : Nat) (buf : Buf) (oldestApplyLsn : XLogRecPtr)
      (shutdown : Bool)
      (here : st.procs proc = .pinned buf oldestApplyLsn shutdown)
        (free : st.exclusive buf = none) :
      Step cfg .other st ((st.share proc buf).go proc (.flushCheck buf oldestApplyLsn shutdown))
  | flushCheck {st : State Buf} (proc : Nat) (buf : Buf) (oldestApplyLsn : XLogRecPtr)
      (shutdown : Bool) (here : st.procs proc = .flushCheck buf oldestApplyLsn shutdown) :
      Step cfg .other st (flushCheck cfg st proc buf oldestApplyLsn shutdown)
  | snapshotCheck {st : State Buf} (proc : Nat) (buf : Buf) (oldestApplyLsn : XLogRecPtr)
      (shutdown : Bool) (here : st.procs proc = .snapshotCheck buf oldestApplyLsn shutdown) :
      Step cfg .other st (snapshotCheck cfg st proc buf oldestApplyLsn shutdown)
  | copyFlushCheck {st : State Buf} (proc : Nat) (buf : Buf) (oldestApplyLsn : XLogRecPtr)
      (here : st.procs proc = .copyFlushCheck buf oldestApplyLsn) :
      Step cfg .other st (copyFlushCheck cfg st proc buf oldestApplyLsn)
  | copyCheck {st : State Buf} (proc : Nat) (buf : Buf) (oldestApplyLsn : XLogRecPtr)
      (here : st.procs proc = .copyCheck buf oldestApplyLsn) :
      Step cfg .other st (copyCheck cfg st proc buf oldestApplyLsn)
  | bufferAlloc {st : State Buf} (proc : Nat) (buf : Buf) (here : st.procs proc = .idle)
      (dirty : (st.buffers buf).dirty = true) (free : st.exclusive buf = none) :
      Step cfg .other st ((st.share proc buf).go proc (.victimCheck buf st.oldestApplyLsn))
  | victimCheck {st : State Buf} (proc : Nat) (buf : Buf) (oldestApplyLsn : XLogRecPtr)
      (here : st.procs proc = .victimCheck buf oldestApplyLsn) :
      Step cfg .other st (victimCheck cfg st proc buf oldestApplyLsn)
  | flushRelationBuffers {st : State Buf} (proc : Nat) (buf : Buf) (oldestApplyLsn : XLogRecPtr)
      (here : st.procs proc = .idle) (free : st.exclusive buf = none) :
      Step cfg .other st ((st.share proc buf).go proc (.flush buf oldestApplyLsn true))
  | startFlush {st : State Buf} (proc : Nat) (buf : Buf) (oldestApplyLsn : XLogRecPtr)
      (skipFullpage : Bool)
      (here : st.procs proc = .flush buf oldestApplyLsn skipFullpage) (idle : st.io buf = none) :
      Step cfg .other st (startFlush st proc buf oldestApplyLsn skipFullpage)
  | writeBuffer {st : State Buf} (proc : Nat) (buf : Buf) (oldestApplyLsn : XLogRecPtr)
      (skipFullpage : Bool) (here : st.procs proc = .writing buf oldestApplyLsn skipFullpage) :
      Step cfg .other st (writeBuffer cfg st proc buf oldestApplyLsn skipFullpage)
  | finishFlush {st : State Buf} (proc : Nat) (buf : Buf) (here : st.procs proc = .written buf) :
      Step cfg .other st (finishFlush cfg st proc buf)
  | startFlushCopy {st : State Buf} (proc : Nat) (buf : Buf) (here : st.procs proc = .flushCopy buf)
      (idle : st.io buf = none) : Step cfg .other st (startFlushCopy st proc buf)
  | recheckCopy {st : State Buf} (proc : Nat) (buf : Buf)
      (here : st.procs proc = .recheckCopy buf) : Step cfg .other st (recheckCopy cfg st proc buf)
  | writeCopy {st : State Buf} (proc : Nat) (buf : Buf) (oldestApplyLsn : XLogRecPtr)
      (here : st.procs proc = .writingCopy buf oldestApplyLsn) :
      Step cfg .other st (writeCopy st proc buf oldestApplyLsn)
  | startCopy {st : State Buf} (proc : Nat) (buf : Buf) (oldestApplyLsn : XLogRecPtr)
      (here : st.procs proc = .copy buf oldestApplyLsn) (idle : st.io buf = none) :
      Step cfg .other st (startCopy st proc buf oldestApplyLsn)
  | copyBufferAlloc {st : State Buf} (proc : Nat) (buf : Buf) (oldestApplyLsn : XLogRecPtr)
      (available : Bool) (here : st.procs proc = .copying buf oldestApplyLsn) :
      Step cfg .other st (copyBufferAlloc cfg st proc buf oldestApplyLsn available)

/-- No process is at work, no buffer is dirty and no copy buffer in use. -/
structure Started (st : State Buf) : Prop where
  clean : ∀ buf, (st.buffers buf).dirty = false
  uncopied : ∀ buf, (st.buffers buf).copyBuffer = none
  idle : ∀ proc, st.procs proc = .idle
  unshared : ∀ buf, st.sharers buf = []
  unlocked : ∀ buf, st.exclusive buf = none
  noIo : ∀ buf, st.io buf = none
  nothing : st.writes = []

end PolarDB.Buffer.SyncBuffer
