import PolarDB.Lib.Doubly

/-!
# Dirty buffers, the flush list and the copy buffers

The part of the buffer manager that decides the consistent LSN of a primary
outside recovery. A page image is the list of the start LSNs of the WAL records
applied to it. `modified`, `discarded` and `uncovered` are records of the past that
no function reads: the WAL records that modified a page, those whose effect was
thrown away with an invalidated buffer, and those that came without the exclusive
content lock or for a hint, for which no oldest LSN is set.
-/

namespace PolarDB.Buffer.Bufmgr

open Function Lib.Doubly

abbrev XLogRecPtr := Nat

def invalidXLogRecPtr : XLogRecPtr := 0

structure BufferDesc (Page : Type) where
  tag : Option Page
  image : List XLogRecPtr
  dirty : Bool
  /-- Some process holds the content lock in exclusive mode. -/
  contentLocked : Bool
  oldestLsn : XLogRecPtr
  oldestLsnIsFake : Bool
  firstTouchedAfterCopy : Bool
  copyBuffer : Option Nat
  deriving DecidableEq, Repr

structure CopyBufferDesc (Buf : Type) where
  oldestLsn : XLogRecPtr
  originBuffer : Option Buf
  image : List XLogRecPtr
  deriving DecidableEq, Repr

structure State (Page Buf : Type) where
  insertRecPtr : XLogRecPtr
  buffers : Buf → BufferDesc Page
  flushCtl : Chain Buf
  /-- The number of copy buffers. -/
  polarCopyBuffers : Nat
  copyBuffers : Nat → CopyBufferDesc Buf
  /-- The copy buffers met from the first free one along the free links. -/
  freeCopyBuffers : List Nat
  storage : Page → List XLogRecPtr
  modified : Page → List XLogRecPtr
  discarded : Page → List XLogRecPtr
  uncovered : Page → List XLogRecPtr

/-- A buffer registered for a record; its inserter may hold the exclusive content lock or not. -/
structure RegBuffer (Buf : Type) where
  buffer : Buf
  exclusive : Bool
  deriving DecidableEq, Repr

inductive Panic where
  | smallOldestLsn
  deriving DecidableEq, Repr

variable {Page Buf : Type} [DecidableEq Page] [DecidableEq Buf]

def State.setBuffer (st : State Page Buf) (buf : Buf) (desc : BufferDesc Page) : State Page Buf :=
  { st with buffers := update st.buffers buf desc }

section
variable (st : State Page Buf) (buf : Buf)

def polarBufferSetFakeOldestLsn : State Page Buf :=
  st.setBuffer buf { st.buffers buf with oldestLsn := st.insertRecPtr }

def removeOneBuffer : State Page Buf := { st with flushCtl := st.flushCtl.remove buf }

def appendOneBuffer : Except Panic (State Page Buf) :=
  match st.flushCtl.last with
  | .node tail =>
    if (st.buffers buf).oldestLsn < (st.buffers tail).oldestLsn then .error .smallOldestLsn
    else .ok { st with flushCtl := st.flushCtl.append buf }
  | _ => .ok { st with flushCtl := st.flushCtl.append buf }

def polarRemoveBufferFromFlushList : State Page Buf :=
  removeOneBuffer (st.setBuffer buf { st.buffers buf with oldestLsn := invalidXLogRecPtr }) buf

def polarPutBufferToFlushList (lsn : XLogRecPtr) : Except Panic (State Page Buf) :=
  if lsn = invalidXLogRecPtr then appendOneBuffer (polarBufferSetFakeOldestLsn st buf) buf
  else appendOneBuffer (st.setBuffer buf { st.buffers buf with oldestLsn := lsn }) buf

def polarAdjustPositionInFlushList : Except Panic (State Page Buf) :=
  let faked := polarBufferSetFakeOldestLsn st buf
  if faked.flushCtl.next buf = .endOfList then .ok faked
  else appendOneBuffer (removeOneBuffer faked buf) buf

def polarResetBufferOldestLsn : State Page Buf :=
  if (st.buffers buf).oldestLsn = invalidXLogRecPtr then st
  else
    polarRemoveBufferFromFlushList (st.setBuffer buf
        { st.buffers buf with oldestLsnIsFake := false, firstTouchedAfterCopy := false }) buf

def polarBufferFirstTouchAfterCopy : Bool :=
  (st.buffers buf).copyBuffer.isSome && !(st.buffers buf).firstTouchedAfterCopy

def polarSetBufferFakeOldestLsn : Except Panic (State Page Buf) :=
  if (st.buffers buf).oldestLsn = invalidXLogRecPtr then do
    let put ← polarPutBufferToFlushList st buf invalidXLogRecPtr
    return put.setBuffer buf { put.buffers buf with oldestLsnIsFake := true }
  else if polarBufferFirstTouchAfterCopy st buf then do
    let adjusted ← polarAdjustPositionInFlushList st buf
    return adjusted.setBuffer buf { adjusted.buffers buf with firstTouchedAfterCopy := true }
  else .ok st

def markBufferDirty : Except Panic (State Page Buf) :=
  polarSetBufferFakeOldestLsn (st.setBuffer buf { st.buffers buf with dirty := true }) buf

/-- The cover for a record inserted before its buffers are marked dirty. -/
def polarSetRegBufferOldestLsn (st : State Page Buf) (reg : RegBuffer Buf) :
    Except Panic (State Page Buf) :=
  if !reg.exclusive then .ok st
  else if (st.buffers reg.buffer).oldestLsn = invalidXLogRecPtr ∨
      polarBufferFirstTouchAfterCopy st reg.buffer then
    markBufferDirty st reg.buffer
  else .ok st

/-- Make a copy of a dirty buffer, when it has none yet and a copy buffer is free. -/
def copyBufferAlloc : State Page Buf :=
  if (st.buffers buf).copyBuffer.isSome then st
  else if (st.buffers buf).oldestLsn = invalidXLogRecPtr then st
  else
    match st.freeCopyBuffers with
    | [] => st
    | cbuf :: rest =>
      { st with
        freeCopyBuffers := rest
        copyBuffers := update st.copyBuffers cbuf
          { oldestLsn := (st.buffers buf).oldestLsn
            originBuffer := some buf
            image := (st.buffers buf).image }
        buffers := update st.buffers buf
          { st.buffers buf with copyBuffer := some cbuf } }

def polarFreeCopyBuffer : State Page Buf :=
  match (st.buffers buf).copyBuffer with
  | none => st
  | some cbuf =>
    { st with
      buffers := update st.buffers buf
        { st.buffers buf with copyBuffer := none, firstTouchedAfterCopy := false }
      copyBuffers := update st.copyBuffers cbuf
        { st.copyBuffers cbuf with oldestLsn := invalidXLogRecPtr, originBuffer := none }
      freeCopyBuffers := cbuf :: st.freeCopyBuffers }

def smgrwrite (tag : Option Page) (image : List XLogRecPtr) : State Page Buf :=
  { st with storage := fun page => if tag = some page then image else st.storage page }

def polarFlushCopyBuffer : State Page Buf :=
  match (st.buffers buf).copyBuffer with
  | none => st
  | some cbuf =>
    polarFreeCopyBuffer (smgrwrite st (st.buffers buf).tag (st.copyBuffers cbuf).image) buf

def polarCopyBuffersGetOldestLsn : XLogRecPtr := (List.range st.polarCopyBuffers).foldl
    (fun res cbuf =>
      let curLsn := (st.copyBuffers cbuf).oldestLsn
      if curLsn = invalidXLogRecPtr then res
      else if res = invalidXLogRecPtr ∨ curLsn < res then curLsn
      else res)
    invalidXLogRecPtr

def flushBuffer : State Page Buf :=
  if !(st.buffers buf).dirty then st
  else
    let written := smgrwrite st (st.buffers buf).tag (st.buffers buf).image
    let reset := polarResetBufferOldestLsn (polarFreeCopyBuffer written buf) buf
    reset.setBuffer buf { reset.buffers buf with dirty := false }

def dropImage : State Page Buf :=
  { st with
    discarded := fun page =>
      if (st.buffers buf).tag = some page then
        (st.buffers buf).image.filter (fun lsn => !(st.storage page).contains lsn) ++
          st.discarded page
      else st.discarded page }

def invalidateBuffer : State Page Buf :=
  let dropped := dropImage st buf
  let cleared := dropped.setBuffer buf { dropped.buffers buf with
      tag := none, image := [], dirty := false }
  polarResetBufferOldestLsn (polarFreeCopyBuffer cleared buf) buf

def readBuffer (page : Page) : State Page Buf :=
  st.setBuffer buf { st.buffers buf with tag := some page, image := st.storage page }

def evictBuffer : State Page Buf :=
  st.setBuffer buf { st.buffers buf with tag := none, image := [] }

end

/-- The record starting at `startPos` modifies the page of one buffer. -/
def applyRecord (startPos : XLogRecPtr) (st : State Page Buf) (reg : RegBuffer Buf) :
    State Page Buf :=
  match (st.buffers reg.buffer).tag with
  | none => st
  | some page =>
    { st with
      buffers := update st.buffers reg.buffer
        { st.buffers reg.buffer with image := startPos :: (st.buffers reg.buffer).image }
      modified := update st.modified page (startPos :: st.modified page)
      uncovered :=
        if reg.exclusive then st.uncovered
        else update st.uncovered page (startPos :: st.uncovered page) }

/-- The full page image of `size` bytes that `XLogSaveBufferForHint` inserts: the block is
registered without its buffer, so no oldest LSN is set. -/
def xlogSaveBufferForHint (st : State Page Buf) (buf : Buf) (size : Nat) : State Page Buf :=
  applyRecord st.insertRecPtr { st with insertRecPtr := st.insertRecPtr + size }
    { buffer := buf, exclusive := false }

/-- `logged` is the size of the full page image, when hints are logged and the page needs one. -/
def markBufferDirtyHint (st : State Page Buf) (buf : Buf) (logged : Option Nat) : State Page Buf :=
  if (st.buffers buf).dirty then st
  else
    let saved := match logged with
      | none => st
      | some size => xlogSaveBufferForHint st buf size
    saved.setBuffer buf { saved.buffers buf with dirty := true }

/-- Insert a record of `size` bytes that modifies the pages of the registered buffers. -/
def xlogInsert (st : State Page Buf) (regs : List (RegBuffer Buf)) (size : Nat) :
    Except Panic (State Page Buf) := do
  let assembled ← regs.foldlM polarSetRegBufferOldestLsn st
  let startPos := assembled.insertRecPtr
  return regs.foldl (applyRecord startPos) { assembled with insertRecPtr := startPos + size }

def polarFlushListIsEmpty (st : State Page Buf) : Bool := st.flushCtl.first = .endOfList ∧
    st.flushCtl.last = .endOfList

def polarCalCurConsistentLsn (st : State Page Buf) : XLogRecPtr :=
  if polarFlushListIsEmpty st then st.insertRecPtr
  else
    let lsn := match st.flushCtl.first with
      | .node buf => (st.buffers buf).oldestLsn
      | _ => invalidXLogRecPtr
    let clsn := polarCopyBuffersGetOldestLsn st
    if clsn = invalidXLogRecPtr then lsn else min lsn clsn

def cleanBuffer : BufferDesc Page :=
  { tag := none, image := [], dirty := false, contentLocked := false, oldestLsn := invalidXLogRecPtr
    oldestLsnIsFake := false, firstTouchedAfterCopy := false, copyBuffer := none }

/-- A buffer pool after startup: every buffer is empty and every copy buffer is free. -/
def startState (insertRecPtr : XLogRecPtr) (copies : Nat) (storage : Page → List XLogRecPtr) :
    State Page Buf :=
  { insertRecPtr := insertRecPtr
    buffers := fun _ => cleanBuffer
    flushCtl := Chain.empty
    polarCopyBuffers := copies
    copyBuffers := fun _ => { oldestLsn := invalidXLogRecPtr, originBuffer := none, image := [] }
    freeCopyBuffers := List.range copies
    storage := storage
    modified := fun _ => []
    discarded := fun _ => []
    uncovered := fun _ => [] }

/-- One atomic step. A page is marked dirty under its exclusive content lock, for a hint under any
content lock; copying, flushing and invalidating wait for the exclusive lock. -/
inductive Step : State Page Buf → State Page Buf → Prop
  | lock {st : State Page Buf} (buf : Buf) (free : (st.buffers buf).contentLocked = false)
      (mapped : (st.buffers buf).tag ≠ none) :
      Step st (st.setBuffer buf { st.buffers buf with contentLocked := true })
  | unlock {st : State Page Buf} (buf : Buf) :
      Step st (st.setBuffer buf { st.buffers buf with contentLocked := false })
  | markDirty {st next : State Page Buf} (buf : Buf)
      (locked : (st.buffers buf).contentLocked = true) (mapped : (st.buffers buf).tag ≠ none)
      (marked : markBufferDirty st buf = .ok next) : Step st next
  | markDirtyHint {st : State Page Buf} (buf : Buf) (logged : Option Nat)
      (mapped : (st.buffers buf).tag ≠ none) : Step st (markBufferDirtyHint st buf logged)
  | insert {st next : State Page Buf} (regs : List (RegBuffer Buf)) (size : Nat)
      (positive : 0 < size)
      (locked : ∀ reg ∈ regs, reg.exclusive → (st.buffers reg.buffer).contentLocked = true)
      (mapped : ∀ reg ∈ regs, (st.buffers reg.buffer).tag ≠ none)
      (inserted : xlogInsert st regs size = .ok next) : Step st next
  | copy {st : State Page Buf} (buf : Buf) (free : (st.buffers buf).contentLocked = false) :
      Step st (copyBufferAlloc st buf)
  | flush {st : State Page Buf} (buf : Buf) (free : (st.buffers buf).contentLocked = false) :
      Step st (flushBuffer st buf)
  | flushCopy {st : State Page Buf} (buf : Buf) (free : (st.buffers buf).contentLocked = false) :
      Step st (polarFlushCopyBuffer st buf)
  | invalidate {st : State Page Buf} (buf : Buf)
      (free : (st.buffers buf).contentLocked = false) : Step st (invalidateBuffer st buf)
  | read {st : State Page Buf} (buf : Buf) (page : Page) (empty : (st.buffers buf).tag = none)
      (unmapped : ∀ other, (st.buffers other).tag ≠ some page) : Step st (readBuffer st buf page)
  | evict {st : State Page Buf} (buf : Buf) (free : (st.buffers buf).contentLocked = false)
      (clean : (st.buffers buf).dirty = false) : Step st (evictBuffer st buf)

inductive Run : State Page Buf → State Page Buf → Prop
  | refl (st : State Page Buf) : Run st st
  | tail {start middle next : State Page Buf} (run : Run start middle) (step : Step middle next) :
      Run start next

end PolarDB.Buffer.Bufmgr
