import Mathlib.Tactic.SplitIfs
import PolarDB.Lib.SparseFile
import PolarDB.Lib.Runs
import Mathlib.Logic.Function.Basic

/-!
# The local cache of segment files

Segments of shared storage are cached in local files. A table of slots holds the
segments in use, with the status of each: a read takes a reference, a write or a flush
marks the segment as written to, and both do their input and output without the lock.

Each section under the lock is one step, and so is each access to a file. A process
that waits for a segment tries again in a later step. System calls succeed, and reads
are short only at the end of a file; the recording of flushed segments without
permission to write shared storage is left out.
-/

namespace PolarDB.LocalCache.Cache

open Lib.Runs
open Function Lib.SparseFile

/-- The limits and `io_permission`; that local files may be read is asserted by every read. -/
structure Config where
  maxSegments : Nat
  segmentSize : Nat
  localWrite : Bool
  sharedRead : Bool
  sharedWrite : Bool

/-- `polar_io_segment`. For the bit `WRITE_IN_PROGRESS` and the count of read references, `writer`
and `readers` say which processes they stand for. -/
structure IoSegment where
  segno : Nat
  occupied : Bool
  dirty : Bool
  setMinOffset : Bool
  readable : Bool
  writer : Option Nat
  readers : List Nat
  minWriteOffset : Nat

def segReadMask : Nat := 0x000FFFFF

def IoSegment.ioInProgress (seg : IoSegment) : Bool := seg.writer.isSome || !seg.readers.isEmpty

def IoSegment.sharedReading (seg : IoSegment) : Bool := !seg.readable && !seg.readers.isEmpty

/-- The status becomes 0. -/
def IoSegment.clear (seg : IoSegment) : IoSegment :=
  { seg with
    occupied := false
    dirty := false
    setMinOffset := false
    readable := false
    writer := none
    readers := [] }

structure ReadTask where
  segno : Nat
  offset : Nat
  size : Nat

structure WriteTask (Byte : Type) where
  segno : Nat
  offset : Nat
  data : List Byte

def WriteTask.Covers {Byte : Type} (task : WriteTask Byte) (segno pos : Nat) : Prop :=
  task.segno = segno ∧ task.offset ≤ pos ∧ pos < task.offset + task.data.length
  deriving Decidable

inductive Call (Byte : Type) where
  | read (task : ReadTask)
  | write (task : WriteTask Byte)

def Call.segno {Byte : Type} : Call Byte → Nat
  | .read task => task.segno
  | .write task => task.segno

/-- The variables of `polar_local_cache_flush_all`. -/
structure Round where
  needFlush : Nat → Bool
  next : Nat
  flushedAll : Bool

/-- Who flushes a segment. -/
inductive After (Byte : Type) where
  | evict (call : Call Byte)
  | all (round : Round)

inductive Pc (Byte : Type) where
  | idle
  | entering (call : Call Byte)
  | evicting (call : Call Byte)
  | readLocal (task : ReadTask) (idx : Nat)
  | readShared (task : ReadTask) (idx : Nat)
  | readCopy (task : ReadTask) (idx : Nat) (data : List Byte)
  | readDone (task : ReadTask) (idx : Nat) (res : Option (List Byte))
  | writeStat (task : WriteTask Byte) (idx : Nat)
  | writeCopy (task : WriteTask Byte) (idx : Nat) (data : List Byte)
  | writeFile (task : WriteTask Byte) (idx : Nat)
  | writeDone (task : WriteTask Byte) (idx : Nat)
  | flushRead (after : After Byte) (idx : Nat)
  | flushWrite (after : After Byte) (idx : Nat) (data : List Byte)
  | flushDone (after : After Byte) (idx : Nat)
  | flushAll (round : Round)
  | flushedAll

structure State (Byte : Type) [Zero Byte] where
  slots : Nat → IoSegment
  hash : Nat → Option Nat
  free : List Nat
  localFile : Nat → Option (File Byte)
  sharedFile : Nat → Option (File Byte)
  procs : Nat → Pc Byte
  /-- The writes that have reached their file, last first. -/
  written : List (WriteTask Byte)

variable {Byte : Type} [Zero Byte]

def State.setPc (st : State Byte) (proc : Nat) (pc : Pc Byte) : State Byte :=
  { st with procs := update st.procs proc pc }

def State.setSlot (st : State Byte) (idx : Nat) (seg : IoSegment) : State Byte :=
  { st with slots := update st.slots idx seg }

def State.setLocal (st : State Byte) (segno : Nat) (file : File Byte) : State Byte :=
  { st with localFile := update st.localFile segno (some file) }

def State.setShared (st : State Byte) (segno : Nat) (file : File Byte) : State Byte :=
  { st with sharedFile := update st.sharedFile segno (some file) }

/-- The file that is opened for writing is created if need be. -/
def opened (file : Option (File Byte)) : File Byte := file.getD .empty

/-- `polar_create_new_seg_entry` with a free item. -/
def createEntry (st : State Byte) (segno idx : Nat) (rest : List Nat) : State Byte :=
  { st.setSlot idx
      { segno := segno
        occupied := true
        dirty := false
        setMinOffset := false
        readable := false
        writer := none
        readers := []
        minWriteOffset := 0 } with
    hash := update st.hash segno (some idx)
    free := rest }

section
variable (cfg : Config) (st : State Byte) (proc : Nat)

def takeReadReference (task : ReadTask) (idx : Nat) : State Byte :=
  let seg := st.slots idx
  if seg.writer.isSome ∨ seg.sharedReading ∨ seg.readers.length = segReadMask then st
  else (st.setSlot idx { seg with readers := proc :: seg.readers }).setPc proc (.readLocal task idx)

/-- The status and the minimal offset when a write begins. -/
def IoSegment.beginWrite (seg : IoSegment) (proc offset : Nat) : IoSegment :=
  { seg with
    writer := some proc
    dirty := true
    setMinOffset := true
    minWriteOffset := if seg.setMinOffset then min seg.minWriteOffset offset else offset }

def beginWrite (task : WriteTask Byte) (idx : Nat) : State Byte :=
  let seg := st.slots idx
  if seg.ioInProgress then st
  else (st.setSlot idx (seg.beginWrite proc task.offset)).setPc proc (.writeStat task idx)

/-- The loop at the head of `polar_local_cache_read` and `polar_local_cache_write`. -/
def enter (call : Call Byte) : State Byte :=
  match st.hash call.segno with
  | none =>
    match st.free with
    | [] => st.setPc proc (.evicting call)
    | idx :: rest => createEntry st call.segno idx rest
  | some idx =>
    match call with
    | .read task => takeReadReference st proc task idx
    | .write task => beginWrite st proc task idx

def flushReturn : After Byte → State Byte
  | .evict call => st.setPc proc (.evicting call)
  | .all round =>
    st.setPc proc (.flushAll
      { round with needFlush := update round.needFlush round.next false, next := round.next + 1 })

def clean (idx : Nat) : State Byte :=
  st.setSlot idx { st.slots idx with dirty := false, writer := none }

/-- `polar_local_cache_flush` up to its input and output. -/
def polarLocalCacheFlush (after : After Byte) (idx : Nat) : State Byte :=
  let seg := st.slots idx
  if seg.occupied = false ∨ seg.dirty = false then flushReturn st proc after
  else if seg.writer.isSome then st
  else if cfg.sharedWrite then
    (st.setSlot idx { seg with writer := some proc }).setPc proc (.flushRead after idx)
  else flushReturn (clean st idx) proc after

def flushRead (after : After Byte) (idx : Nat) : State Byte :=
  let seg := st.slots idx
  match st.localFile seg.segno with
  | none => (st.setSlot idx { seg with writer := none }).setPc proc .idle
  | some file =>
    st.setPc proc
      (.flushWrite after idx (file.read seg.minWriteOffset (cfg.segmentSize - seg.minWriteOffset)))

def flushWrite (after : After Byte) (idx : Nat) (data : List Byte) : State Byte :=
  let seg := st.slots idx
  (st.setShared seg.segno ((opened (st.sharedFile seg.segno)).write seg.minWriteOffset data)).setPc
    proc (.flushDone after idx)

def evictSlot (idx : Nat) : State Byte :=
  let seg := st.slots idx
  if seg.ioInProgress = false ∧ seg.occupied ∧ seg.dirty = false then
    { st.setSlot idx seg.clear with
      hash := update st.hash seg.segno none
      free := idx :: st.free }
  else st

def evictClean : State Byte := (List.range cfg.maxSegments).foldl evictSlot st

/-- One round of `polar_evict_io_segment`. -/
def evict (call : Call Byte) : State Byte :=
  if st.free ≠ [] then st.setPc proc (.entering call)
  else
    let next := evictClean cfg st
    if next.free ≠ [] then next.setPc proc (.entering call)
    else if (List.range cfg.maxSegments).any fun idx => (st.slots idx).ioInProgress then st
    else polarLocalCacheFlush cfg st proc (.evict call) 0

/-- `polar_cache_read` up to the copy of the segment. -/
def readLocal (task : ReadTask) (idx : Nat) : State Byte :=
  match st.localFile task.segno with
  | none =>
    if cfg.sharedRead then st.setPc proc (.readShared task idx)
    else st.setPc proc (.readDone task idx none)
  | some file =>
    let data := file.read task.offset task.size
    if data.length = task.size then st.setPc proc (.readDone task idx (some data))
    else if cfg.sharedRead = false ∨ data.length + task.offset = cfg.segmentSize then
      st.setPc proc (.readDone task idx none)
    else st.setPc proc (.readShared task idx)

def readShared (task : ReadTask) (idx : Nat) : State Byte :=
  match st.sharedFile task.segno with
  | none => st.setPc proc (.readDone task idx none)
  | some file => st.setPc proc (.readCopy task idx (file.read 0 cfg.segmentSize))

/-- The copy is written over the local file, whatever it holds. -/
def readCopy (task : ReadTask) (idx : Nat) (data : List Byte) : State Byte :=
  (st.setLocal task.segno ((opened (st.localFile task.segno)).write 0 data)).setPc proc
  (.readDone task idx
      (if data.length < task.offset + task.size then none
      else some ((data.drop task.offset).take task.size)))

def readDone (idx : Nat) (res : Option (List Byte)) : State Byte :=
  let seg := st.slots idx
  (st.setSlot idx
    { seg with readers := seg.readers.erase proc, readable := seg.readable || res.isSome }).setPc
    proc .idle

/-- `polar_cache_copy_local_not_exists` up to its write; it is called when the write is to the local
file. -/
def writeStat (task : WriteTask Byte) (idx : Nat) : State Byte :=
  if cfg.localWrite then
    match st.localFile task.segno, st.sharedFile task.segno with
    | none, some file => st.setPc proc (.writeCopy task idx (file.read 0 cfg.segmentSize))
    | _, _ => st.setPc proc (.writeFile task idx)
  else st.setPc proc (.writeFile task idx)

def writeCopy (task : WriteTask Byte) (idx : Nat) (data : List Byte) : State Byte :=
  (st.setLocal task.segno ((opened (st.localFile task.segno)).write 0 data)).setPc proc
  (.writeFile task idx)

/-- The write to the file that the permissions choose. -/
def storeWrite (task : WriteTask Byte) : State Byte :=
  if cfg.localWrite then
    st.setLocal task.segno ((opened (st.localFile task.segno)).write task.offset task.data)
  else st.setShared task.segno ((opened (st.sharedFile task.segno)).write task.offset task.data)

def writeFile (task : WriteTask Byte) (idx : Nat) : State Byte :=
  { (storeWrite cfg st task).setPc proc (.writeDone task idx) with written := task :: st.written }

/-- A segment written to shared storage is not dirty afterwards. -/
def writeDone (idx : Nat) : State Byte :=
  if cfg.localWrite then (st.setSlot idx { st.slots idx with writer := none }).setPc proc .idle
  else (clean st idx).setPc proc .idle

/-- The body of the loop of `polar_local_cache_flush_all` for one slot, and the end of a round. -/
def flushAll (round : Round) : State Byte :=
  if round.next < cfg.maxSegments then
    let seg := st.slots round.next
    if round.needFlush round.next = false then
      st.setPc proc (.flushAll { round with next := round.next + 1 })
    else if seg.occupied = false ∨ seg.dirty = false then
      st.setPc proc (.flushAll
        { round with needFlush := update round.needFlush round.next false, next := round.next + 1 })
    else if seg.writer.isSome then
      st.setPc proc (.flushAll { round with next := round.next + 1, flushedAll := false })
    else polarLocalCacheFlush cfg st proc (.all round) round.next
  else if round.flushedAll then st.setPc proc .flushedAll
  else st.setPc proc (.flushAll { round with next := 0, flushedAll := true })

end

/-- The step in which a read goes on to copy the shared file is named. -/
inductive Event where
  | copyShared (proc : Nat)
  | step
  deriving DecidableEq

inductive Step (cfg : Config) : Event → State Byte → State Byte → Prop
  | polarLocalCacheRead {st : State Byte} (proc : Nat) (task : ReadTask)
      (here : st.procs proc = .idle) (inside : task.offset + task.size ≤ cfg.segmentSize) :
      Step cfg .step st (st.setPc proc (.entering (.read task)))
  | polarLocalCacheWrite {st : State Byte} (proc : Nat) (task : WriteTask Byte)
      (here : st.procs proc = .idle) (inside : task.offset + task.data.length ≤ cfg.segmentSize)
      (allowed : cfg.localWrite ∨ cfg.sharedWrite) :
      Step cfg .step st (st.setPc proc (.entering (.write task)))
  | polarLocalCacheFlushAll {st : State Byte} (proc : Nat) (here : st.procs proc = .idle) :
      Step cfg .step st (st.setPc proc (.flushAll
        { needFlush := fun _ => true, next := 0, flushedAll := true }))
  | enter {st : State Byte} (proc : Nat) (call : Call Byte)
      (here : st.procs proc = .entering call) : Step cfg .step st (enter st proc call)
  | evict {st : State Byte} (proc : Nat) (call : Call Byte)
      (here : st.procs proc = .evicting call) : Step cfg .step st (evict cfg st proc call)
  | readLocal {st : State Byte} (proc : Nat) (task : ReadTask) (idx : Nat)
      (here : st.procs proc = .readLocal task idx) :
      Step cfg .step st (readLocal cfg st proc task idx)
  | readShared {st : State Byte} (proc : Nat) (task : ReadTask) (idx : Nat)
      (here : st.procs proc = .readShared task idx) :
      Step cfg (.copyShared proc) st (readShared cfg st proc task idx)
  | readCopy {st : State Byte} (proc : Nat) (task : ReadTask) (idx : Nat) (data : List Byte)
      (here : st.procs proc = .readCopy task idx data) :
      Step cfg .step st (readCopy st proc task idx data)
  | readDone {st : State Byte} (proc : Nat) (task : ReadTask) (idx : Nat) (res : Option (List Byte))
      (here : st.procs proc = .readDone task idx res) :
      Step cfg .step st (readDone st proc idx res)
  | writeStat {st : State Byte} (proc : Nat) (task : WriteTask Byte) (idx : Nat)
      (here : st.procs proc = .writeStat task idx) :
      Step cfg .step st (writeStat cfg st proc task idx)
  | writeCopy {st : State Byte} (proc : Nat) (task : WriteTask Byte) (idx : Nat) (data : List Byte)
      (here : st.procs proc = .writeCopy task idx data) :
      Step cfg .step st (writeCopy st proc task idx data)
  | writeFile {st : State Byte} (proc : Nat) (task : WriteTask Byte) (idx : Nat)
      (here : st.procs proc = .writeFile task idx) :
      Step cfg .step st (writeFile cfg st proc task idx)
  | writeDone {st : State Byte} (proc : Nat) (task : WriteTask Byte) (idx : Nat)
      (here : st.procs proc = .writeDone task idx) :
      Step cfg .step st (writeDone cfg st proc idx)
  | flushRead {st : State Byte} (proc : Nat) (after : After Byte) (idx : Nat)
      (here : st.procs proc = .flushRead after idx) :
      Step cfg .step st (flushRead cfg st proc after idx)
  | flushWrite {st : State Byte} (proc : Nat) (after : After Byte) (idx : Nat) (data : List Byte)
      (here : st.procs proc = .flushWrite after idx data) :
      Step cfg .step st (flushWrite st proc after idx data)
  | flushDone {st : State Byte} (proc : Nat) (after : After Byte) (idx : Nat)
      (here : st.procs proc = .flushDone after idx) :
      Step cfg .step st (flushReturn (clean st idx) proc after)
  | flushAll {st : State Byte} (proc : Nat) (round : Round)
      (here : st.procs proc = .flushAll round) : Step cfg .step st (flushAll cfg st proc round)
  | flushedAll {st : State Byte} (proc : Nat) (here : st.procs proc = .flushedAll) :
      Step cfg .step st (st.setPc proc .idle)

/-- A new cache: no local files, all slots free. -/
structure Started (cfg : Config) (st : State Byte) : Prop where
  slots : ∀ idx, (st.slots idx).occupied = false ∧ (st.slots idx).dirty = false ∧
    (st.slots idx).writer = none ∧ (st.slots idx).readers = []
  hash : ∀ segno, st.hash segno = none
  free : st.free = List.range cfg.maxSegments
  localFile : ∀ segno, st.localFile segno = none
  procs : ∀ proc, st.procs proc = .idle
  written : st.written = []

/-- The last value written to a byte through the cache, or the one of the shared file at the
start. -/
def lastValue (shared : Nat → Option (File Byte)) : List (WriteTask Byte) → (segno pos : Nat) → Byte
  | [], segno, pos => (opened (shared segno)).byteAt pos
  | task :: rest, segno, pos =>
    if task.Covers segno pos then task.data.getD (pos - task.offset) 0
    else lastValue shared rest segno pos

end PolarDB.LocalCache.Cache
