import PolarDB.Lib.Bytes
import PolarDB.Lib.Circular

/-!
# The shared ring buffer

Packets are written one after the other into a ring of bytes and read by references.
A packet is a flag byte, its data length in four bytes and its data. Each reference
occupies a slot with its read position and the number of packets it has passed; the
ring keeps the least read position, which bounds what may be reserved. Each call that
takes the ring's lock is one function here; the statistics and the names of the
references are left out.
-/

namespace PolarDB.RingBuf

open Function Lib.Bytes Lib.Circular

def maxSlot : Nat := 32
def pktHdrSize : Nat := 5

def pktFree : UInt8 := 0x00
def pktReady : UInt8 := 0x01
def pktStateMask : UInt8 := 0x01
def pktInvalidType : UInt8 := 0x00
def pktWalMeta : UInt8 := 0x10
def pktWalStorageBegin : UInt8 := 0x20
def pktWalStorageEnd : UInt8 := 0x30
def pktTypeMask : UInt8 := 0xF0

/-- A signed value where the code compares it with a `size_t`. -/
def sizeT (value : Int) : Nat := (value % 2 ^ 64).toNat

theorem size_t_nat {value : Nat} (small : value < 2 ^ 64) : sizeT value = value := by
  rw [sizeT]
  omega

/-- The size of a packet with `len` bytes of data. -/
def pktSize (len : Nat) : Nat := len + pktHdrSize

structure Slot where
  strong : Bool
  pread : Nat
  visit : Nat
  refNum : Nat
deriving Repr, DecidableEq

def Slot.zero : Slot := { strong := false, pread := 0, visit := 0, refNum := 0 }

structure Ringbuf where
  pread : Nat
  pwrite : Nat
  refNum : Nat
  /-- The bits of the slots in use. -/
  occupied : Nat → Bool
  slot : Nat → Slot
  minVisit : Nat
  size : Nat
  data : Nat → UInt8

/-- A reference held by a process; its ring is `NULL` once it is released. -/
structure Ref where
  attached : Bool
  refNum : Nat
  slot : Nat
  strong : Bool
deriving Repr, DecidableEq

/-- The counters `refNum` and `minVisit` and the data are what the memory holds. -/
def init (memory : Ringbuf) (size : Nat) : Ringbuf :=
  { memory with
    pread := 0, pwrite := 0, occupied := fun _ => false, slot := fun _ => Slot.zero, size }

section Packets

def pktLen (rbuf : Ringbuf) (idx : Nat) : Nat :=
  leNat (splitOut rbuf.size rbuf.data ((idx + 1) % rbuf.size) 4)

def setPktLength (rbuf : Ringbuf) (idx len : Nat) : Ringbuf :=
  { rbuf with data := splitIn rbuf.size rbuf.data ((idx + 1) % rbuf.size) (leBytes 4 len) }

def setPktFlag (rbuf : Ringbuf) (idx : Nat) (flag : UInt8) : Ringbuf :=
  { rbuf with data := copyIn rbuf.data idx [flag] }

def pktReserve (rbuf : Ringbuf) (len : Nat) : Ringbuf × Nat :=
  let idx := rbuf.pwrite
  let rbuf := { rbuf with data := copyIn rbuf.data idx [pktFree] }
  ({ rbuf with pwrite := (idx + len) % rbuf.size }, idx)

def pktWrite (rbuf : Ringbuf) (idx : Nat) (offset : Int) (buf : List UInt8) : Ringbuf × Int :=
  let pktlen := pktLen rbuf idx
  if sizeT offset ≥ pktlen ∨ sizeT (offset + buf.length) > pktlen then (rbuf, -1)
  else
    let start := (idx + pktHdrSize + sizeT offset) % rbuf.size
    ({ rbuf with data := splitIn rbuf.size rbuf.data start buf }, buf.length)

end Packets

section References

def refMatch (rbuf : Ringbuf) (ref : Ref) : Bool :=
  ref.slot < maxSlot && (rbuf.slot ref.slot).refNum == ref.refNum

/-- The position of the least bit set, counted from 1, or 0. -/
def bitLeastPos (bits : Nat → Bool) : Nat :=
  match (List.range 64).find? bits with
  | none => 0
  | some pos => pos + 1

def newRef (rbuf : Ringbuf) (strong : Bool) : Option (Ringbuf × Ref) :=
  let pos := bitLeastPos fun index => !rbuf.occupied index
  if pos > 0 ∧ pos ≤ maxSlot then
    let index := pos - 1
    let refNum := rbuf.refNum + 1
    let slot : Slot := { strong, pread := rbuf.pread, visit := rbuf.minVisit, refNum }
    some ({ rbuf with occupied := update rbuf.occupied index true,
                      slot := update rbuf.slot index slot, refNum },
      { attached := true, refNum, slot := index, strong })
  else none

/-- The slots in use, in the order in which the loops over `occupied` meet them. -/
def occupiedSlots (rbuf : Ringbuf) : List Nat := (List.range 64).filter rbuf.occupied

/-- One round of the search for the slot with the least visit counter. -/
def leastVisitStep (rbuf : Ringbuf) (eligible : Slot → Bool) (least : Option Nat) (index : Nat) :
    Option Nat :=
  let better := match least with
    | none => true
    | some best => decide ((rbuf.slot best).visit > (rbuf.slot index).visit)
  if eligible (rbuf.slot index) && better then some index else least

def leastVisitSlot (rbuf : Ringbuf) (eligible : Slot → Bool) : Option Nat :=
  (occupiedSlots rbuf).foldl (leastVisitStep rbuf eligible) none

def updatePread (rbuf : Ringbuf) : Ringbuf × Bool :=
  match leastVisitSlot rbuf fun _ => true with
  | none => (rbuf, false)
  | some minSlot =>
    if rbuf.minVisit ≠ (rbuf.slot minSlot).visit then
      ({ rbuf with minVisit := (rbuf.slot minSlot).visit, pread := (rbuf.slot minSlot).pread },
        true)
    else (rbuf, false)

def clearSlot (rbuf : Ringbuf) (index : Nat) : Ringbuf :=
  { rbuf with occupied := update rbuf.occupied index false,
              slot := update rbuf.slot index Slot.zero }

def releaseRef (rbuf : Ringbuf) (ref : Ref) : Ringbuf × Ref :=
  if !ref.attached then (rbuf, ref)
  else if refMatch rbuf ref then ((updatePread (clearSlot rbuf ref.slot)).1,
    { ref with attached := false })
  else (rbuf, { ref with attached := false })

def setStrong (rbuf : Ringbuf) (ref : Ref) (strong : Bool) : Ringbuf × Bool :=
  if refMatch rbuf ref then
    ({ rbuf with slot := update rbuf.slot ref.slot { rbuf.slot ref.slot with strong } }, true)
  else (rbuf, false)

def getRef (rbuf : Ringbuf) (ref : Ref) : Ringbuf × Bool := setStrong rbuf ref true
def clearRef (rbuf : Ringbuf) (ref : Ref) : Ringbuf × Bool := setStrong rbuf ref false

def validRef (rbuf : Ringbuf) (ref : Ref) : Bool := ref.attached && refMatch rbuf ref

/-- The bytes read and the returned length. -/
def readNextPkt (rbuf : Ringbuf) (ref : Ref) (offset : Int) (len : Nat) : Int × List UInt8 :=
  let idx := (rbuf.slot ref.slot).pread
  let pktlen := pktLen rbuf idx
  if sizeT offset ≥ pktlen then (-1, [])
  else
    let len := if sizeT (offset + len) > pktlen then pktlen - sizeT offset else len
    (len, splitOut rbuf.size rbuf.data ((idx + pktHdrSize + sizeT offset) % rbuf.size) len)

def updateRef (rbuf : Ringbuf) (ref : Ref) : Ringbuf :=
  let idx := (rbuf.slot ref.slot).pread
  let pktlen := pktLen rbuf idx
  let slot := { rbuf.slot ref.slot with
    pread := (idx + pktHdrSize + pktlen) % rbuf.size, visit := (rbuf.slot ref.slot).visit + 1 }
  { rbuf with slot := update rbuf.slot ref.slot slot }

def evictRef (rbuf : Ringbuf) : Ringbuf × Bool :=
  match leastVisitSlot rbuf fun slot => !slot.strong with
  | none => (rbuf, false)
  | some minSlot =>
    if rbuf.pread = (rbuf.slot minSlot).pread then (clearSlot rbuf minSlot, true) else (rbuf, false)

def updateKeepData (rbuf : Ringbuf) : Ringbuf := (updatePread rbuf).1

end References

section Space

def freeSize (rbuf : Ringbuf) : Int :=
  let freeBytes : Int := (rbuf.pread : Int) - rbuf.pwrite
  (if freeBytes ≤ 0 then freeBytes + rbuf.size else freeBytes) - 1

def avail (rbuf : Ringbuf) (ref : Ref) : Int :=
  let avail : Int := (rbuf.pwrite : Int) - (rbuf.slot ref.slot).pread
  if avail < 0 then avail + rbuf.size else avail

/-- The type of the next packet, invalid when it is not ready, and its data length. -/
def nextReadyPkt (rbuf : Ringbuf) (ref : Ref) : UInt8 × Nat :=
  let idx := (rbuf.slot ref.slot).pread
  if rbuf.data idx &&& pktStateMask ≠ pktReady then (pktInvalidType, 0)
  else (rbuf.data idx &&& pktTypeMask, pktLen rbuf idx)

/-- One round of the loop of `polar_ringbuf_free_up`: the ring lock is held for the round
and released before the next one. -/
def freeUpRound (rbuf : Ringbuf) (len : Nat) : Ringbuf × Bool :=
  if sizeT (freeSize rbuf) > len then (rbuf, true)
  else
    let (updated, moved) := updatePread rbuf
    if moved then (updated, false) else ((evictRef updated).1, false)

end Space

end PolarDB.RingBuf
