import PolarDB.RingBuf.Packet
import PolarDB.Xlog.Record

/-!
# Pushing a record into the xlog queue

After a record was inserted into the WAL, its headers are written into a packet of the
ring; for some resource managers the rest of the record is left out and a part of the main
data is put behind the headers. The size of the packet is computed before the insertion,
by a family of functions parallel to those that write it.
-/

namespace PolarDB.Xlog

open Lib.Bytes RingBuf

def rmXlog : UInt8 := 0
def rmHeap2 : UInt8 := 9
def rmHeap : UInt8 := 10
def rmBtree : UInt8 := 11
def rmHash : UInt8 := 12
def rmGin : UInt8 := 13
def rmGist : UInt8 := 14
def rmSeq : UInt8 := 15
def rmSpgist : UInt8 := 16
def rmBrin : UInt8 := 17
def rmGeneric : UInt8 := 20

def xlogFpiForHint : UInt8 := 0xA0
def xlogFpi : UInt8 := 0xB0
def polarWal : UInt8 := 0xF0

def heapOpMask : UInt8 := 0x70
def heapInsert : UInt8 := 0x00
def heapDelete : UInt8 := 0x10
def heapUpdate : UInt8 := 0x20
def heapHotUpdate : UInt8 := 0x40
def heapLock : UInt8 := 0x60

def heap2Rewrite : UInt8 := 0x00
def heap2Prune : UInt8 := 0x10
def heap2Vacuum : UInt8 := 0x20
def heap2FreezePage : UInt8 := 0x30
def heap2Visible : UInt8 := 0x40
def heap2MultiInsert : UInt8 := 0x50
def heap2LockUpdated : UInt8 := 0x60

def gistDelete : UInt8 := 0x10
def gistPageReuse : UInt8 := 0x20
def hashVacuumOnePage : UInt8 := 0xC0
def btreeDelete : UInt8 := 0x70
def btreeReusePage : UInt8 := 0xD0
def spgistVacuumRedirect : UInt8 := 0x80

def sizeOfHeapInsert : Nat := 3
def sizeOfHeapDelete : Nat := 8
def sizeOfHeapUpdate : Nat := 14
def sizeOfHeapLock : Nat := 8
def sizeOfHeapPrune : Nat := 8
def sizeOfHeapFreezePage : Nat := 6
def sizeOfHeapVacuum : Nat := 2
def sizeOfHeapVisible : Nat := 5
def sizeOfHeapMultiInsert : Nat := 4
def sizeOfHeapLockUpdated : Nat := 8
def sizeOfHeapRewriteMapping : Nat := 40
def sizeOfSpgVacuumRedirect : Nat := 8

/-- The bits of the info byte that belong to the resource manager. -/
def rmgrInfo (record : XLogRecord) : UInt8 := record.xlInfo &&& ~~~xlrInfoMask

def polarXlogRemovePayload (record : XLogRecord) : Bool :=
  let rmid := record.xlRmid
  if rmid = rmHeap ∨ rmid = rmHeap2 ∨ rmid = rmBtree ∨ rmid = rmHash ∨ rmid = rmGin ∨
      rmid = rmGist ∨ rmid = rmSeq ∨ rmid = rmSpgist ∨ rmid = rmBrin ∨ rmid = rmGeneric then true
  else if rmid ≠ rmXlog then false
  else if rmgrInfo record ≠ xlogFpi ∧ rmgrInfo record ≠ xlogFpiForHint ∧
    rmgrInfo record ≠ polarWal then false
  else true

section Reserve
variable (regs : Registered)

/-- A block id and a length stand before main data in a packet. -/
def polarMainDataLen (len : Nat) : Nat := 1 + 4 + len

def polarReserveMainDataSize : Nat := polarMainDataLen regs.mainrdataLen

def polarReserveXlogDataSize (info : UInt8) : Nat :=
  if info = polarWal then polarReserveMainDataSize regs else 0

def polarReserveHeapDataSize (info : UInt8) : Nat :=
  let op := info &&& heapOpMask
  if op = heapInsert then polarMainDataLen sizeOfHeapInsert
  else if op = heapDelete then polarMainDataLen sizeOfHeapDelete
  else if op = heapUpdate ∨ op = heapHotUpdate then polarMainDataLen sizeOfHeapUpdate
  else if op = heapLock then polarMainDataLen sizeOfHeapLock
  else 0

def polarReserveHeap2DataSize (info : UInt8) : Nat :=
  let op := info &&& heapOpMask
  if op = heap2Prune then polarMainDataLen sizeOfHeapPrune
  else if op = heap2FreezePage then polarMainDataLen sizeOfHeapFreezePage
  else if op = heap2Vacuum then polarMainDataLen sizeOfHeapVacuum
  else if op = heap2Visible then polarMainDataLen sizeOfHeapVisible
  else if op = heap2MultiInsert then polarMainDataLen sizeOfHeapMultiInsert
  else if op = heap2LockUpdated then polarMainDataLen sizeOfHeapLockUpdated
  else if op = heap2Rewrite then polarMainDataLen sizeOfHeapRewriteMapping
  else 0

-- the condition is the source's: no info is equal to both values
def polarReserveGistDataSize (info : UInt8) : Nat :=
  if info ≠ gistDelete ∨ info ≠ gistPageReuse then 0 else polarReserveMainDataSize regs

def polarReserveHashDataSize (info : UInt8) : Nat :=
  if info ≠ hashVacuumOnePage then 0 else polarReserveMainDataSize regs

def polarReserveBtreeDataSize (info : UInt8) : Nat :=
  if info = btreeDelete ∨ info = btreeReusePage then polarReserveMainDataSize regs else 0

def polarReserveSpgDataSize (info : UInt8) : Nat :=
  if info ≠ spgistVacuumRedirect then 0 else polarMainDataLen sizeOfSpgVacuumRedirect

def polarReserveDataSize (rechdr : XLogRecord) : Nat :=
  let info := rmgrInfo rechdr
  if rechdr.xlRmid = rmHeap then polarReserveHeapDataSize info
  else if rechdr.xlRmid = rmHeap2 then polarReserveHeap2DataSize info
  else if rechdr.xlRmid = rmGist then polarReserveGistDataSize regs info
  else if rechdr.xlRmid = rmHash then polarReserveHashDataSize regs info
  else if rechdr.xlRmid = rmBtree then polarReserveBtreeDataSize regs info
  else if rechdr.xlRmid = rmSpgist then polarReserveSpgDataSize info
  else if rechdr.xlRmid = rmXlog then polarReserveXlogDataSize regs info
  else 0

/-- The record header is in the first chunk. -/
def polarXlogReserveSize (rechdr : XLogRecord) (firstLen : Nat) : Nat :=
  (if polarXlogRemovePayload rechdr then firstLen else rechdr.xlTotLen.toNat) + polarReserveDataSize
  regs rechdr

end Reserve

section Push

/-- The `PANIC`s of the push functions, and the assertion on the main data. -/
inductive PushPanic where
  | badPosition
  | shortWrite
  | leftover
  | noMainData
deriving Repr, DecidableEq

/-- The queue, and what the calls of `polar_ringbuf_pkt_write` returned so far. -/
structure PushState where
  queue : Ringbuf
  returned : List Int

abbrev Push := StateT PushState (Except PushPanic)

def panic (reason : PushPanic) {Value : Type} : Push Value := fun _ => .error reason

def writePkt (rbufPos : Nat) (offset : Int) (bytes : List UInt8) : Push Int := fun st =>
  let (queue, res) := pktWrite st.queue rbufPos offset bytes
  .ok (res, { queue, returned := st.returned ++ [res] })

def checkPosition (rbufPos : Nat) : Push Unit := fun st =>
  if rbufPos ≥ st.queue.size then .error .badPosition else .ok ((), st)

variable (regs : Registered) (rbufPos : Nat)

def polarGetMainDataHead : Push XLogRecData :=
  match regs.mainrdataHead with
  | none => panic .noMainData
  | some head => pure head

/-- The bytes are read from the address of the first chunk of the main data. -/
def polarWriteMainData (dlen : Nat) (offset : Int) : Push Int := do
  let mainData ← polarGetMainDataHead regs
  checkPosition rbufPos
  let first ← writePkt rbufPos offset (u8Bytes blockIdPolarExtra)
  let second ← writePkt rbufPos (offset + first) (leBytes 4 dlen)
  let third ← writePkt rbufPos (offset + (first + second)) (mainData.read dlen)
  pure (first + second + third)

def polarXlogPushHeapData (offset : Int) (info : UInt8) : Push Int :=
  let op := info &&& heapOpMask
  if op = heapInsert then polarWriteMainData regs rbufPos sizeOfHeapInsert offset
  else if op = heapDelete then polarWriteMainData regs rbufPos sizeOfHeapDelete offset
  else if op = heapUpdate ∨ op = heapHotUpdate then polarWriteMainData regs rbufPos
    sizeOfHeapUpdate offset
  else if op = heapLock then polarWriteMainData regs rbufPos sizeOfHeapLock offset
  else pure 0

def polarXlogPushHeap2Data (offset : Int) (info : UInt8) : Push Int :=
  let op := info &&& heapOpMask
  if op = heap2Prune then polarWriteMainData regs rbufPos sizeOfHeapPrune offset
  else if op = heap2FreezePage then polarWriteMainData regs rbufPos sizeOfHeapFreezePage offset
  else if op = heap2Vacuum then polarWriteMainData regs rbufPos sizeOfHeapVacuum offset
  else if op = heap2Visible then polarWriteMainData regs rbufPos sizeOfHeapVisible offset
  else if op = heap2MultiInsert then polarWriteMainData regs rbufPos sizeOfHeapMultiInsert offset
  else if op = heap2LockUpdated then polarWriteMainData regs rbufPos sizeOfHeapLockUpdated offset
  else if op = heap2Rewrite then polarWriteMainData regs rbufPos sizeOfHeapRewriteMapping offset
  else pure 0

/-- The loop over the chunks of the main data; its comparison is unsigned, and running past
the last chunk is a `NULL` access. -/
def pushMainChunks (offset : Int) (dataLen : Nat) : Int → List XLogRecData → Push Int
  | len, [] => if (len % 2 ^ 32).toNat < dataLen then panic .noMainData else pure len
  | len, rdata :: rest =>
    if (len % 2 ^ 32).toNat < dataLen then do
      let written ← writePkt rbufPos (offset + len) rdata.bytes
      pushMainChunks offset dataLen (len + written) rest
    else pure len

/-- The length field is the size of the reserved part, the five bytes before the data included. -/
def polarPushMainData (offset : Int) : Push Int := do
  let dataLen := polarReserveMainDataSize regs % 2 ^ 32
  let _ ← polarGetMainDataHead regs
  checkPosition rbufPos
  let first ← writePkt rbufPos offset (u8Bytes blockIdPolarExtra)
  let second ← writePkt rbufPos (offset + first) (leBytes 4 dataLen)
  pushMainChunks rbufPos offset dataLen (first + second) regs.mainrdata

def polarXlogPushGistData (offset : Int) (info : UInt8) : Push Int :=
  if info ≠ gistDelete ∨ info ≠ gistPageReuse then pure 0 else polarPushMainData regs rbufPos offset

def polarXlogPushHashData (offset : Int) (info : UInt8) : Push Int :=
  if info ≠ hashVacuumOnePage then pure 0 else polarPushMainData regs rbufPos offset

def polarXlogPushBtreeData (offset : Int) (info : UInt8) : Push Int :=
  if info = btreeDelete ∨ info = btreeReusePage then polarPushMainData regs rbufPos offset
    else pure 0

def polarXlogPushSpgData (offset : Int) (info : UInt8) : Push Int :=
  if info ≠ spgistVacuumRedirect then pure 0
  else polarWriteMainData regs rbufPos sizeOfSpgVacuumRedirect offset

def polarXlogPushXlogData (offset : Int) (info : UInt8) : Push Int :=
  if info = polarWal then polarPushMainData regs rbufPos offset else pure 0

def polarXlogSendQueuePushData (offset : Int) (rechdr : XLogRecord) : Push Int :=
  let info := rmgrInfo rechdr
  if rechdr.xlRmid = rmHeap then polarXlogPushHeapData regs rbufPos offset info
  else if rechdr.xlRmid = rmHeap2 then polarXlogPushHeap2Data regs rbufPos offset info
  else if rechdr.xlRmid = rmGist then polarXlogPushGistData regs rbufPos offset info
  else if rechdr.xlRmid = rmHash then polarXlogPushHashData regs rbufPos offset info
  else if rechdr.xlRmid = rmBtree then polarXlogPushBtreeData regs rbufPos offset info
  else if rechdr.xlRmid = rmSpgist then polarXlogPushSpgData regs rbufPos offset info
  else if rechdr.xlRmid = rmXlog then polarXlogPushXlogData regs rbufPos offset info
  else pure 0

/-- The loop that copies the record; the difference of the lengths is unsigned. -/
def pushChunks (dataSize : Nat) : Int → Int → List XLogRecData → Push (Int × Int)
  | offset, copyLen, [] => pure (offset, copyLen)
  | offset, copyLen, rdata :: rest =>
    let left := sizeT (copyLen - dataSize)
    if left > 0 then do
      let writeLen := min left rdata.len
      let copySize ← writePkt rbufPos offset (rdata.read writeLen)
      if copySize ≠ writeLen then panic .shortWrite
      else pushChunks dataSize (offset + writeLen) (copyLen - writeLen) rest
    else pure (offset, copyLen)

def setPktFlagM (flag : UInt8) : Push Unit := fun st =>
  .ok ((), { st with queue := setPktFlag st.queue rbufPos flag })

def polarXlogSendQueuePush (rechdr : XLogRecord) (record : List XLogRecData) (copyLen : Int)
    (endLsn : UInt64) (xlogLen : UInt32) : Push Unit := do
  let dataSize := polarReserveDataSize regs rechdr
  checkPosition rbufPos
  let first ← writePkt rbufPos 0 (u64Bytes endLsn)
  let second ← writePkt rbufPos first (u32Bytes xlogLen)
  let (offset, copyLen) ← pushChunks rbufPos dataSize (first + second) copyLen record
  let pushed ← polarXlogSendQueuePushData regs rbufPos offset rechdr
  if copyLen - pushed ≠ 0 then panic .leftover
  else setPktFlagM rbufPos (pktWalMeta ||| pktReady)

end Push

section Location

def polarXlogHeadSize : Nat := 8 + 4

/-- The packet part of `ReserveXLogInsertLocation`: no packet while the ring has no room. -/
def reserveXlogInsertLocation (queue : Ringbuf) (rbufLen : Nat) : Option (Ringbuf × Nat) :=
  let size := pktSize (rbufLen + polarXlogHeadSize)
  if sizeT (freeSize queue) ≥ size then
    let (queue, rbufPos) := pktReserve queue size
    some (setPktLength queue rbufPos (rbufLen + polarXlogHeadSize), rbufPos)
  else none

end Location

end PolarDB.Xlog
