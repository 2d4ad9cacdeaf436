import PolarDB.Xlog.Decode
import PolarDB.Xlog.QueuePush

/-!
# Decoding a packet of the xlog queue

`polarXlogQueueDecode` is the decoder of the queue. For records whose payload was removed it
has a loop of its own over the headers; the length of the main data behind them is not
compared with what is left of the packet, so that the copy may go on in the memory behind
it. The number of bytes read there is part of the result.
-/

namespace PolarDB.Xlog

open Lib.Bytes

structure QueueScan where
  decoded : DecodedXLogRecord
  rnode : Option RelFileNode
  overrun : Nat

def QueueScan.putBlock (scan : QueueScan) (blockId : UInt8) (blk : DecodedBkpBlock) : QueueScan :=
  { scan with decoded := scan.decoded.putBlock blockId.toNat blk, rnode := some blk.rnode }

/-- The main data behind the headers; `beyond` is the memory after the record. -/
def decodePolarExtra (beyond : Nat → UInt8) (scan : QueueScan) (mainDataLen : Nat) :
    Reader DecodeError QueueScan := fun rest =>
  let out := blocksOffset + sizeOfDecodedBkpBlock * (scan.decoded.maxBlockId + 1).toNat
  let bytes := rest.take mainDataLen ++ (List.range (mainDataLen - rest.length)).map beyond
  let mainData := if mainDataLen > 0 then some { position := maxAlign out, bytes }
    else scan.decoded.mainData
  let used := if mainDataLen > 0 then maxAlign out + mainDataLen else out
  -- the main data must be the last part of the packet
  if (rest.drop mainDataLen).length > 0 then .error .panicNotLast
  else
    .ok ({ scan with
      decoded := { scan.decoded with mainData, mainDataLen, size := maxAlign used }
      overrun := scan.overrun + (mainDataLen - rest.length) }, [])

def queueDecodeHeader (beyond : Nat → UInt8) (scan : QueueScan) : Reader DecodeError QueueScan := do
  let blockId ← u8 .panicShort
  if blockId = blockIdDataShort then
    let _ ← take .panicShort 1
    pure scan
  else if blockId = blockIdDataLong then
    let _ ← take .panicShort 4
    pure scan
  else if blockId = blockIdOrigin then
    let _ ← take .panicShort 2
    pure scan
  else if blockId = blockIdToplevelXid then
    let _ ← take .panicShort 4
    pure scan
  else if blockId = blockIdPolarExtra then
    let mainDataLen ← nat .panicShort 4
    decodePolarExtra beyond scan mainDataLen
  else
    check (!decide (blockId ≤ xlrMaxBlockId)) .panicBlockId
    let blk ← decodeBlock .panicShort scan.decoded.maxBlockId scan.rnode blockId
      (scan.decoded.blocks blockId.toNat)
    pure (scan.putBlock blockId blk)

/-- Every round consumes at least the block id, so the number of bytes bounds the rounds. -/
def queueDecodeHeaders (beyond : Nat → UInt8) : Nat → QueueScan → List UInt8 →
    Except DecodeError QueueScan
  | 0, scan, _ => .ok scan
  | rounds + 1, scan, bytes =>
    if bytes.length > 0 then
      match queueDecodeHeader beyond scan bytes with
      | .error error => .error error
      | .ok (scan, rest) => queueDecodeHeaders beyond rounds scan rest
    else .ok scan

/-- The decoded record, and the number of bytes that were read behind `record`. -/
def polarXlogQueueDecode (saveXlogMeta : Bool) (memory : DecodedXLogRecord) (record : List UInt8)
    (beyond : Nat → UInt8) (lsn : UInt64) (decodePayload : Bool) :
    Except DecodeError (DecodedXLogRecord × Nat) := do
  let (header, rest) ← readHeader record
  if polarXlogRemovePayload header then
    let scan ← queueDecodeHeaders beyond rest.length
      { decoded := memory.start header lsn, rnode := none, overrun := 0 } rest
    pure (scan.decoded, scan.overrun)
  else if decodePayload then
    let decoded ← decodeXLogRecord saveXlogMeta memory record lsn
    pure (decoded, 0)
  else pure (memory.start header lsn, 0)

end PolarDB.Xlog
