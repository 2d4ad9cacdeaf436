import PolarDB.Xlog.Record

/-!
# Decoding a WAL record

`decodeXLogRecord` reads the headers of a record and then copies the fragments behind
them. A pointer of the decoded record is its position from the start of the structure
together with the bytes it points to. Fields that a decoder does not set keep what the
memory held before.
-/

namespace PolarDB.Xlog

open Lib.Bytes

/-- One constructor for each check of the two decoders; the last three end the process. -/
inductive DecodeError where
  | shortData
  | outOfOrderBlockId
  | hasDataButNone
  | dataWithoutFlag
  | holeIncomplete
  | holeWithoutFlag
  | compressedFullLength
  | plainNotFullLength
  | sameRelWithoutPrevious
  | invalidBlockId
  | panicShort
  | panicBlockId
  | panicNotLast
deriving Repr, DecidableEq

structure Fragment where
  position : Nat
  bytes : List UInt8
deriving Repr, DecidableEq

structure DecodedBkpBlock where
  inUse : Bool
  rnode : RelFileNode
  forknum : UInt8
  blkno : UInt32
  flags : UInt8
  hasImage : Bool
  applyImage : Bool
  bkpImage : Option Fragment
  holeOffset : Nat
  holeLength : Nat
  bimgLen : Nat
  bimgInfo : UInt8
  hasData : Bool
  data : Option Fragment
  dataLen : Nat

structure DecodedXLogRecord where
  size : Nat
  lsn : UInt64
  header : XLogRecord
  recordOrigin : UInt16
  toplevelXid : UInt32
  mainData : Option Fragment
  mainDataLen : Nat
  maxBlockId : Int
  polarXlogMeta : Option Fragment
  polarXlogMetaSize : Nat
  blocks : Nat → DecodedBkpBlock

/-- The offset of the block array, and the size of one block. -/
def blocksOffset : Nat := 104
def sizeOfDecodedBkpBlock : Nat := 64

def maxAlign (position : Nat) : Nat := (position + 7) / 8 * 8

section Readers

def check (refused : Bool) (error : DecodeError) : Reader DecodeError Unit :=
  if refused then fail error else pure ()

def readRelFileNode (short : DecodeError) : Reader DecodeError RelFileNode := do
  let spcNode ← u32 short
  let dbNode ← u32 short
  let relNode ← u32 short
  pure { spcNode, dbNode, relNode }

def readHeader : Reader DecodeError XLogRecord := do
  let xlTotLen ← u32 .shortData
  let xlXid ← u32 .shortData
  let xlPrev ← u64 .shortData
  let xlInfo ← u8 .shortData
  let xlRmid ← u8 .shortData
  let _ ← u16 .shortData
  let xlCrc ← u32 .shortData
  pure { xlTotLen, xlXid, xlPrev, xlInfo, xlRmid, xlCrc }

def readHoleLength (short : DecodeError) (bimgInfo : UInt8) (bimgLen : Nat) :
    Reader DecodeError Nat :=
  if bkpimageCompressed bimgInfo then
    if bimgInfo &&& bkpimageHasHole ≠ 0 then nat short 2 else pure 0
  else pure ((2 ^ 16 + blckSz - bimgLen) % 2 ^ 16)

def decodeImage (short : DecodeError) (blk : DecodedBkpBlock) :
    Reader DecodeError DecodedBkpBlock := do
  let bimgLen ← nat short 2
  let holeOffset ← nat short 2
  let bimgInfo ← u8 short
  let holeLength ← readHoleLength short bimgInfo bimgLen
  let hasHole := bimgInfo &&& bkpimageHasHole != 0
  let compressed := bkpimageCompressed bimgInfo
  check (hasHole && (holeOffset == 0 || holeLength == 0 || bimgLen == blckSz)) .holeIncomplete
  check (!hasHole && (holeOffset != 0 || holeLength != 0)) .holeWithoutFlag
  check (compressed && bimgLen == blckSz) .compressedFullLength
  check (!hasHole && !compressed && bimgLen != blckSz) .plainNotFullLength
  pure { blk with
      applyImage := bimgInfo &&& bkpimageApply != 0, holeOffset, holeLength, bimgLen, bimgInfo }

def decodeImageIf (short : DecodeError) (hasImage : Bool) (blk : DecodedBkpBlock) :
    Reader DecodeError DecodedBkpBlock :=
  if hasImage then decodeImage short blk else pure blk

def readRnode (short : DecodeError) (flags : UInt8) (previous : Option RelFileNode) :
    Reader DecodeError RelFileNode :=
  if flags &&& bkpblockSameRel = 0 then readRelFileNode short
  else
    match previous with
    | none => fail .sameRelWithoutPrevious
    | some rnode => pure rnode

/-- The header of a block reference after its id. The two decoders differ in how they end
when the bytes run out. -/
def decodeBlock (short : DecodeError) (maxBlockId : Int) (previous : Option RelFileNode)
    (blockId : UInt8) (blk : DecodedBkpBlock) : Reader DecodeError DecodedBkpBlock := do
  check (decide ((blockId.toNat : Int) ≤ maxBlockId)) .outOfOrderBlockId
  let flags ← u8 short
  let dataLen ← nat short 2
  let hasData := flags &&& bkpblockHasData != 0
  let hasImage := flags &&& bkpblockHasImage != 0
  check (hasData && dataLen == 0) .hasDataButNone
  check (!hasData && dataLen != 0) .dataWithoutFlag
  let blk := { blk with
    inUse := true, applyImage := false, flags, forknum := flags &&& bkpblockForkMask, hasImage,
      hasData, dataLen }
  let blk ← decodeImageIf short hasImage blk
  let rnode ← readRnode short flags previous
  let blkno ← u32 short
  pure { blk with rnode, blkno }

end Readers

section Decode

/-- The block is stored under its id; ids that were passed over are marked as not in use. -/
def DecodedXLogRecord.putBlock (decoded : DecodedXLogRecord) (blockId : Nat)
    (blk : DecodedBkpBlock) : DecodedXLogRecord :=
  { decoded with
    maxBlockId := blockId
    blocks := fun idx =>
      if idx = blockId then blk
      else if decoded.maxBlockId < idx ∧
        idx < blockId then { decoded.blocks idx with inUse := false }
      else decoded.blocks idx }

def DecodedXLogRecord.start (memory : DecodedXLogRecord) (header : XLogRecord) (lsn : UInt64) :
    DecodedXLogRecord :=
  { memory with
    header, lsn, recordOrigin := 0, toplevelXid := 0, mainData := none, mainDataLen := 0,
    polarXlogMeta := none, polarXlogMetaSize := 0, maxBlockId := -1 }

/-- The variables of the loop over the headers. -/
structure HeaderScan where
  decoded : DecodedXLogRecord
  rnode : Option RelFileNode
  datatotal : Nat

def HeaderScan.putBlock (scan : HeaderScan) (blockId : UInt8) (blk : DecodedBkpBlock) :
    HeaderScan :=
  { decoded := scan.decoded.putBlock blockId.toNat blk
    rnode := some blk.rnode
    datatotal := (scan.datatotal + blk.dataLen + if blk.hasImage then blk.bimgLen else 0) % 2 ^ 32 }

def HeaderScan.putMainData (scan : HeaderScan) (mainDataLen : Nat) : HeaderScan :=
  { scan with
    decoded := { scan.decoded with mainDataLen }
    datatotal := (scan.datatotal + mainDataLen) % 2 ^ 32 }

/-- One header; the result says whether it ends the loop. -/
def decodeHeader (scan : HeaderScan) : Reader DecodeError (HeaderScan × Bool) := do
  let blockId ← u8 .shortData
  if blockId = blockIdDataShort then
    let mainDataLen ← nat .shortData 1
    pure (scan.putMainData mainDataLen, true)
  else if blockId = blockIdDataLong then
    let mainDataLen ← nat .shortData 4
    pure (scan.putMainData mainDataLen, true)
  else if blockId = blockIdOrigin then
    let recordOrigin ← u16 .shortData
    pure ({ scan with decoded := { scan.decoded with recordOrigin } }, false)
  else if blockId = blockIdToplevelXid then
    let toplevelXid ← u32 .shortData
    pure ({ scan with decoded := { scan.decoded with toplevelXid } }, false)
  else if blockId ≤ xlrMaxBlockId then
    let blk ← decodeBlock .shortData scan.decoded.maxBlockId scan.rnode blockId
      (scan.decoded.blocks blockId.toNat)
    pure (scan.putBlock blockId blk, false)
  else fail .invalidBlockId

/-- Every round consumes at least the block id, so the number of bytes bounds the rounds. -/
def decodeHeaders : Nat → HeaderScan → List UInt8 → Except DecodeError (HeaderScan × List UInt8)
  | 0, scan, bytes => .ok (scan, bytes)
  | rounds + 1, scan, bytes =>
    if bytes.length > scan.datatotal then
      match decodeHeader scan bytes with
      | .error error => .error error
      | .ok ((scan, true), rest) => .ok (scan, rest)
      | .ok ((scan, false), rest) => decodeHeaders rounds scan rest
    else .ok (scan, bytes)

/-- The destination of the fragments and the bytes still to copy. -/
structure CopyState where
  decoded : DecodedXLogRecord
  out : Nat
  rest : List UInt8

def CopyState.copyImage (st : CopyState) (blockId : Nat) : CopyState :=
  let blk := st.decoded.blocks blockId
  let bkpImage := some { position := st.out, bytes := st.rest.take blk.bimgLen }
  { decoded := { st.decoded with
      blocks := Function.update st.decoded.blocks blockId { blk with bkpImage } }
    out := st.out + blk.bimgLen
    rest := st.rest.drop blk.bimgLen }

def CopyState.copyData (st : CopyState) (blockId : Nat) : CopyState :=
  let blk := st.decoded.blocks blockId
  let position := maxAlign st.out
  let data := some { position, bytes := st.rest.take blk.dataLen }
  { decoded :=
    { st.decoded with blocks := Function.update st.decoded.blocks blockId { blk with data } }
    out := position + blk.dataLen
    rest := st.rest.drop blk.dataLen }

def CopyState.copyBlock (st : CopyState) (blockId : Nat) : CopyState :=
  let blk := st.decoded.blocks blockId
  if !blk.inUse then st
  else
    let st := if blk.hasImage then st.copyImage blockId else st
    if blk.hasData then st.copyData blockId else st

def CopyState.copyMainData (st : CopyState) : CopyState :=
  let len := st.decoded.mainDataLen
  if len > 0 then
    let position := maxAlign st.out
    { decoded := { st.decoded with mainData := some { position, bytes := st.rest.take len } }
      out := position + len
      rest := st.rest.drop len }
  else st

def CopyState.copyMeta (st : CopyState) (record : List UInt8) : CopyState :=
  let position := maxAlign st.out
  let len := st.decoded.polarXlogMetaSize
  { st with
    decoded := { st.decoded with polarXlogMeta := some { position, bytes := record.take len } }
    out := position + len }

def copyFragments (saveXlogMeta : Bool) (decoded : DecodedXLogRecord) (record rest : List UInt8) :
    DecodedXLogRecord :=
  let count := (decoded.maxBlockId + 1).toNat
  let out := blocksOffset + sizeOfDecodedBkpBlock * count
  let st := ((List.range count).foldl CopyState.copyBlock { decoded, out, rest }).copyMainData
  let st := if saveXlogMeta then st.copyMeta record else st
  { st.decoded with size := maxAlign st.out }

/-- `memory` is what the destination held before. -/
def decodeXLogRecord (saveXlogMeta : Bool) (memory : DecodedXLogRecord) (record : List UInt8)
    (lsn : UInt64) : Except DecodeError DecodedXLogRecord := do
  let (header, _) ← readHeader record
  let body := (record.take header.xlTotLen.toNat).drop sizeOfXLogRecord
  let (scan, rest) ← decodeHeaders body.length
    { decoded := memory.start header lsn, rnode := none, datatotal := 0 } body
  if rest.length ≠ scan.datatotal then throw .shortData
  let decoded := { scan.decoded with polarXlogMetaSize := header.xlTotLen.toNat - rest.length }
  pure (copyFragments saveXlogMeta decoded record rest)

end Decode

end PolarDB.Xlog
