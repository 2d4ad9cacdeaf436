import PolarDB.Lib.Bytes
import Mathlib.Data.List.GetD

/-!
# Assembling a WAL record

A record is registered piece by piece: buffers with their flags and data, and main data
in chunks. `xLogRecordAssemble` turns what was registered into a chain of chunks, of
which the first holds the record header, the block headers and the headers of the main
data; the page images, the data of the blocks and the main data follow.
-/

namespace PolarDB.Xlog

open List Lib.Bytes

def blckSz : Nat := 8192
def sizeOfXLogRecord : Nat := 24
def sizeOfPageHeaderData : Nat := 24

def xlrInfoMask : UInt8 := 0x0F
def xlrCheckConsistency : UInt8 := 0x02
def xlrMaxBlockId : UInt8 := 32
def blockIdDataShort : UInt8 := 255
def blockIdDataLong : UInt8 := 254
def blockIdOrigin : UInt8 := 253
def blockIdToplevelXid : UInt8 := 252
def blockIdPolarExtra : UInt8 := 251

def bkpblockForkMask : UInt8 := 0x0F
def bkpblockHasImage : UInt8 := 0x10
def bkpblockHasData : UInt8 := 0x20
def bkpblockWillInit : UInt8 := 0x40
def bkpblockSameRel : UInt8 := 0x80

def bkpimageHasHole : UInt8 := 0x01
def bkpimageApply : UInt8 := 0x02
def bkpimageCompressPglz : UInt8 := 0x04
def bkpimageCompressLz4 : UInt8 := 0x08
def bkpimageCompressZstd : UInt8 := 0x10

def bkpimageCompressed (info : UInt8) : Bool :=
  info &&& (bkpimageCompressPglz ||| bkpimageCompressLz4 ||| bkpimageCompressZstd) != 0

def regbufForceImage : UInt8 := 0x01
def regbufNoImage : UInt8 := 0x02
def regbufWillInit : UInt8 := 0x06
def regbufStandard : UInt8 := 0x08
def regbufKeepData : UInt8 := 0x10

/-- The data of a chunk is the memory from its address on; the chunk owns `len` bytes of it. -/
structure XLogRecData where
  data : Nat → UInt8
  len : Nat

namespace XLogRecData

def read (chunk : XLogRecData) (count : Nat) : List UInt8 := (List.range count).map chunk.data

def bytes (chunk : XLogRecData) : List UInt8 := chunk.read chunk.len

def ofBytes (bytes : List UInt8) : XLogRecData :=
  { data := fun idx => bytes.getD idx 0, len := bytes.length }

@[simp]
theorem length_read (chunk : XLogRecData) (count : Nat) : (chunk.read count).length = count := by
  rw [read, length_map, length_range]

@[simp]
theorem length_bytes (chunk : XLogRecData) : chunk.bytes.length = chunk.len := length_read _ _

@[simp]
theorem bytes_of_bytes (bytes : List UInt8) : (ofBytes bytes).bytes = bytes := by
  apply ext_getElem (length_bytes _)
  intro _ _ there
  simp only [XLogRecData.bytes, read, ofBytes, getElem_map, getElem_range]
  exact getD_eq_getElem _ _ there

end XLogRecData

/-- The bytes of a chain, and their number. -/
def chainBytes (chain : List XLogRecData) : List UInt8 := chain.flatMap XLogRecData.bytes
def chainLen (chain : List XLogRecData) : Nat := (chain.map XLogRecData.len).sum

theorem length_chain_bytes (chain : List XLogRecData) :
    (chainBytes chain).length = chainLen chain := by
  simp only [chainBytes, chainLen, length_flatMap, XLogRecData.length_bytes]

structure RelFileNode where
  spcNode : UInt32
  dbNode : UInt32
  relNode : UInt32
deriving Repr, DecidableEq

inductive ForkNumber where
  | main
  | fsm
  | visibilityMap
  | init
deriving Repr, DecidableEq

def ForkNumber.code : ForkNumber → UInt8
  | main => 0
  | fsm => 1
  | visibilityMap => 2
  | init => 3

structure XLogRecord where
  xlTotLen : UInt32
  xlXid : UInt32
  xlPrev : UInt64
  xlInfo : UInt8
  xlRmid : UInt8
  xlCrc : UInt32
deriving Repr, DecidableEq

/-- Two bytes of padding stand before the checksum; the scratch buffer is allocated
zeroed and they are never written. -/
def XLogRecord.bytes (record : XLogRecord) : List UInt8 :=
  u32Bytes record.xlTotLen ++ u32Bytes record.xlXid ++ u64Bytes record.xlPrev ++
    u8Bytes record.xlInfo ++ u8Bytes record.xlRmid ++ u16Bytes 0 ++ u32Bytes record.xlCrc

@[simp]
theorem XLogRecord.length_bytes (record : XLogRecord) : record.bytes.length = sizeOfXLogRecord := by
  simp [XLogRecord.bytes, sizeOfXLogRecord]

def RelFileNode.bytes (rnode : RelFileNode) : List UInt8 :=
  u32Bytes rnode.spcNode ++ u32Bytes rnode.dbNode ++ u32Bytes rnode.relNode

structure RegisteredBuffer where
  inUse : Bool
  flags : UInt8
  rnode : RelFileNode
  forkno : ForkNumber
  block : UInt32
  page : Nat → UInt8
  rdataLen : Nat
  rdata : List XLogRecData

inductive CompressionMethod where
  | pglz
  | lz4
  | zstd
deriving Repr, DecidableEq

def CompressionMethod.flag : CompressionMethod → UInt8
  | pglz => bkpimageCompressPglz
  | lz4 => bkpimageCompressLz4
  | zstd => bkpimageCompressZstd

/-- What the assembly reads besides the registered data. The compression libraries and the
checksum are parameters. -/
structure InsertContext where
  redoRecPtr : UInt64
  doPageWrites : Bool
  walConsistencyChecking : UInt8 → Bool
  walCompression : Option CompressionMethod
  compress : CompressionMethod → List UInt8 → Option (List UInt8)
  includeOrigin : Bool
  sessionOrigin : UInt16
  topXidLogPending : Bool
  topXid : UInt32
  currentXid : UInt32
  crc : List UInt8 → UInt32

/-- What was registered since `XLogBeginInsert`. The head pointer of the main data is not
reset between records, so it may be left from an earlier one. -/
structure Registered where
  buffers : List RegisteredBuffer
  mainrdata : List XLogRecData
  staleHead : Option XLogRecData

def Registered.mainrdataLen (regs : Registered) : Nat := chainLen regs.mainrdata

def Registered.mainrdataHead (regs : Registered) : Option XLogRecData :=
  match regs.mainrdata with
  | [] => regs.staleHead
  | chunk :: _ => some chunk

section Assemble
variable (ctx : InsertContext)

def pageField (page : Nat → UInt8) (offset width : Nat) : Nat :=
  leNat ((List.range width).map fun idx => page (offset + idx))

def pageLsn (page : Nat → UInt8) : Nat := pageField page 0 4 * 2 ^ 32 + pageField page 4 4
def pdLower (page : Nat → UInt8) : Nat := pageField page 12 2
def pdUpper (page : Nat → UInt8) : Nat := pageField page 14 2

/-- Whether the page's LSN decides about the backup. -/
def decidesByLsn (regbuf : RegisteredBuffer) : Bool :=
  regbuf.flags &&& regbufForceImage == 0 && regbuf.flags &&& regbufNoImage == 0 && ctx.doPageWrites

def needsBackup (regbuf : RegisteredBuffer) : Bool :=
  if regbuf.flags &&& regbufForceImage ≠ 0 then true
  else if regbuf.flags &&& regbufNoImage ≠ 0 then false
  else if !ctx.doPageWrites then false
  else pageLsn regbuf.page ≤ ctx.redoRecPtr.toNat

def needsData (regbuf : RegisteredBuffer) (needsBackup : Bool) : Bool :=
  if regbuf.rdataLen = 0 then false
  else if regbuf.flags &&& regbufKeepData ≠ 0 then true
  else !needsBackup

/-- The offset and the length of the hole of a page. -/
def pageHole (regbuf : RegisteredBuffer) : Nat × Nat :=
  let lower := pdLower regbuf.page
  let upper := pdUpper regbuf.page
  if regbuf.flags &&& regbufStandard ≠ 0 ∧ lower ≥ sizeOfPageHeaderData ∧ upper > lower ∧
      upper ≤ blckSz then
    (lower, upper - lower)
  else (0, 0)

def xLogCompressBackupBlock (page : Nat → UInt8) (holeOffset holeLength : Nat) :
    Option (CompressionMethod × List UInt8) :=
  match ctx.walCompression with
  | none => none
  | some method =>
    let source := (List.range holeOffset).map page ++
      (List.range (blckSz - (holeLength + holeOffset))).map fun idx =>
      page (holeOffset + holeLength + idx)
    let extraBytes := if holeLength ≠ 0 then 2 else 0
    match ctx.compress method source with
    | none => none
    | some dest => if dest.length + extraBytes < blckSz - holeLength then some (method, dest)
        else none

/-- The image header of a block: `bimg` and, where the image is compressed, `cbimg`. -/
structure BlockImage where
  length : Nat
  holeOffset : Nat
  bimgInfo : UInt8
  holeLength : Nat
  isCompressed : Bool

def BlockImage.bytes (image : BlockImage) : List UInt8 :=
  leBytes 2 image.length ++ leBytes 2 image.holeOffset ++ u8Bytes image.bimgInfo ++
    if image.holeLength ≠ 0 ∧ image.isCompressed then leBytes 2 image.holeLength else []

def imageInfo (hasHole apply : Bool) (compressed : Option CompressionMethod) : UInt8 :=
  (if hasHole then bkpimageHasHole else 0) ||| (if apply then bkpimageApply else 0) |||
  (match compressed with
      | none => 0
      | some method => method.flag)

def blockImage (regbuf : RegisteredBuffer) (needsBackup : Bool) : BlockImage × List XLogRecData :=
  let (holeOffset, holeLength) := pageHole regbuf
  let info := imageInfo (holeLength ≠ 0) needsBackup
  match xLogCompressBackupBlock ctx regbuf.page holeOffset holeLength with
  | some (method, page) =>
    ({ length := page.length, holeOffset, bimgInfo := info (some method), holeLength,
       isCompressed := true },
      [XLogRecData.ofBytes page])
  | none =>
    ({ length := blckSz - holeLength, holeOffset, bimgInfo := info none, holeLength,
       isCompressed := false },
      if holeLength = 0 then [{ data := regbuf.page, len := blckSz }]
      else [{ data := regbuf.page, len := holeOffset },
        { data := fun idx => regbuf.page (holeOffset + holeLength + idx),
          len := blckSz - (holeOffset + holeLength) }])

/-- The header of a block reference with what follows it in the scratch buffer. -/
structure BlockHeader where
  id : UInt8
  forkFlags : UInt8
  dataLength : Nat
  image : Option BlockImage
  samerel : Bool
  rnode : RelFileNode
  block : UInt32

def BlockHeader.body (header : BlockHeader) : List UInt8 :=
  u8Bytes header.forkFlags ++ leBytes 2 header.dataLength ++ (match header.image with
      | none => []
      | some image => image.bytes) ++
    (if header.samerel then [] else header.rnode.bytes) ++ u32Bytes header.block

def BlockHeader.bytes (header : BlockHeader) : List UInt8 := u8Bytes header.id ++ header.body

def forkFlags (forkno : ForkNumber) (willInit hasImage hasData samerel : Bool) : UInt8 :=
  forkno.code ||| (if willInit then bkpblockWillInit else 0) |||
  (if hasImage then bkpblockHasImage else 0) |||
    (if hasData then bkpblockHasData else 0) ||| (if samerel then bkpblockSameRel else 0)

/-- The variables of the loop over the registered buffers. -/
structure Assembly where
  scratch : List UInt8
  chain : List XLogRecData
  totalLen : Nat
  prevRegbuf : Option RelFileNode
  fpwLsn : Nat
  numFpi : Nat

def includesImage (info : UInt8) (regbuf : RegisteredBuffer) : Bool :=
  needsBackup ctx regbuf || info &&& xlrCheckConsistency != 0

/-- The image of the block, if it is included, with its chunks. -/
def includedImage (info : UInt8) (regbuf : RegisteredBuffer) :
    Option (BlockImage × List XLogRecData) :=
  if includesImage ctx info regbuf then some (blockImage ctx regbuf (needsBackup ctx regbuf))
    else none

def blockHeader (info : UInt8) (prevRegbuf : Option RelFileNode) (blockId : Nat)
    (regbuf : RegisteredBuffer) : BlockHeader :=
  let data := needsData regbuf (needsBackup ctx regbuf)
  let samerel := decide (prevRegbuf = some regbuf.rnode)
  let willInit := regbuf.flags &&& regbufWillInit == regbufWillInit
  { id := UInt8.ofNat blockId
    forkFlags := forkFlags regbuf.forkno willInit (includesImage ctx info regbuf) data samerel
    dataLength := if data then regbuf.rdataLen else 0
    image := (includedImage ctx info regbuf).map Prod.fst
    samerel
    rnode := regbuf.rnode
    block := regbuf.block }

def assembleBlock (info : UInt8) (assembly : Assembly) (blockId : Nat) (regbuf : RegisteredBuffer) :
    Assembly :=
  if !regbuf.inUse then assembly
  else
    let backup := needsBackup ctx regbuf
    let data := needsData regbuf backup
    let image := includedImage ctx info regbuf
    let lowersFpwLsn := decidesByLsn ctx regbuf && !backup &&
      (assembly.fpwLsn == 0 || pageLsn regbuf.page < assembly.fpwLsn)
    { scratch := assembly.scratch ++ (blockHeader ctx info assembly.prevRegbuf blockId regbuf).bytes
      chain := assembly.chain ++ (image.map Prod.snd).getD [] ++ if data then regbuf.rdata else []
      totalLen := assembly.totalLen + ((image.map fun made => made.1.length).getD 0) +
        if data then regbuf.rdataLen else 0
      prevRegbuf := some regbuf.rnode
      fpwLsn := if lowersFpwLsn then pageLsn regbuf.page else assembly.fpwLsn
      numFpi := assembly.numFpi + if includesImage ctx info regbuf then 1 else 0 }

def assembleBlocks (info : UInt8) : Assembly → Nat → List RegisteredBuffer → Assembly
  | assembly, _, [] => assembly
  | assembly, blockId, regbuf :: rest =>
    assembleBlocks info (assembleBlock ctx info assembly blockId regbuf) (blockId + 1) rest

def Assembly.empty : Assembly :=
  { scratch := [], chain := [], totalLen := 0, prevRegbuf := none, fpwLsn := 0, numFpi := 0 }

def originHeader : List UInt8 :=
  if ctx.includeOrigin ∧ ctx.sessionOrigin ≠ 0 then u8Bytes blockIdOrigin ++
    u16Bytes ctx.sessionOrigin else []

def topXidHeader : List UInt8 :=
  if ctx.topXidLogPending then u8Bytes blockIdToplevelXid ++ u32Bytes ctx.topXid else []

def mainDataHeader (mainrdataLen : Nat) : List UInt8 :=
  if mainrdataLen > 0 then
    if mainrdataLen > 255 then u8Bytes blockIdDataLong ++ leBytes 4 mainrdataLen
    else u8Bytes blockIdDataShort ++ leBytes 1 mainrdataLen
  else []

/-- The record with the chunks after the first; `scratch` is what the first chunk holds
after the record header. -/
structure AssembledRecord where
  header : XLogRecord
  scratch : List UInt8
  chain : List XLogRecData
  fpwLsn : Nat
  numFpi : Nat
  topxidIncluded : Bool

def xLogRecordAssemble (regs : Registered) (rmid info : UInt8) : AssembledRecord :=
  let info := if ctx.walConsistencyChecking rmid then info ||| xlrCheckConsistency else info
  let blocks := assembleBlocks ctx info Assembly.empty 0 regs.buffers
  let scratch := blocks.scratch ++ originHeader ctx ++ topXidHeader ctx ++
    mainDataHeader regs.mainrdataLen
  let chain := blocks.chain ++ if regs.mainrdataLen > 0 then regs.mainrdata else []
  let totalLen := blocks.totalLen + regs.mainrdataLen + (sizeOfXLogRecord + scratch.length)
  { header :=
      { xlTotLen := UInt32.ofNat totalLen
        xlXid := ctx.currentXid
        xlPrev := 0
        xlInfo := info
        xlRmid := rmid
        xlCrc := ctx.crc (scratch ++ chainBytes chain) }
    scratch
    chain
    fpwLsn := blocks.fpwLsn
    numFpi := blocks.numFpi
    topxidIncluded := ctx.topXidLogPending }

/-- The chain that is inserted: the previous-record pointer and the checksum are filled in
when the place of the record is known. -/
def AssembledRecord.rdata (record : AssembledRecord) (prev : UInt64) (crc : UInt32) :
    List XLogRecData :=
  XLogRecData.ofBytes ({ record.header with
      xlPrev := prev, xlCrc := crc }.bytes ++ record.scratch) :: record.chain

end Assemble

end PolarDB.Xlog
