import PolarDB.Xlog.HeaderSpec

/-!
# Decoding the headers of an assembled record

The rounds of the decoder follow the headers one by one. What it has stored after the
block headers does not depend on what the memory held before.
-/

namespace PolarDB.Xlog

open List Lib.Bytes

/-- The bytes of image and data that follow the headers for this block. -/
def BlockHeader.payloadLen (header : BlockHeader) : Nat :=
  header.dataLength + match header.image with
    | none => 0
    | some image => image.length

def payloadTotal (headers : List BlockHeader) : Nat := (headers.map BlockHeader.payloadLen).sum

def DecodedXLogRecord.putHeader (decoded : DecodedXLogRecord) (header : BlockHeader) :
    DecodedXLogRecord :=
  decoded.putBlock header.id.toNat (header.decoded (decoded.blocks header.id.toNat))

def DecodedXLogRecord.putHeaders (decoded : DecodedXLogRecord) (headers : List BlockHeader) :
    DecodedXLogRecord :=
  headers.foldl DecodedXLogRecord.putHeader decoded

def HeaderScan.putHeader (scan : HeaderScan) (header : BlockHeader) : HeaderScan :=
  scan.putBlock header.id (header.decoded (scan.decoded.blocks header.id.toNat))

@[simp]
theorem BlockHeader.decoded_rnode (header : BlockHeader) (blk : DecodedBkpBlock) :
    (header.decoded blk).rnode = header.rnode := rfl

@[simp]
theorem BlockHeader.decoded_blkno (header : BlockHeader) (blk : DecodedBkpBlock) :
    (header.decoded blk).blkno = header.block := rfl

section DecodedBlock
variable (header : BlockHeader) (blk : DecodedBkpBlock)

@[simp]
theorem BlockHeader.decoded_in_use : (header.decoded blk).inUse = true := by
  unfold BlockHeader.decoded
  cases header.image <;> rfl

@[simp]
theorem BlockHeader.decoded_flags : (header.decoded blk).flags = header.forkFlags := by
  unfold BlockHeader.decoded
  cases header.image <;> rfl

@[simp]
theorem BlockHeader.decoded_forknum : (header.decoded blk).forknum = header.forkFlags &&&
    bkpblockForkMask := by
  unfold BlockHeader.decoded
  cases header.image <;> rfl

@[simp]
theorem BlockHeader.decoded_data_len : (header.decoded blk).dataLen = header.dataLength := by
  unfold BlockHeader.decoded
  cases header.image <;> rfl

@[simp]
theorem BlockHeader.decoded_has_data :
    (header.decoded blk).hasData = (header.forkFlags &&& bkpblockHasData != 0) := by
  unfold BlockHeader.decoded
  cases header.image <;> rfl

variable {header}

theorem BlockHeader.Valid.decoded_image_len (valid : header.Valid) :
    (if (header.decoded blk).hasImage then (header.decoded blk).bimgLen else 0) =
    match header.image with
      | none => 0
      | some image => image.length := by
  have flag := valid.hasImage
  unfold BlockHeader.decoded
  cases found : header.image with
  | none =>
    rw [found] at flag
    have clear : header.forkFlags &&& bkpblockHasImage = 0 := by
      by_contra set
      exact absurd (flag.mp set) (by decide)
    simp [BlockHeader.decodedFlags, clear]
  | some =>
    rw [found] at flag
    have set : header.forkFlags &&& bkpblockHasImage ≠ 0 := flag.mpr rfl
    simp [BlockHeader.decodedFlags, BlockImage.decoded, set]

end DecodedBlock

theorem put_headers_fields (headers : List BlockHeader) : ∀ decoded : DecodedXLogRecord,
    decoded.putHeaders headers = { decoded with
        maxBlockId := (decoded.putHeaders headers).maxBlockId
        blocks := (decoded.putHeaders headers).blocks } := by
  induction headers with
  | nil => intro decoded; rfl
  | cons header headers ih =>
    intro decoded
    change (decoded.putHeader header).putHeaders headers = _
    rw [ih (decoded.putHeader header)]
    rfl

section Rounds
variable {scan next : HeaderScan} {item rest : List UInt8} {rounds : Nat}

theorem decode_headers_next (enough : scan.datatotal < (item ++ rest).length)
    (reads : Reads (decodeHeader scan) item (next, false)) :
    decodeHeaders (rounds + 1) scan (item ++ rest) = decodeHeaders rounds next rest := by
  rw [decodeHeaders, if_pos enough, reads rest]

theorem decode_headers_last (enough : scan.datatotal < (item ++ rest).length)
    (reads : Reads (decodeHeader scan) item (next, true)) :
    decodeHeaders (rounds + 1) scan (item ++ rest) = .ok (next, rest) := by
  rw [decodeHeaders, if_pos enough, reads rest]

theorem decode_headers_done (exact' : rest.length ≤ scan.datatotal) :
    decodeHeaders rounds scan rest = .ok (scan, rest) := by
  cases rounds with
  | zero => rfl
  | succ => rw [decodeHeaders, if_neg (not_lt.mpr exact')]

theorem ne_of_le_max {blockId : UInt8} (small : blockId ≤ xlrMaxBlockId) {other : UInt8}
    (large : xlrMaxBlockId < other) : blockId ≠ other := by
  intro same
  rw [same] at small
  exact absurd small (UInt8.not_le.mpr large)

theorem reads_block_header {header : BlockHeader} (valid : header.Valid)
    (order : scan.decoded.maxBlockId < (header.id.toNat : Int))
    (linked : header.samerel = true → scan.rnode = some header.rnode) :
    Reads (decodeHeader scan) header.bytes (scan.putHeader header, false) := by
  apply Reads.bind (reads_u8 header.id)
  rw [if_neg (ne_of_le_max valid.id_le (by decide)), if_neg (ne_of_le_max valid.id_le (by decide)),
    if_neg (ne_of_le_max valid.id_le (by decide)), if_neg (ne_of_le_max valid.id_le (by decide)),
    if_pos valid.id_le]
  exact Reads.last (reads_block valid order linked _) (reads_pure _)

theorem reads_origin (origin : UInt16) : Reads (decodeHeader scan)
      (u8Bytes blockIdOrigin ++ u16Bytes origin)
      ({ scan with decoded := { scan.decoded with recordOrigin := origin } }, false) := by
  apply Reads.bind (reads_u8 blockIdOrigin)
  exact Reads.last (reads_u16 origin) (reads_pure _)

theorem reads_toplevel_xid (xid : UInt32) : Reads (decodeHeader scan)
      (u8Bytes blockIdToplevelXid ++ u32Bytes xid)
      ({ scan with decoded := { scan.decoded with toplevelXid := xid } }, false) := by
  apply Reads.bind (reads_u8 blockIdToplevelXid)
  exact Reads.last (reads_u32 xid) (reads_pure _)

theorem reads_main_data {len : Nat} (positive : len > 0) (bound : len < 2 ^ 32) :
    Reads (decodeHeader scan) (mainDataHeader len) (scan.putMainData len, true) := by
  rw [mainDataHeader, if_pos positive]
  split_ifs
  · apply Reads.bind (reads_u8 blockIdDataLong)
    exact Reads.last (reads_nat bound) (reads_pure _)
  · apply Reads.bind (reads_u8 blockIdDataShort)
    exact Reads.last (reads_nat (show len < 256 ^ 1 by omega)) (reads_pure _)

end Rounds

section Headers
variable {scan : HeaderScan}

theorem put_header_datatotal {header : BlockHeader} (valid : header.Valid)
    (bound : scan.datatotal + header.payloadLen < 2 ^ 32) :
    (scan.putHeader header).datatotal = scan.datatotal + header.payloadLen := by
  rw [BlockHeader.payloadLen] at *
  simp only [HeaderScan.putHeader, HeaderScan.putBlock, valid.decoded_image_len,
    BlockHeader.decoded_data_len]
  rw [add_assoc, Nat.mod_eq_of_lt bound]

theorem bytes_positive (header : BlockHeader) : 0 < header.bytes.length := by
  rw [BlockHeader.bytes, length_append, length_u8_bytes]
  omega

theorem decode_headers_blocks (rest : List UInt8) (rounds : Nat) (headers : List BlockHeader) :
    ∀ scan : HeaderScan, (∀ header ∈ headers, header.Valid) →
    Linked scan.decoded.maxBlockId scan.rnode headers →
      scan.datatotal + payloadTotal headers < 2 ^ 32 → scan.datatotal + payloadTotal headers ≤
      rest.length → ∃ last : HeaderScan, decodeHeaders (headers.length + rounds) scan
          (headers.flatMap BlockHeader.bytes ++ rest) = decodeHeaders rounds last rest ∧
        last.decoded = scan.decoded.putHeaders headers ∧
        last.datatotal = scan.datatotal + payloadTotal headers := by
  induction headers with
  | nil =>
    intro scan _ _ _ _
    refine ⟨scan, ?_, rfl, rfl⟩
    rw [length_nil, zero_add]
    rfl
  | cons header headers ih =>
    intro scan valid linked _ _
    have first : header.Valid := valid header mem_cons_self
    have total : payloadTotal (header :: headers) = header.payloadLen + payloadTotal headers := rfl
    have moved : (scan.putHeader header).datatotal = scan.datatotal + header.payloadLen :=
      put_header_datatotal first (by omega)
    obtain ⟨last, run, decoded, _⟩ := ih (scan.putHeader header)
      (fun other mem => valid other (mem_cons_of_mem _ mem)) linked.2.2 (by omega) (by omega)
    refine ⟨last, ?_, decoded, by omega⟩
    have positive := bytes_positive header
    have enough :
      scan.datatotal < (header.bytes ++ (headers.flatMap BlockHeader.bytes ++ rest)).length := by
      simp only [length_append]
      omega
    rw [flatMap_cons, append_assoc, length_cons, Nat.add_right_comm,
      decode_headers_next enough (reads_block_header first linked.1 linked.2.1), run]

end Headers

section References

def blockRef (blk : DecodedBkpBlock) : Option (RelFileNode × UInt8 × UInt32 × UInt8) :=
  if blk.inUse then some (blk.rnode, blk.forknum, blk.blkno, blk.flags) else none

structure SameReferences (left right : DecodedXLogRecord) : Prop where
  header : left.header = right.header
  maxBlockId : left.maxBlockId = right.maxBlockId
  blocks : ∀ blockId : Nat, (blockId : Int) ≤ left.maxBlockId →
    blockRef (left.blocks blockId) = blockRef (right.blocks blockId)

theorem SameReferences.trans {first second third : DecodedXLogRecord}
    (left : SameReferences first second) (right : SameReferences second third) :
    SameReferences first third := by
  constructor
  · rw [left.header, right.header]
  · rw [left.maxBlockId, right.maxBlockId]
  · intro blockId bound
    rw [left.blocks blockId bound, right.blocks blockId (by rwa [← left.maxBlockId])]

variable {left right : DecodedXLogRecord}

theorem SameReferences.symm (same : SameReferences left right) : SameReferences right left := by
  constructor
  · exact same.header.symm
  · exact same.maxBlockId.symm
  · intro blockId _
    exact (same.blocks blockId (by rwa [same.maxBlockId])).symm

theorem block_ref_decoded (header : BlockHeader) (left right : DecodedBkpBlock) :
    blockRef (header.decoded left) = blockRef (header.decoded right) := by
  simp [blockRef]

theorem SameReferences.put_header {header : BlockHeader}
    (same : SameReferences left right) : SameReferences (left.putHeader header)
    (right.putHeader header) := by
  constructor
  · exact same.header
  · rfl
  · intro blockId bound
    have small : blockId ≤ header.id.toNat := Int.ofNat_le.mp bound
    simp only [DecodedXLogRecord.putHeader, DecodedXLogRecord.putBlock]
    by_cases here : blockId = header.id.toNat
    · rw [if_pos here, if_pos here]
      exact block_ref_decoded header _ _
    rw [if_neg here, if_neg here, ← same.maxBlockId]
    by_cases passed : left.maxBlockId < blockId
    · rw [if_pos ⟨passed, by omega⟩, if_pos ⟨passed, by omega⟩]
      rfl
    · rw [if_neg (fun between => passed between.1), if_neg (fun between => passed between.1)]
      exact same.blocks blockId (not_lt.mp passed)

theorem SameReferences.put_headers (headers : List BlockHeader) :
    ∀ {left right : DecodedXLogRecord}, SameReferences left right →
    SameReferences (left.putHeaders headers) (right.putHeaders headers) := by
  induction headers with
  | nil => intro left right same; exact same
  | cons _ _ ih => intro left right same; exact ih same.put_header

theorem same_references_start (header : XLogRecord) (left right : DecodedXLogRecord)
    (lsn : UInt64) : SameReferences (left.start header lsn) (right.start header lsn) := by
  constructor
  · rfl
  · rfl
  · intro blockId bound
    exact absurd bound (by change ¬ (blockId : Int) ≤ -1; omega)

end References

section Fragments

def blockPayload (blk : DecodedBkpBlock) : Nat :=
  if blk.inUse then (if blk.hasImage then blk.bimgLen else 0) + if blk.hasData then blk.dataLen
    else 0 else 0

def payloadBefore (blocks : Nat → DecodedBkpBlock) : Nat → Nat
  | 0 => 0
  | count + 1 => payloadBefore blocks count + blockPayload (blocks count)

theorem payload_before_congr {left right : Nat → DecodedBkpBlock} : ∀ count : Nat,
    (∀ blockId < count, blockPayload (left blockId) = blockPayload (right blockId)) →
      payloadBefore left count = payloadBefore right count := by
  intro count
  induction count with
  | zero => intro _; rfl
  | succ count ih =>
    intro same
    rw [payloadBefore, payloadBefore, same count (lt_add_one _),
      ih (fun blockId bound => same blockId (Nat.lt_succ_of_lt bound))]

variable {blocks : Nat → DecodedBkpBlock} {decoded : DecodedXLogRecord}

theorem payload_before_unused {first : Nat} : ∀ count : Nat,
    (∀ blockId, first ≤ blockId → blockId < first + count → (blocks blockId).inUse = false) →
      payloadBefore blocks (first + count) = payloadBefore blocks first := by
  intro count
  induction count with
  | zero => intro _; rfl
  | succ count ih =>
    intro unused
    have last : blockPayload (blocks (first + count)) = 0 := by
      rw [blockPayload, unused _ (by omega) (by omega)]
      rfl
    rw [← add_assoc, payloadBefore, last, add_zero,
      ih (fun blockId low high => unused blockId low (by omega))]

theorem BlockHeader.Valid.block_payload {header : BlockHeader} (valid : header.Valid)
    (blk : DecodedBkpBlock) : blockPayload (header.decoded blk) = header.payloadLen := by
  have data : (if (header.decoded blk).hasData then (header.decoded blk).dataLen else 0) =
    header.dataLength := by
    rw [BlockHeader.decoded_has_data, BlockHeader.decoded_data_len]
    split_ifs with set
    · rfl
    · by_contra positive
      exact set (bne_iff_ne.mpr (valid.hasData.mpr (Ne.symm positive)))
  rw [blockPayload, BlockHeader.decoded_in_use, if_pos rfl, valid.decoded_image_len, data,
    BlockHeader.payloadLen, add_comm]

/-- The payload of all blocks up to the greatest id. -/
def DecodedXLogRecord.payload (decoded : DecodedXLogRecord) : Nat :=
  payloadBefore decoded.blocks (decoded.maxBlockId + 1).toNat

theorem put_header_payload {header : BlockHeader} (valid : header.Valid)
    (start : -1 ≤ decoded.maxBlockId) (order : decoded.maxBlockId < (header.id.toNat : Int)) :
    (decoded.putHeader header).payload = decoded.payload + header.payloadLen := by
  have count : ((decoded.putHeader header).maxBlockId + 1).toNat = header.id.toNat + 1 := by
    change ((header.id.toNat : Int) + 1).toNat = _
    omega
  have stored : (decoded.putHeader header).blocks header.id.toNat =
      header.decoded (decoded.blocks header.id.toNat) := if_pos rfl
  have earlier : ∀ blockId < (decoded.maxBlockId + 1).toNat,
      blockPayload ((decoded.putHeader header).blocks blockId) = blockPayload
      (decoded.blocks blockId) := by
    intro blockId _
    have other : blockId ≠ header.id.toNat := by omega
    have kept : ¬ (decoded.maxBlockId < blockId ∧ blockId < header.id.toNat) := by omega
    simp only [DecodedXLogRecord.putHeader, DecodedXLogRecord.putBlock, if_neg other, if_neg kept]
  have between : ∀ blockId, (decoded.maxBlockId + 1).toNat ≤ blockId →
      blockId < (decoded.maxBlockId + 1).toNat +
      (header.id.toNat - (decoded.maxBlockId + 1).toNat) →
      ((decoded.putHeader header).blocks blockId).inUse = false := by
    intro blockId _ _
    have other : blockId ≠ header.id.toNat := by omega
    have passed : decoded.maxBlockId < blockId ∧ blockId < header.id.toNat := by omega
    simp only [DecodedXLogRecord.putHeader, DecodedXLogRecord.putBlock, if_neg other, if_pos passed]
  have upTo := payload_before_unused _ between
  rw [show (decoded.maxBlockId + 1).toNat + (header.id.toNat - (decoded.maxBlockId + 1).toNat) =
    header.id.toNat by omega] at upTo
  rw [DecodedXLogRecord.payload, count, payloadBefore, stored, valid.block_payload, upTo,
    payload_before_congr _ earlier]
  rfl

theorem put_headers_payload (headers : List BlockHeader) : ∀ {decoded : DecodedXLogRecord}
    {previous : Option RelFileNode}, (∀ header ∈ headers, header.Valid) → -1 ≤ decoded.maxBlockId →
      Linked decoded.maxBlockId previous headers →
      (decoded.putHeaders headers).payload = decoded.payload + payloadTotal headers := by
  induction headers with
  | nil => intro decoded previous _ _ _; rfl
  | cons header headers ih =>
    intro decoded _ valid start linked
    have first : header.Valid := valid header mem_cons_self
    have rest : ((decoded.putHeader header).putHeaders headers).payload = _ :=
      ih (fun other mem => valid other (mem_cons_of_mem _ mem))
        (by change (-1 : Int) ≤ header.id.toNat; omega) linked.2.2
    change ((decoded.putHeader header).putHeaders headers).payload = _
    rw [rest, put_header_payload first start linked.1]
    change _ = decoded.payload + (header.payloadLen + payloadTotal headers)
    omega

/-- The blocks agree in everything but the pointers to their fragments. -/
def SameBlock (left right : DecodedBkpBlock) : Prop :=
  ∃ bkpImage data, left = { right with bkpImage, data }

theorem SameBlock.block_ref {left right : DecodedBkpBlock} (same : SameBlock left right) :
    blockRef left = blockRef right := by
  obtain ⟨_, _, rfl⟩ := same
  rfl

theorem SameBlock.payload {left right : DecodedBkpBlock} (same : SameBlock left right) :
    blockPayload left = blockPayload right := by
  obtain ⟨_, _, rfl⟩ := same
  rfl

theorem SameBlock.trans {first second third : DecodedBkpBlock} (left : SameBlock first second)
    (right : SameBlock second third) : SameBlock first third := by
  obtain ⟨_, _, rfl⟩ := left
  obtain ⟨_, _, rfl⟩ := right
  exact ⟨_, _, rfl⟩

/-- Fragments were copied: `consumed` bytes are gone and only pointers were set. -/
structure Copied (before after : CopyState) (consumed : Nat) : Prop where
  rest : after.rest = before.rest.drop consumed
  decoded : after.decoded = { before.decoded with blocks := after.decoded.blocks }
  blocks : ∀ blockId, SameBlock (after.decoded.blocks blockId) (before.decoded.blocks blockId)

theorem Copied.refl (st : CopyState) : Copied st st 0 :=
  { rest := rfl, decoded := rfl, blocks := fun _ => ⟨_, _, rfl⟩ }

theorem Copied.trans {first second third : CopyState} {left right : Nat}
    (here : Copied first second left) (there : Copied second third right) :
    Copied first third (left + right) := by
  constructor
  · rw [there.rest, here.rest, drop_drop]
  · rw [there.decoded, here.decoded]
  · intro blockId
    exact (there.blocks blockId).trans (here.blocks blockId)

theorem same_block_update {blockId : Nat} {blk : DecodedBkpBlock}
    (same : SameBlock blk (blocks blockId)) (other : Nat) :
    SameBlock (Function.update blocks blockId blk other) (blocks other) := by
  by_cases here : other = blockId
  · rw [here, Function.update_self]
    exact same
  · rw [Function.update_of_ne here]
    exact ⟨_, _, rfl⟩

section
variable (st : CopyState) (blockId : Nat)

theorem copied_image : Copied st (st.copyImage blockId) (st.decoded.blocks blockId).bimgLen :=
  { rest := rfl, decoded := rfl, blocks := same_block_update ⟨_, _, rfl⟩ }

theorem copied_data : Copied st (st.copyData blockId) (st.decoded.blocks blockId).dataLen :=
  { rest := rfl, decoded := rfl, blocks := same_block_update ⟨_, _, rfl⟩ }

theorem copied_block : Copied st (st.copyBlock blockId)
    (blockPayload (st.decoded.blocks blockId)) := by
  rw [CopyState.copyBlock, blockPayload]
  cases used : (st.decoded.blocks blockId).inUse with
  | false => exact Copied.refl st
  | true =>
    have image :
      Copied st (if (st.decoded.blocks blockId).hasImage then st.copyImage blockId else st)
        (if (st.decoded.blocks blockId).hasImage then (st.decoded.blocks blockId).bimgLen
        else 0) := by
      split_ifs
      · exact copied_image st blockId
      · exact Copied.refl st
    cases found : (st.decoded.blocks blockId).hasData with
    | false => exact image
    | true =>
      have data := copied_data (if (st.decoded.blocks blockId).hasImage then st.copyImage blockId
        else st) blockId
      obtain ⟨_, _, same⟩ := image.blocks blockId
      rw [same] at data
      exact image.trans data

end

theorem copied_blocks (st : CopyState) (count : Nat) :
      Copied st ((List.range count).foldl CopyState.copyBlock st)
      (payloadBefore st.decoded.blocks count) := by
  induction count with
  | zero => exact Copied.refl st
  | succ count ih =>
    rw [range_succ, foldl_append, payloadBefore]
    have last := copied_block ((List.range count).foldl CopyState.copyBlock st) count
    rw [(ih.blocks count).payload] at last
    exact ih.trans last

/-- The main data of a record, wherever it was put. -/
def DecodedXLogRecord.mainDataBytes (decoded : DecodedXLogRecord) : List UInt8 :=
  (decoded.mainData.map Fragment.bytes).getD []

/-- What `copyFragments` leaves of the headers, and where the main data comes from. -/
structure Unpacked (decoded unpacked : DecodedXLogRecord) (rest : List UInt8) : Prop where
  references : SameReferences unpacked decoded
  mainDataLen : unpacked.mainDataLen = decoded.mainDataLen
  mainData : unpacked.mainDataBytes = (rest.drop decoded.payload).take decoded.mainDataLen

theorem copied_main_data {rest : List UInt8} {out : Nat} {st : CopyState}
    (copied : Copied { decoded, out, rest } st decoded.payload) (empty : decoded.mainData = none) :
    Unpacked decoded st.copyMainData.decoded rest := by
  have fields := copied.decoded
  have kept : SameReferences st.decoded decoded := by
    constructor
    · rw [fields]
    · rw [fields]
    · intro blockId _
      exact (copied.blocks blockId).block_ref
  have length : st.decoded.mainDataLen = decoded.mainDataLen := by rw [fields]
  rw [CopyState.copyMainData]
  by_cases positive : st.decoded.mainDataLen > 0
  · rw [if_pos positive]
    constructor
    · exact { kept with }
    · exact length
    · change st.rest.take st.decoded.mainDataLen = _
      rw [copied.rest, length]
  · have none : st.decoded.mainData = none := by rw [fields]; exact empty
    have zero : decoded.mainDataLen = 0 := by omega
    rw [if_neg positive]
    constructor
    · exact kept
    · exact length
    · rw [zero, take_zero, DecodedXLogRecord.mainDataBytes, none]
      rfl

theorem copy_fragments_spec (saveXlogMeta : Bool) (decoded : DecodedXLogRecord)
    (record rest : List UInt8) (empty : decoded.mainData = none) :
    Unpacked decoded (copyFragments saveXlogMeta decoded record rest) rest := by
  have copied := copied_main_data (copied_blocks
    { decoded, out := blocksOffset + sizeOfDecodedBkpBlock * (decoded.maxBlockId + 1).toNat, rest }
    (decoded.maxBlockId + 1).toNat) empty
  have references := copied.references
  cases saveXlogMeta with
  | false | true => exact ⟨{ references with }, copied.mainDataLen, copied.mainData⟩

end Fragments

end PolarDB.Xlog
