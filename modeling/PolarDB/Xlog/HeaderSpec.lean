import PolarDB.Xlog.Decode

/-!
# Block headers and what a decoder makes of them

`BlockHeader.Valid` is what the assembly guarantees for the header of one block and
`Linked` for the sequence of them. A decoder that meets the bytes of such a header
consumes exactly these and returns `BlockHeader.decoded`.
-/

namespace PolarDB.Xlog

open Lib.Bytes

structure BlockImage.Valid (image : BlockImage) : Prop where
  length_le : image.length ≤ blckSz
  hole_le : image.holeOffset + image.holeLength ≤ blckSz
  hasHole : (image.bimgInfo &&& bkpimageHasHole ≠ 0) ↔ image.holeLength ≠ 0
  compressed : bkpimageCompressed image.bimgInfo = image.isCompressed
  offset : image.holeOffset ≠ 0 ↔ image.holeLength ≠ 0
  packed : image.isCompressed = true → image.length < blckSz - image.holeLength
  plain : image.isCompressed = false → image.length = blckSz - image.holeLength

structure BlockHeader.Valid (header : BlockHeader) : Prop where
  id_le : header.id ≤ xlrMaxBlockId
  dataLength_lt : header.dataLength < 2 ^ 16
  hasData : (header.forkFlags &&& bkpblockHasData ≠ 0) ↔ header.dataLength ≠ 0
  hasImage : (header.forkFlags &&& bkpblockHasImage ≠ 0) ↔ header.image.isSome
  sameRel : (header.forkFlags &&& bkpblockSameRel ≠ 0) ↔ header.samerel = true
  image : ∀ image, header.image = some image → image.Valid

/-- Ids increase, and a header that omits its relation has the one of its predecessor. -/
def Linked : Int → Option RelFileNode → List BlockHeader → Prop
  | _, _, [] => True
  | maxBlockId, previous, header :: rest =>
    maxBlockId < (header.id.toNat : Int) ∧ (header.samerel = true → previous = some header.rnode) ∧
      Linked header.id.toNat (some header.rnode) rest

def BlockImage.decoded (image : BlockImage) (blk : DecodedBkpBlock) : DecodedBkpBlock :=
  { blk with
    applyImage := image.bimgInfo &&& bkpimageApply != 0
    holeOffset := image.holeOffset
    holeLength := image.holeLength
    bimgLen := image.length
    bimgInfo := image.bimgInfo }

def BlockHeader.decodedFlags (header : BlockHeader) (blk : DecodedBkpBlock) : DecodedBkpBlock :=
  { blk with
    inUse := true
    applyImage := false
    flags := header.forkFlags
    forknum := header.forkFlags &&& bkpblockForkMask
    hasImage := header.forkFlags &&& bkpblockHasImage != 0
    hasData := header.forkFlags &&& bkpblockHasData != 0
    dataLen := header.dataLength }

/-- The block a decoder stores, on top of what the memory held. -/
def BlockHeader.decoded (header : BlockHeader) (blk : DecodedBkpBlock) : DecodedBkpBlock :=
  let blk := header.decodedFlags blk
  let blk := match header.image with
    | none => blk
    | some image => image.decoded blk
  { blk with rnode := header.rnode, blkno := header.block }

section Checks

variable {image : BlockImage}

section
variable (valid : image.Valid)
include valid

theorem BlockImage.Valid.hole_complete : (image.bimgInfo &&& bkpimageHasHole != 0 &&
      (image.holeOffset == 0 || image.holeLength == 0 || image.length == blckSz)) = false := by
  have hole := valid.hasHole
  have offset := valid.offset
  have short : image.holeLength ≠ 0 → image.length ≠ blckSz := by
    intro positive
    have inside := valid.hole_le
    cases packed : image.isCompressed with
    | true => have := valid.packed packed; omega
    | false => have := valid.plain packed; omega
  by_cases positive : image.holeLength = 0
  · have clear : image.bimgInfo &&& bkpimageHasHole = 0 := by
      by_contra set
      exact hole.mp set positive
    rw [clear]
    rfl
  · simp [positive, short positive, offset.mpr positive]

theorem BlockImage.Valid.no_stray_hole :
    (!(image.bimgInfo &&& bkpimageHasHole != 0) &&
      (image.holeOffset != 0 || image.holeLength != 0)) = false := by
  by_cases positive : image.holeLength = 0
  · have offset : image.holeOffset = 0 := by
      by_contra set
      exact valid.offset.mp set positive
    simp [positive, offset]
  · simp [valid.hasHole.mpr positive]

theorem BlockImage.Valid.packed_short :
    (bkpimageCompressed image.bimgInfo && image.length == blckSz) = false := by
  rw [valid.compressed]
  cases packed : image.isCompressed with
  | true =>
    have less := valid.packed packed
    have apart : image.length ≠ blckSz := by omega
    simp [apart]
  | false => rfl

theorem BlockImage.Valid.plain_full :
    (!(image.bimgInfo &&& bkpimageHasHole != 0) && !bkpimageCompressed image.bimgInfo &&
      image.length != blckSz) = false := by
  rw [valid.compressed]
  by_cases positive : image.holeLength = 0
  · cases packed : image.isCompressed with
    | true => simp
    | false =>
      have full : image.length = blckSz := by
        rw [valid.plain packed, positive, Nat.sub_zero]
      simp [full]
  · simp [valid.hasHole.mpr positive]

end

theorem BlockHeader.Valid.data_present {header : BlockHeader} (valid : header.Valid) :
    (header.forkFlags &&& bkpblockHasData != 0 && header.dataLength == 0) = false := by
  by_cases empty : header.dataLength = 0
  · have clear : header.forkFlags &&& bkpblockHasData = 0 := by
      by_contra set
      exact valid.hasData.mp set empty
    rw [clear]
    rfl
  · simp [empty]

theorem BlockHeader.Valid.no_stray_data {header : BlockHeader} (valid : header.Valid) :
    (!(header.forkFlags &&& bkpblockHasData != 0) && header.dataLength != 0) = false := by
  by_cases empty : header.dataLength = 0
  · simp [empty]
  · simp [valid.hasData.mpr empty]

end Checks

section Reads
variable {short : DecodeError}

theorem reads_check {refused : Bool} {error : DecodeError} (accepted : refused = false) :
    Reads (check refused error) [] () := by
  rw [accepted]
  exact reads_pure ()

theorem reads_rel_file_node (rnode : RelFileNode) :
    Reads (readRelFileNode short) rnode.bytes rnode := by
  apply Reads.bind (reads_u32 rnode.spcNode)
  apply Reads.bind (reads_u32 rnode.dbNode)
  exact .last (reads_u32 rnode.relNode) (reads_pure _)

theorem reads_header (record : XLogRecord) : Reads readHeader record.bytes record := by
  apply Reads.bind (reads_u32 record.xlTotLen)
  apply Reads.bind (reads_u32 record.xlXid)
  apply Reads.bind (reads_u64 record.xlPrev)
  apply Reads.bind (reads_u8 record.xlInfo)
  apply Reads.bind (reads_u8 record.xlRmid)
  apply Reads.bind (reads_u16 0)
  exact .last (reads_u32 record.xlCrc) (reads_pure _)

theorem reads_hole_length {image : BlockImage} (valid : image.Valid) :
    Reads (readHoleLength short image.bimgInfo image.length)
      (if image.holeLength ≠ 0 ∧ image.isCompressed then leBytes 2 image.holeLength else [])
      image.holeLength := by
  have bound : image.holeLength < 256 ^ 2 := by
    have := valid.hole_le
    rw [blckSz] at this
    omega
  rw [readHoleLength, valid.compressed]
  cases packed : image.isCompressed with
  | true =>
    rw [if_pos rfl]
    by_cases hole : image.holeLength ≠ 0
    · rw [if_pos (valid.hasHole.mpr hole), if_pos ⟨hole, rfl⟩]
      exact reads_nat bound
    · rw [if_neg (fun flag => hole (valid.hasHole.mp flag)), if_neg (fun both => hole both.1),
        not_not.mp hole]
      exact reads_pure 0
  | false =>
    have length := valid.plain packed
    have inside := valid.hole_le
    have computed : (2 ^ 16 + blckSz - image.length) % 2 ^ 16 = image.holeLength := by
      omega
    rw [if_neg (by decide), if_neg (fun both => absurd both.2 (by decide)), computed]
    exact reads_pure _

theorem reads_image {image : BlockImage} (valid : image.Valid) (blk : DecodedBkpBlock) :
    Reads (decodeImage short blk) image.bytes (image.decoded blk) := by
  have lengthBound : image.length < 256 ^ 2 := valid.length_le.trans_lt (by decide)
  have offsetBound : image.holeOffset < 256 ^ 2 := by
    have := valid.hole_le
    rw [blckSz] at this
    omega
  apply Reads.bind (reads_nat lengthBound)
  apply Reads.bind (reads_nat offsetBound)
  apply Reads.bind (reads_u8 image.bimgInfo)
  apply Reads.last (reads_hole_length valid)
  apply Reads.skip (reads_check valid.hole_complete)
  apply Reads.skip (reads_check valid.no_stray_hole)
  apply Reads.skip (reads_check valid.packed_short)
  apply Reads.skip (reads_check valid.plain_full)
  exact reads_pure _

variable {header : BlockHeader}
variable {previous : Option RelFileNode}

theorem reads_rnode (valid : header.Valid)
    (linked : header.samerel = true → previous = some header.rnode) :
    Reads (readRnode short header.forkFlags previous)
    (if header.samerel then [] else header.rnode.bytes)
      header.rnode := by
  unfold readRnode
  cases same : header.samerel with
  | true =>
    rw [if_neg (valid.sameRel.mpr same), if_pos rfl, linked same]
    exact reads_pure _
  | false =>
    have clear : header.forkFlags &&& bkpblockSameRel = 0 := by
      by_contra set
      rw [valid.sameRel.mp set] at same
      cases same
    rw [if_pos clear, if_neg (by decide)]
    exact reads_rel_file_node header.rnode

theorem reads_image_if (valid : header.Valid) (blk : DecodedBkpBlock) :
    Reads (decodeImageIf short (header.forkFlags &&& bkpblockHasImage != 0) blk)
    (match header.image with
        | none => []
        | some image => image.bytes)
      (match header.image with
        | none => blk
        | some image => image.decoded blk) := by
  unfold decodeImageIf
  cases found : header.image with
  | none =>
    have clear : ¬ (header.forkFlags &&& bkpblockHasImage != 0) = true := by
      rw [bne_iff_ne, valid.hasImage, found]
      decide
    rw [if_neg clear]
    exact reads_pure blk
  | some image =>
    have set : (header.forkFlags &&& bkpblockHasImage != 0) = true := by
      rw [bne_iff_ne, valid.hasImage, found]
      rfl
    rw [if_pos set]
    exact reads_image (valid.image image found) blk

theorem reads_block {maxBlockId : Int} (valid : header.Valid)
    (order : maxBlockId < (header.id.toNat : Int))
    (linked : header.samerel = true → previous = some header.rnode) (blk : DecodedBkpBlock) :
    Reads (decodeBlock short maxBlockId previous header.id blk) header.body
    (header.decoded blk) := by
  simp only [BlockHeader.body, List.append_assoc]
  apply Reads.skip (reads_check (decide_eq_false (not_le.mpr order)))
  apply Reads.bind (reads_u8 header.forkFlags)
  apply Reads.bind (reads_nat valid.dataLength_lt)
  apply Reads.skip (reads_check valid.data_present)
  apply Reads.skip (reads_check valid.no_stray_data)
  apply Reads.bind (reads_image_if valid (header.decodedFlags blk))
  apply Reads.bind (reads_rnode valid linked)
  exact Reads.last (reads_u32 header.block) (reads_pure _)

end Reads

end PolarDB.Xlog
