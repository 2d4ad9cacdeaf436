import PolarDB.Lib.Snoc
import PolarDB.Xlog.DecodeSpec

/-!
# What the assembly writes

The scratch buffer holds the bytes of valid, linked block headers, and the chunks behind
it have the lengths that these headers announce. From this follows what the decoder
makes of an assembled record.
-/

namespace PolarDB.Xlog

open List Lib.Bytes Lib.Snoc

/-- The registered data as the registration functions leave it: the data of a block is
limited to 65535 bytes, and block ids to `XLR_MAX_BLOCK_ID`. -/
structure Registered.WellFormed (regs : Registered) : Prop where
  buffers_le : regs.buffers.length ≤ 33
  rdataLen : ∀ regbuf ∈ regs.buffers, regbuf.rdataLen = chainLen regbuf.rdata
  rdataLen_lt : ∀ regbuf ∈ regs.buffers, regbuf.rdataLen < 2 ^ 16

section Flags

section
variable (hasHole apply : Bool) (compressed : Option CompressionMethod)

theorem image_info_has_hole : (imageInfo hasHole apply compressed &&& bkpimageHasHole ≠ 0) ↔
    hasHole = true := by
  cases hasHole <;> cases apply <;> (cases compressed with
    | none => decide
    | some method => cases method <;> decide)

theorem image_info_compressed : bkpimageCompressed (imageInfo hasHole apply compressed) =
    compressed.isSome := by
  cases hasHole <;> cases apply <;> (cases compressed with
    | none => rfl
    | some method => cases method <;> rfl)

end

variable (forkno : ForkNumber) (willInit hasImage hasData samerel : Bool)

theorem fork_flags_bits : let flags := forkFlags forkno willInit hasImage hasData samerel
    (flags &&& bkpblockHasData ≠ 0 ↔ hasData = true) ∧
    (flags &&& bkpblockHasImage ≠ 0 ↔ hasImage = true) ∧
      (flags &&& bkpblockSameRel ≠ 0 ↔ samerel = true) := by
  cases forkno <;> cases willInit <;> cases hasImage <;> cases hasData <;> cases samerel <;> decide

end Flags

section Blocks
variable {ctx : InsertContext}

theorem page_hole_spec (regbuf : RegisteredBuffer) :
    ((pageHole regbuf).1 ≠ 0 ↔ (pageHole regbuf).2 ≠ 0) ∧
    (pageHole regbuf).1 + (pageHole regbuf).2 ≤ blckSz := by
  rw [pageHole]
  split_ifs with hole
  · have header : pdLower regbuf.page ≥ 24 := hole.2.1
    constructor
    · omega
    · omega
  · exact ⟨Iff.rfl, Nat.zero_le _⟩

theorem compress_short {page : Nat → UInt8} {holeOffset holeLength : Nat}
    {method : CompressionMethod} {dest : List UInt8}
    (packed : xLogCompressBackupBlock ctx page holeOffset holeLength = some (method, dest)) :
    dest.length < blckSz - holeLength := by
  unfold xLogCompressBackupBlock at packed
  cases enabled : ctx.walCompression with
  | none =>
    rw [enabled] at packed
    cases packed
  | some =>
    rw [enabled] at packed
    dsimp only at packed
    split at packed
    · cases packed
    · split_ifs at packed with short
      all_goals
        simp only [Option.some.injEq, Prod.mk.injEq] at packed
        rw [← packed.2]
        omega

theorem block_image_valid (regbuf : RegisteredBuffer) (backup : Bool) :
      (blockImage ctx regbuf backup).1.Valid ∧ chainLen (blockImage ctx regbuf backup).2 =
      (blockImage ctx regbuf backup).1.length := by
  obtain ⟨offset, inside⟩ := page_hole_spec regbuf
  unfold blockImage
  generalize pageHole regbuf = hole at *
  obtain ⟨holeOffset, holeLength⟩ := hole
  dsimp only at *
  cases packed : xLogCompressBackupBlock ctx regbuf.page holeOffset holeLength with
  | some res =>
    have short : res.2.length < blckSz - holeLength := compress_short packed
    constructor
    · constructor
      · exact short.le.trans (Nat.sub_le _ _)
      · exact inside
      · rw [image_info_has_hole]
        exact decide_eq_true_iff
      · exact image_info_compressed _ _ _
      · exact offset
      · intro _
        exact short
      · intro plain
        exact Bool.noConfusion plain
    · simp [chainLen, XLogRecData.ofBytes]
  | none =>
    constructor
    · constructor
      · exact Nat.sub_le _ _
      · exact inside
      · rw [image_info_has_hole]
        exact decide_eq_true_iff
      · exact image_info_compressed _ _ _
      · exact offset
      · intro packed
        exact Bool.noConfusion packed
      · intro _
        rfl
    · split_ifs with whole
      · simp [chainLen, whole]
      · simp only [chainLen, map_cons, map_nil, sum_cons, sum_nil]
        omega

theorem linked_snoc {header : BlockHeader} (headers : List BlockHeader) :
    ∀ {maxBlockId : Int} {previous : Option RelFileNode}, Linked maxBlockId previous headers →
      maxBlockId < (header.id.toNat : Int) →
      (∀ earlier ∈ headers, earlier.id.toNat < header.id.toNat) →
      (header.samerel = true → headers.foldl (fun _ earlier => some earlier.rnode) previous =
        some header.rnode) → Linked maxBlockId previous (headers ++ [header]) := by
  induction headers with
  | nil =>
    intro maxBlockId previous _ order _ same
    exact ⟨order, same, trivial⟩
  | cons first _ ih =>
    intro _ _ linked _ below same
    refine ⟨linked.1, linked.2.1, ih linked.2.2 ?_ ?_ same⟩
    · exact Int.ofNat_lt.mpr (below first mem_cons_self)
    · exact fun earlier mem => below earlier (mem_cons_of_mem _ mem)

/-- The loop over the registered buffers before the buffer `next`. -/
structure Assembled (assembly : Assembly) (headers : List BlockHeader) (next : Nat) : Prop where
  scratch : assembly.scratch = headers.flatMap BlockHeader.bytes
  valid : ∀ header ∈ headers, header.Valid
  linked : Linked (-1) none headers
  previous : assembly.prevRegbuf = headers.foldl (fun _ earlier => some earlier.rnode) none
  below : ∀ header ∈ headers, header.id.toNat < next
  chain : chainLen assembly.chain = payloadTotal headers
  total : assembly.totalLen = payloadTotal headers

theorem payload_total_snoc (headers : List BlockHeader) (header : BlockHeader) :
    payloadTotal (headers ++ [header]) = payloadTotal headers + header.payloadLen := by
  simp [payloadTotal]

theorem chain_len_append (first second : List XLogRecData) :
    chainLen (first ++ second) = chainLen first + chainLen second := by
  simp [chainLen]

variable {regbuf : RegisteredBuffer}
variable {prevRegbuf : Option RelFileNode}

theorem block_header_valid {info : UInt8} {blockId : Nat} (small : blockId ≤ 32)
    (short : regbuf.rdataLen < 2 ^ 16) :
    (blockHeader ctx info prevRegbuf blockId regbuf).Valid := by
  constructor
  · change UInt8.ofNat blockId ≤ UInt8.ofNat 32
    rw [UInt8.le_iff_toNat_le, UInt8.toNat_ofNat', UInt8.toNat_ofNat']
    omega
  · dsimp only [blockHeader]
    split_ifs <;> omega
  · dsimp only [blockHeader]
    rw [(fork_flags_bits ..).1]
    unfold needsData
    split_ifs <;> simp_all
  · dsimp only [blockHeader, includedImage]
    rw [(fork_flags_bits ..).2.1, Option.isSome_map]
    split_ifs with included
    · simp [included]
    · simp [included]
  · exact (fork_flags_bits ..).2.2
  · intro _ found
    dsimp only [blockHeader, includedImage] at found
    split_ifs at found with included
    · rw [Option.map_some, Option.some.injEq] at found
      rw [← found]
      exact (block_image_valid regbuf _).1
    · cases found

theorem block_header_id {info : UInt8} {blockId : Nat} (small : blockId ≤ 32) :
    (blockHeader ctx info prevRegbuf blockId regbuf).id.toNat = blockId := by
  change (UInt8.ofNat blockId).toNat = blockId
  rw [UInt8.toNat_ofNat', Nat.mod_eq_of_lt (by omega)]

section
variable (ctx : InsertContext) (info : UInt8)

theorem block_payload_len (prevRegbuf : Option RelFileNode) (blockId : Nat)
    (sum : regbuf.rdataLen = chainLen regbuf.rdata) :
    chainLen (((includedImage ctx info regbuf).map Prod.snd).getD []) +
        chainLen (if needsData regbuf (needsBackup ctx regbuf) then regbuf.rdata else []) =
      (blockHeader ctx info prevRegbuf blockId regbuf).payloadLen ∧
    ((includedImage ctx info regbuf).map fun made => made.1.length).getD 0 +
        (if needsData regbuf (needsBackup ctx regbuf) then regbuf.rdataLen else 0) =
      (blockHeader ctx info prevRegbuf blockId regbuf).payloadLen := by
  have data : chainLen (if needsData regbuf (needsBackup ctx regbuf) then regbuf.rdata else []) =
      if needsData regbuf (needsBackup ctx regbuf) then regbuf.rdataLen else 0 := by
    split_ifs
    · exact sum.symm
    · rfl
  rw [data, BlockHeader.payloadLen]
  dsimp only [blockHeader]
  cases included : includedImage ctx info regbuf with
  | none =>
    constructor
    · exact add_comm _ _
    · exact add_comm _ _
  | some made =>
    have length : chainLen made.2 = made.1.length := by
      rw [includedImage] at included
      split_ifs at included
      rw [Option.some.injEq] at included
      rw [← included]
      exact (block_image_valid regbuf _).2
    constructor
    · change chainLen made.2 + _ = _ + made.1.length
      rw [length, add_comm]
    · exact add_comm _ _

theorem Assembled.step {assembly : Assembly} {headers : List BlockHeader} {next : Nat}
    (assembled : Assembled assembly headers next) (small : next ≤ 32)
    (sum : regbuf.rdataLen = chainLen regbuf.rdata) (short : regbuf.rdataLen < 2 ^ 16) :
    ∃ headers, Assembled (assembleBlock ctx info assembly next regbuf) headers (next + 1) := by
  cases used : regbuf.inUse with
  | false =>
    refine ⟨headers, ?_⟩
    rw [assembleBlock, used]
    exact { assembled with
        below := fun header mem => Nat.lt_succ_of_lt (assembled.below header mem) }
  | true =>
    have payload := block_payload_len ctx info assembly.prevRegbuf next sum
    have id : (blockHeader ctx info assembly.prevRegbuf next regbuf).id.toNat = next :=
      block_header_id small
    refine ⟨headers ++ [blockHeader ctx info assembly.prevRegbuf next regbuf], ?_⟩
    rw [assembleBlock, used]
    simp only [Bool.not_true, Bool.false_eq_true, if_false]
    constructor
    · dsimp only
      rw [assembled.scratch, flatMap_append, flatMap_cons, flatMap_nil, append_nil]
    · exact forall_mem_snoc.mpr ⟨assembled.valid, block_header_valid small short⟩
    · apply linked_snoc headers assembled.linked
      · omega
      · intro earlier mem
        rw [id]
        exact assembled.below earlier mem
      · intro same
        rw [← assembled.previous]
        exact of_decide_eq_true same
    · rw [foldl_append]
      rfl
    · refine forall_mem_snoc.mpr
        ⟨fun header earlier => Nat.lt_succ_of_lt (assembled.below header earlier), ?_⟩
      rw [id]
      exact lt_add_one _
    · dsimp only
      rw [chain_len_append, chain_len_append, assembled.chain, payload_total_snoc, ← payload.1,
        add_assoc]
    · rw [assembled.total, payload_total_snoc, ← payload.2, add_assoc]

theorem Assembled.run (buffers : List RegisteredBuffer) :
    ∀ {assembly : Assembly} {headers : List BlockHeader} {next : Nat}, Assembled assembly
      headers next → next + buffers.length ≤ 33 →
      (∀ regbuf ∈ buffers, regbuf.rdataLen = chainLen regbuf.rdata) →
      (∀ regbuf ∈ buffers, regbuf.rdataLen < 2 ^ 16) →
      ∃ headers last, Assembled (assembleBlocks ctx info assembly next buffers) headers last := by
  induction buffers with
  | nil => intro assembly headers next assembled _ _ _; exact ⟨headers, next, assembled⟩
  | cons regbuf _ ih =>
    intro _ _ _ assembled small sum short
    rw [length_cons] at small
    obtain ⟨_, stepped⟩ := assembled.step ctx info (by omega)
      (sum regbuf mem_cons_self) (short regbuf mem_cons_self)
    exact ih stepped (by omega) (fun other mem => sum other (mem_cons_of_mem _ mem))
      (fun other mem => short other (mem_cons_of_mem _ mem))

end

end Blocks

section Record
variable {ctx : InsertContext} {regs : Registered}

/-- The layout of an assembled record: the block headers in the scratch buffer, the chunks
of the blocks and the main data. -/
structure Layout (ctx : InsertContext) (regs : Registered) (record : AssembledRecord)
    (headers : List BlockHeader) (blocks : List XLogRecData) : Prop where
  scratch : record.scratch = headers.flatMap BlockHeader.bytes ++
    (originHeader ctx ++ (topXidHeader ctx ++ mainDataHeader regs.mainrdataLen))
  valid : ∀ header ∈ headers, header.Valid
  linked : Linked (-1) none headers
  blocksLen : chainLen blocks = payloadTotal headers
  chain : chainBytes record.chain = chainBytes blocks ++ chainBytes regs.mainrdata

def assembledLen (ctx : InsertContext) (regs : Registered) (rmid info : UInt8) : Nat :=
  sizeOfXLogRecord + (xLogRecordAssemble ctx regs rmid info).scratch.length +
    chainLen (xLogRecordAssemble ctx regs rmid info).chain

theorem chain_bytes_append (first second : List XLogRecData) :
    chainBytes (first ++ second) = chainBytes first ++ chainBytes second := flatMap_append

theorem chain_bytes_empty {chain : List XLogRecData} (empty : chainLen chain = 0) :
    chainBytes chain = [] := by
  rw [← length_eq_zero_iff, length_chain_bytes, empty]

theorem assemble_layout (ctx : InsertContext) (rmid info : UInt8) (formed : regs.WellFormed) :
    ∃ headers blocks, Layout ctx regs (xLogRecordAssemble ctx regs rmid info) headers blocks ∧
      (xLogRecordAssemble ctx regs rmid info).header.xlTotLen = UInt32.ofNat
      (assembledLen ctx regs rmid info) := by
  have empty : Assembled Assembly.empty [] 0 :=
    { scratch := rfl, valid := nofun, linked := trivial,
      previous := rfl, below := nofun, chain := rfl, total := rfl }
  obtain ⟨headers, _, assembled⟩ := Assembled.run ctx
    (if ctx.walConsistencyChecking rmid then info ||| xlrCheckConsistency else info)
    regs.buffers empty (by have := formed.buffers_le; omega) formed.rdataLen formed.rdataLen_lt
  have main : chainBytes (if regs.mainrdataLen > 0 then regs.mainrdata else []) =
    chainBytes regs.mainrdata := by
    split_ifs with positive
    · rfl
    · rw [chain_bytes_empty
        (show chainLen regs.mainrdata = 0 by rw [Registered.mainrdataLen] at positive; omega)]
      rfl
  refine ⟨headers, _, ⟨?_, assembled.valid, assembled.linked, assembled.chain, ?_⟩, ?_⟩
  · simp only [xLogRecordAssemble, append_assoc]
    rw [assembled.scratch]
  · simp only [xLogRecordAssemble]
    rw [chain_bytes_append, main]
  · have mainLen : chainLen (if regs.mainrdataLen > 0 then regs.mainrdata else []) =
      regs.mainrdataLen := by
      rw [← length_chain_bytes, main, length_chain_bytes]
      rfl
    apply congrArg UInt32.ofNat
    simp only [assembledLen, xLogRecordAssemble]
    rw [chain_len_append, mainLen, assembled.total, assembled.chain]
    omega

/-- Two scans that differ in the origin and the top-level transaction only. -/
structure SameScan (left right : HeaderScan) : Prop where
  datatotal : left.datatotal = right.datatotal
  decoded : left.decoded =
    { right.decoded with
        recordOrigin := left.decoded.recordOrigin, toplevelXid := left.decoded.toplevelXid }

variable {rounds : Nat} {headers : List BlockHeader} {blocks : List XLogRecData}
  {record : AssembledRecord}

/-- An item that may be missing and changes nothing else of the scan. -/
theorem decode_item (scan : HeaderScan) (header rest : List UInt8) {next : HeaderScan}
    {item : List UInt8} {included : Prop} [Decidable included]
    (isHeader : header = if included then item else [])
    (reads : Reads (decodeHeader scan) item (next, false)) (same : SameScan next scan)
    (nonempty : 0 < item.length) (enough : header.length ≤ rounds)
    (room : scan.datatotal ≤ rest.length) :
    ∃ next fewer, decodeHeaders rounds scan (header ++ rest) = decodeHeaders fewer next rest ∧
      SameScan next scan ∧ rounds ≤ fewer + header.length := by
  subst isHeader
  split_ifs at * with isIncluded
  · obtain ⟨fewer, rfl⟩ : ∃ fewer, rounds = fewer + 1 := ⟨rounds - 1, by omega⟩
    refine ⟨_, fewer, decode_headers_next ?_ reads, same, by omega⟩
    rw [length_append]
    omega
  · exact ⟨scan, rounds, rfl, ⟨rfl, rfl⟩, Nat.le_add_right _ _⟩

theorem main_data_header_positive {len : Nat} (positive : len > 0) :
    0 < (mainDataHeader len).length := by
  rw [mainDataHeader, if_pos positive]
  split_ifs <;> simp

theorem decode_main_data {scan : HeaderScan} {rest : List UInt8} (len : Nat)
    (enough : (mainDataHeader len).length ≤ rounds) (exactly : rest.length = scan.datatotal + len)
    (bound : rest.length < 2 ^ 32) (unset : scan.decoded.mainDataLen = 0) :
    decodeHeaders rounds scan (mainDataHeader len ++ rest) =
      .ok ({ scan with
        decoded := { scan.decoded with mainDataLen := len }, datatotal := rest.length }, rest) := by
  by_cases positive : len > 0
  · have width := main_data_header_positive positive
    obtain ⟨fewer, rfl⟩ : ∃ fewer, rounds = fewer + 1 := ⟨rounds - 1, by omega⟩
    have more : scan.datatotal < (mainDataHeader len ++ rest).length := by
      rw [length_append]
      omega
    have total : (scan.datatotal + len) % 2 ^ 32 = rest.length := by
      rw [← exactly, Nat.mod_eq_of_lt bound]
    rw [decode_headers_last more (reads_main_data positive (by omega)),
      HeaderScan.putMainData, total]
  · have zero : len = 0 := by omega
    subst zero
    have none : mainDataHeader 0 = [] := rfl
    rw [none, nil_append, decode_headers_done (by omega)]
    rw [← unset, show rest.length = scan.datatotal by omega]

theorem SameScan.trans {first second third : HeaderScan} (left : SameScan first second)
    (right : SameScan second third) : SameScan first third := by
  constructor
  · rw [left.datatotal, right.datatotal]
  · rw [left.decoded, right.decoded]

theorem headers_length_le (headers : List BlockHeader) :
    headers.length ≤ (headers.flatMap BlockHeader.bytes).length := by
  induction headers with
  | nil => exact Nat.zero_le _
  | cons header _ ih =>
    have positive := bytes_positive header
    rw [flatMap_cons, length_append, length_cons]
    omega

theorem decode_scratch (layout : Layout ctx regs record headers blocks)
    (small : chainLen record.chain < 2 ^ 32) {decoded : DecodedXLogRecord}
    (first : decoded.maxBlockId = -1) (unset : decoded.mainDataLen = 0) : ∃ scan : HeaderScan,
      decodeHeaders (record.scratch ++ chainBytes record.chain).length
        { decoded, rnode := none, datatotal := 0 }
        (record.scratch ++ chainBytes record.chain) = .ok (scan, chainBytes record.chain) ∧
      scan.datatotal = chainLen record.chain ∧
      scan.decoded =
        { decoded.putHeaders headers with
          recordOrigin := scan.decoded.recordOrigin, toplevelXid := scan.decoded.toplevelXid,
          mainDataLen := regs.mainrdataLen } := by
  have chainLength : chainLen record.chain = payloadTotal headers + regs.mainrdataLen := by
    rw [← length_chain_bytes, layout.chain, length_append, length_chain_bytes, length_chain_bytes,
      layout.blocksLen]
    rfl
  have few := headers_length_le headers
  have total := congrArg List.length layout.scratch
  obtain ⟨rounds, count⟩ : ∃ rounds, (record.scratch ++ chainBytes record.chain).length =
    headers.length + rounds :=
    Nat.exists_eq_add_of_le (by simp only [length_append] at *; omega)
  have enough : (originHeader ctx).length + (topXidHeader ctx).length +
      (mainDataHeader regs.mainrdataLen).length ≤ rounds := by
    simp only [length_append] at *
    omega
  obtain ⟨afterBlocks, blocksRun, blocksDecoded, blocksTotal⟩ := decode_headers_blocks
    (originHeader ctx ++
      (topXidHeader ctx ++ (mainDataHeader regs.mainrdataLen ++ chainBytes record.chain)))
    rounds headers { decoded, rnode := none, datatotal := 0 } layout.valid
      (by rw [first]; exact layout.linked)
    (by dsimp only; omega) (by simp only [length_append, length_chain_bytes]; omega)
  dsimp only at blocksDecoded blocksTotal
  obtain ⟨afterOrigin, fewer, originRun, originSame, _⟩ :=
    decode_item afterBlocks (originHeader ctx)
    (topXidHeader ctx ++ (mainDataHeader regs.mainrdataLen ++ chainBytes record.chain)) rfl
    (reads_origin ctx.sessionOrigin) ⟨rfl, rfl⟩ (by simp)
    (show (originHeader ctx).length ≤ rounds by omega)
    (by simp only [length_append, length_chain_bytes]; omega)
  have originTotal := originSame.datatotal
  obtain ⟨afterXid, least, xidRun, xidSame, _⟩ := decode_item afterOrigin (topXidHeader ctx)
    (mainDataHeader regs.mainrdataLen ++ chainBytes record.chain) rfl
    (reads_toplevel_xid ctx.topXid) ⟨rfl, rfl⟩ (by simp)
    (show (topXidHeader ctx).length ≤ fewer by omega)
    (by simp only [length_append, length_chain_bytes]; omega)
  have xidTotal := xidSame.datatotal
  have same := xidSame.trans originSame
  have stillUnset : afterXid.decoded.mainDataLen = 0 := by
    rw [same.decoded, blocksDecoded, put_headers_fields]
    exact unset
  have mainRun : decodeHeaders least afterXid
      (mainDataHeader regs.mainrdataLen ++ chainBytes record.chain) = _ :=
    decode_main_data regs.mainrdataLen (by omega) (by rw [length_chain_bytes]; omega)
      (by rw [length_chain_bytes]; exact small) stillUnset
  refine ⟨{ afterXid with
    decoded := { afterXid.decoded with mainDataLen := regs.mainrdataLen }
    datatotal := (chainBytes record.chain).length }, ?_, ?_, ?_⟩
  · rw [count]
    nth_rewrite 1 [layout.scratch]
    simp only [append_assoc]
    rw [blocksRun, originRun, xidRun, mainRun]
  · exact length_chain_bytes _
  · rw [same.decoded, blocksDecoded]

theorem decode_layout (layout : Layout ctx regs record headers blocks) {header : XLogRecord}
    (length : header.xlTotLen.toNat = sizeOfXLogRecord + record.scratch.length +
      chainLen record.chain) (saveXlogMeta : Bool) (memory : DecodedXLogRecord) (lsn : UInt64) :
    ∃ decoded, decodeXLogRecord saveXlogMeta memory
        (header.bytes ++ (record.scratch ++ chainBytes record.chain)) lsn = .ok decoded ∧
      SameReferences decoded ((memory.start header lsn).putHeaders headers) ∧
      decoded.mainDataLen = regs.mainrdataLen ∧
      decoded.mainDataBytes = chainBytes regs.mainrdata := by
  have small := header.xlTotLen.toNat_lt
  have headerLength := header.length_bytes
  have body : ((header.bytes ++ (record.scratch ++ chainBytes record.chain)).take
      header.xlTotLen.toNat).drop sizeOfXLogRecord = record.scratch ++ chainBytes record.chain := by
    rw [take_of_length_le (by simp only [length_append, length_chain_bytes]; omega),
      drop_left' headerLength]
  obtain ⟨scan, run, total, fields⟩ := decode_scratch layout (by omega)
    (show (memory.start header lsn).maxBlockId = -1 from rfl) rfl
  have read : readHeader (header.bytes ++ (record.scratch ++ chainBytes record.chain)) =
    .ok (header, _) :=
    reads_header header _
  have base := put_headers_fields headers (memory.start header lsn)
  have noMain : scan.decoded.mainData = none := by
    rw [fields, base]
    rfl
  have payload : scan.decoded.payload = payloadTotal headers := by
    have sum : ((memory.start header lsn).putHeaders headers).payload = 0 + payloadTotal headers :=
      put_headers_payload headers layout.valid (show (-1 : Int) ≤ -1 from le_rfl) layout.linked
    rw [zero_add] at sum
    rw [← sum, fields]
    rfl
  have decodedLen : scan.decoded.mainDataLen = regs.mainrdataLen := by rw [fields]
  obtain ⟨references, mainLen, mainData⟩ := copy_fragments_spec saveXlogMeta
    { scan.decoded with
      polarXlogMetaSize := header.xlTotLen.toNat - (chainBytes record.chain).length }
    (header.bytes ++ (record.scratch ++ chainBytes record.chain)) (chainBytes record.chain) noMain
  refine ⟨_, ?_, references.trans ?_, mainLen.trans decodedLen, ?_⟩
  · unfold decodeXLogRecord
    rw [read]
    dsimp only [bind, Except.bind]
    rw [body, run]
    dsimp only
    rw [if_neg (by rw [total, length_chain_bytes]; exact not_not.mpr rfl)]
    rfl
  · constructor
    · rw [fields]
    · rw [fields]
    · intro _ _
      rw [fields]
  · have drop : ((chainBytes record.chain).drop scan.decoded.payload).take
        scan.decoded.mainDataLen = chainBytes regs.mainrdata := by
      rw [payload, decodedLen, layout.chain, ← layout.blocksLen, ← length_chain_bytes, drop_left]
      exact take_of_length_le (length_chain_bytes _).le
    rw [← drop]
    exact mainData

end Record

end PolarDB.Xlog
