import PolarDB.Xlog.PushExact
import PolarDB.Xlog.QueueDecode

/-!
# The round trip of a record through the queue

The headers of a packet are those of the record, so both decoders store the same block
references. The main data behind them comes back unless the length field counts the five
bytes before it.
-/

namespace PolarDB.Xlog

open List Lib.Bytes Lib.Circular RingBuf

section Rounds
variable {beyond : Nat → UInt8} {scan next : QueueScan} {item rest : List UInt8} {rounds : Nat}

def QueueScan.putHeader (scan : QueueScan) (header : BlockHeader) : QueueScan :=
  scan.putBlock header.id (header.decoded (scan.decoded.blocks header.id.toNat))

theorem queue_next (present : 0 < item.length)
    (reads : Reads (queueDecodeHeader beyond scan) item next) :
    queueDecodeHeaders beyond (rounds + 1) scan (item ++ rest) = queueDecodeHeaders beyond rounds
    next rest := by
  have some : (item ++ rest).length > 0 := by
    rw [length_append]
    omega
  rw [queueDecodeHeaders, if_pos some, reads rest]

theorem queue_done : queueDecodeHeaders beyond rounds scan [] = .ok scan := by
  cases rounds with
  | zero => rfl
  | succ => rfl

theorem queue_reads_block {header : BlockHeader} (valid : header.Valid)
    (order : scan.decoded.maxBlockId < (header.id.toNat : Int))
    (linked : header.samerel = true → scan.rnode = some header.rnode) :
    Reads (queueDecodeHeader beyond scan) header.bytes (scan.putHeader header) := by
  apply Reads.bind (reads_u8 header.id)
  rw [if_neg (ne_of_le_max valid.id_le (by decide)), if_neg (ne_of_le_max valid.id_le (by decide)),
    if_neg (ne_of_le_max valid.id_le (by decide)), if_neg (ne_of_le_max valid.id_le (by decide)),
    if_neg (ne_of_le_max valid.id_le (by decide))]
  apply Reads.skip (reads_check (by rw [decide_eq_true valid.id_le]; rfl))
  exact Reads.last (reads_block valid order linked _) (reads_pure _)

theorem queue_reads_origin (origin : UInt16) :
    Reads (queueDecodeHeader beyond scan) (u8Bytes blockIdOrigin ++ u16Bytes origin) scan := by
  apply Reads.bind (reads_u8 blockIdOrigin)
  exact Reads.last (reads_take (length_u16_bytes origin)) (reads_pure _)

theorem queue_reads_toplevel_xid (xid : UInt32) :
    Reads (queueDecodeHeader beyond scan) (u8Bytes blockIdToplevelXid ++ u32Bytes xid) scan := by
  apply Reads.bind (reads_u8 blockIdToplevelXid)
  exact Reads.last (reads_take (length_u32_bytes xid)) (reads_pure _)

theorem queue_skip_main_data (len : Nat) (present : mainDataHeader len ≠ []) :
    Reads (queueDecodeHeader beyond scan) (mainDataHeader len) scan := by
  unfold mainDataHeader at present ⊢
  split_ifs at present ⊢
  · apply Reads.bind (reads_u8 blockIdDataLong)
    exact Reads.last (reads_take (length_le_bytes 4 len)) (reads_pure _)
  · apply Reads.bind (reads_u8 blockIdDataShort)
    exact Reads.last (reads_take (length_le_bytes 1 len)) (reads_pure _)
  · exact absurd rfl present

theorem queue_skip (item rest : List UInt8) (enough : (item ++ rest).length ≤ rounds)
    (reads : item ≠ [] → Reads (queueDecodeHeader beyond scan) item scan) :
    ∃ fewer, rest.length ≤ fewer ∧
      queueDecodeHeaders beyond rounds scan (item ++ rest) = queueDecodeHeaders beyond fewer scan
      rest := by
  rw [length_append] at enough
  by_cases empty : item = []
  · exact ⟨rounds, by omega, by rw [empty, nil_append]⟩
  · have present := length_pos_iff.mpr empty
    obtain ⟨fewer, rfl⟩ : ∃ fewer, rounds = fewer + 1 := ⟨rounds - 1, by omega⟩
    exact ⟨fewer, by omega, queue_next present (reads empty)⟩

theorem queue_skip_origin (ctx : InsertContext) (present : originHeader ctx ≠ []) :
    Reads (queueDecodeHeader beyond scan) (originHeader ctx) scan := by
  unfold originHeader at present ⊢
  split_ifs at present ⊢
  · exact queue_reads_origin _
  · exact absurd rfl present

theorem queue_skip_toplevel_xid (ctx : InsertContext) (present : topXidHeader ctx ≠ []) :
    Reads (queueDecodeHeader beyond scan) (topXidHeader ctx) scan := by
  unfold topXidHeader at present ⊢
  split_ifs at present ⊢
  · exact queue_reads_toplevel_xid _
  · exact absurd rfl present

theorem queue_headers_blocks (rest : List UInt8) (rounds : Nat) (headers : List BlockHeader) :
    ∀ scan : QueueScan, (∀ header ∈ headers, header.Valid) →
      Linked scan.decoded.maxBlockId scan.rnode headers → ∃ last : QueueScan,
        queueDecodeHeaders beyond (headers.length + rounds) scan
          (headers.flatMap BlockHeader.bytes ++ rest) = queueDecodeHeaders beyond rounds last rest ∧
        last.decoded = scan.decoded.putHeaders headers ∧ last.overrun = scan.overrun := by
  induction headers with
  | nil =>
    intro scan _ _
    refine ⟨scan, ?_, rfl, rfl⟩
    rw [length_nil, zero_add]
    rfl
  | cons header _ ih =>
    intro scan valid linked
    have first : header.Valid := valid header mem_cons_self
    obtain ⟨last, run, decoded, overrun⟩ := ih (scan.putHeader header)
      (fun other mem => valid other (mem_cons_of_mem _ mem)) linked.2.2
    refine ⟨last, ?_, decoded, overrun⟩
    rw [flatMap_cons, append_assoc, length_cons, Nat.add_right_comm,
      queue_next (bytes_positive header) (queue_reads_block first linked.1 linked.2.1), run]

end Rounds

section Decode
variable {ctx : InsertContext} {regs : Registered}

def Carry.announced (regs : Registered) : Carry → Nat
  | nothing => 0
  | leading dlen => dlen
  | whole => polarReserveMainDataSize regs

/-- The bytes that the decoder takes from behind the packet. -/
def Carry.overrun (regs : Registered) (carry : Carry) : Nat :=
  carry.announced regs - (carry.data regs).length

/-- What the queue decoder makes of the main data. -/
structure Fetched (regs : Registered) (carry : Carry) (beyond : Nat → UInt8)
    (queued : DecodedXLogRecord) (overrun : Nat) : Prop where
  mainDataLen : queued.mainDataLen = carry.announced regs
  mainData : queued.mainDataBytes = carry.data regs ++ (List.range (carry.overrun regs)).map beyond
  overrun : overrun = carry.overrun regs

theorem carry_bytes_eq {carry : Carry} (present : carry ≠ .nothing) : carry.bytes regs =
      u8Bytes blockIdPolarExtra ++ (leBytes 4 (carry.announced regs) ++ carry.data regs) := by
  cases carry with
  | nothing => exact absurd rfl present
  | leading => rfl
  | whole => rfl

theorem data_le_announced (carry : Carry) : (carry.data regs).length ≤ carry.announced regs := by
  cases carry with
  | nothing => exact le_rfl
  | leading =>
    cases found : regs.mainrdataHead with
    | none => simp [Carry.data, found]
    | some => simp [Carry.data, Carry.announced, found]
  | whole =>
    rw [Carry.data, Carry.announced, length_chain_bytes, polarReserveMainDataSize, polarMainDataLen,
      Registered.mainrdataLen]
    omega

theorem announced_lt (small : polarReserveMainDataSize regs < 2 ^ 32) (header : XLogRecord) :
    header.carry.announced regs < 2 ^ 32 := by
  cases found : header.carry with
  | nothing => exact Nat.two_pow_pos 32
  | leading dlen =>
    have bound : dlen ≤ 40 := carry_leading_le found
    exact bound.trans_lt (by decide)
  | whole => exact small

theorem queue_polar_extra {beyond : Nat → UInt8} {scan : QueueScan} {len rounds : Nat}
    {data : List UInt8} (small : len < 2 ^ 32) (announced : data.length ≤ len)
    (positive : 0 < rounds) (empty : scan.decoded.mainData = none) :
    ∃ last, queueDecodeHeaders beyond rounds scan
    (u8Bytes blockIdPolarExtra ++ (leBytes 4 len ++ data)) = .ok last ∧
      SameReferences last.decoded scan.decoded ∧ last.decoded.mainDataLen = len ∧
      last.decoded.mainDataBytes = data ++ (List.range (len - data.length)).map beyond ∧
      last.overrun = scan.overrun + (len - data.length) := by
  obtain ⟨fewer, rfl⟩ : ∃ fewer, rounds = fewer + 1 := ⟨rounds - 1, by omega⟩
  have some : (u8Bytes blockIdPolarExtra ++ (leBytes 4 len ++ data)).length > 0 := by
    rw [length_append, length_u8_bytes]
    omega
  have header :
    queueDecodeHeader beyond scan (u8Bytes blockIdPolarExtra ++ (leBytes 4 len ++ data)) =
      decodePolarExtra beyond scan len data := by
    rw [queueDecodeHeader, (reads_u8 blockIdPolarExtra).then, if_neg (by decide),
      if_neg (by decide),
      if_neg (by decide), if_neg (by decide), if_pos rfl, (reads_nat small).then]
  have taken : data.take len = data := take_of_length_le announced
  have dropped : data.drop len = [] := drop_of_length_le announced
  rw [queueDecodeHeaders, if_pos some, header]
  unfold decodePolarExtra
  rw [dropped, taken, if_neg (by decide)]
  dsimp only
  rw [queue_done]
  refine ⟨_, rfl, ⟨rfl, rfl, fun _ _ => rfl⟩, rfl, ?_, rfl⟩
  by_cases present : len > 0
  · simp only [DecodedXLogRecord.mainDataBytes, if_pos present]
    rfl
  · obtain rfl : len = 0 := by omega
    obtain rfl : data = [] := length_eq_zero_iff.mp (by omega)
    simp only [DecodedXLogRecord.mainDataBytes, if_neg present, empty]
    rfl

variable {headers : List BlockHeader} {blocks : List XLogRecData} {record : AssembledRecord}

theorem queue_scratch
    (layout : Layout ctx regs record headers blocks) {beyond : Nat → UInt8} {scan : QueueScan}
    {rounds : Nat} (first : scan.decoded.maxBlockId = -1) (none : scan.rnode = none)
    {rest : List UInt8} (enough : (record.scratch ++ rest).length ≤ rounds) :
    ∃ (fewer : Nat) (last : QueueScan),
      queueDecodeHeaders beyond rounds scan (record.scratch ++ rest) = queueDecodeHeaders beyond
      fewer last rest ∧ rest.length ≤ fewer ∧ last.decoded = scan.decoded.putHeaders headers ∧
      last.overrun = scan.overrun := by
  have count := headers_length_le headers
  rw [layout.scratch] at enough ⊢
  simp only [append_assoc] at enough ⊢
  rw [length_append] at enough
  obtain ⟨others, rfl⟩ : ∃ others, rounds = headers.length + others :=
    ⟨rounds - headers.length, by omega⟩
  obtain ⟨last, run, decoded, overrun⟩ := queue_headers_blocks
    (originHeader ctx ++ (topXidHeader ctx ++ (mainDataHeader regs.mainrdataLen ++ rest))) others
    headers scan
    layout.valid (by rw [first, none]; exact layout.linked)
  have left : (originHeader ctx ++
    (topXidHeader ctx ++ (mainDataHeader regs.mainrdataLen ++ rest))).length ≤
      others := by omega
  obtain ⟨_, originLe, originRun⟩ := queue_skip (originHeader ctx) _ left (queue_skip_origin ctx)
  obtain ⟨_, xidLe, xidRun⟩ := queue_skip (topXidHeader ctx) _ originLe
    (queue_skip_toplevel_xid ctx)
  obtain ⟨fewer, mainLe, mainRun⟩ := queue_skip (mainDataHeader _) _ xidLe (queue_skip_main_data _)
  exact ⟨fewer, last, by rw [run, originRun, xidRun, mainRun], mainLe, decoded, overrun⟩

/-- The loop over a packet without its payload: the block references of the headers, then
the main data as the packet announces it. -/
theorem queue_decode_removed (layout : Layout ctx regs record headers blocks) {header : XLogRecord}
    (removed : polarXlogRemovePayload header = true)
    (small : polarReserveMainDataSize regs < 2 ^ 32)
    (saveXlogMeta : Bool) (memory : DecodedXLogRecord) (beyond : Nat → UInt8) (lsn : UInt64)
    (decodePayload : Bool) : ∃ queued overrun, polarXlogQueueDecode saveXlogMeta memory
        (header.bytes ++ (record.scratch ++ header.carry.bytes regs)) beyond lsn decodePayload =
      .ok (queued, overrun) ∧ SameReferences queued ((memory.start header lsn).putHeaders headers) ∧
      Fetched regs header.carry beyond queued overrun := by
  have read : readHeader (header.bytes ++ (record.scratch ++ header.carry.bytes regs)) =
      .ok (header, record.scratch ++ header.carry.bytes regs) := reads_header header _
  have fields := put_headers_fields headers (memory.start header lsn)
  obtain ⟨fewer, last, run, enough, decoded, overrun⟩ := @queue_scratch _ _ _ _ _ layout beyond
    { decoded := memory.start header lsn, rnode := none, overrun := 0 } _ rfl rfl _ le_rfl
  have unset : last.decoded.mainData = none := by rw [decoded, fields]; rfl
  have decode : polarXlogQueueDecode saveXlogMeta memory
      (header.bytes ++ (record.scratch ++ header.carry.bytes regs)) beyond lsn decodePayload =
        (queueDecodeHeaders beyond fewer last (header.carry.bytes regs)).map
          fun scan => (scan.decoded, scan.overrun) := by
    rw [← run]
    unfold polarXlogQueueDecode
    rw [read]
    change (if polarXlogRemovePayload header = true then _ else _) = _
    rw [if_pos removed]
    cases queueDecodeHeaders beyond _ _ (record.scratch ++ header.carry.bytes regs) <;> rfl
  rw [decode]
  by_cases carries : header.carry = .nothing
  · refine ⟨last.decoded, last.overrun, ?_, ?_, ?_⟩
    · rw [carries, Carry.bytes, queue_done]
      rfl
    · rw [decoded]
      exact ⟨rfl, rfl, fun _ _ => rfl⟩
    · rw [decoded, overrun, fields, carries]
      exact ⟨rfl, rfl, rfl⟩
  · have length := @carry_bytes_eq regs _ carries
    have positive : 0 < fewer := by
      rw [length, length_append, length_u8_bytes] at enough
      omega
    obtain ⟨final, extraRun, references, mainDataLen, mainData, extraOverrun⟩ :=
      @queue_polar_extra beyond last _ _ _
      (announced_lt small header) (data_le_announced header.carry) positive unset
    refine ⟨final.decoded, final.overrun, ?_, ?_, ?_⟩
    · rw [length, extraRun]
      rfl
    · rwa [decoded] at references
    · exact ⟨mainDataLen, mainData, by rw [extraOverrun, overrun, zero_add]; rfl⟩

end Decode

section RoundTrip

/-- The main data of the record that its packet is to carry, if any. -/
def pushedMainData (regs : Registered) (rechdr : XLogRecord) : Option (List UInt8) :=
  if polarXlogRemovePayload rechdr then
    match rechdr.carry with
    | .nothing => none
    | .leading dlen => some ((chainBytes regs.mainrdata).take dlen)
    | .whole => some (chainBytes regs.mainrdata)
  else some (chainBytes regs.mainrdata)

/-- The decoded packet against the decoded record. -/
structure RoundTrip (full queued : DecodedXLogRecord) (overrun : Nat)
    (pushed : Option (List UInt8)) : Prop where
  references : SameReferences queued full
  mainDataLen : ∀ data, pushed = some data → queued.mainDataLen = data.length
  mainData : ∀ data, pushed = some data → queued.mainDataBytes = data
  inside : overrun = 0

/-- The main data is carried with its own length: a fixed part must stand at the address of
the first chunk, and the routine for the whole main data announces five bytes too many. -/
def Carry.Exact (regs : Registered) : Carry → Prop
  | nothing => True
  | leading dlen => (leading dlen).data regs = (chainBytes regs.mainrdata).take dlen
  | whole => False

variable {ctx : InsertContext} {regs : Registered}
variable {full queued : DecodedXLogRecord} {rechdr : XLogRecord}

theorem Fetched.exact_iff {beyond : Nat → UInt8}
    {overrun : Nat} (fetched : Fetched regs rechdr.carry beyond queued overrun)
    (removed : polarXlogRemovePayload rechdr = true) (supplied : rechdr.carry.Supplied regs)
    (references : SameReferences queued full) :
    RoundTrip full queued overrun (pushedMainData regs rechdr) ↔ rechdr.carry.Exact regs := by
  obtain ⟨mainDataLen, mainData, overrunEq⟩ := fetched
  rw [pushedMainData, if_pos removed]
  cases found : rechdr.carry with
  | nothing =>
    rw [found] at overrunEq
    have trip : RoundTrip full queued overrun none :=
      { references, mainDataLen := nofun, mainData := nofun, inside := overrunEq }
    exact iff_of_true trip trivial
  | leading dlen =>
    obtain ⟨_, first⟩ := Option.ne_none_iff_exists'.mp (supplied (by rw [found]; simp))
    rw [found] at mainDataLen mainData overrunEq
    have length : ((Carry.leading dlen).data regs).length = dlen := by
      simp [Carry.data, first]
    have none : (Carry.leading dlen).overrun regs = 0 := by
      rw [Carry.overrun, length, Carry.announced, Nat.sub_self]
    rw [none, range_zero, map_nil, append_nil] at mainData
    constructor
    · intro trip
      rw [Carry.Exact, ← mainData]
      exact trip.mainData _ rfl
    intro same
    constructor
    · exact references
    · intro data pushed
      rw [mainDataLen, ← Option.some.inj pushed, ← same, length]
      rfl
    · intro _ pushed
      rw [mainData, same]
      exact Option.some.inj pushed
    · rw [overrunEq, none]
  | whole =>
    rw [found] at mainDataLen
    constructor
    · intro trip
      have length := trip.mainDataLen _ rfl
      rw [mainDataLen, Carry.announced, length_chain_bytes, polarReserveMainDataSize,
        polarMainDataLen, Registered.mainrdataLen] at length
      omega
    · exact False.elim

/-- A record that is kept whole is decoded by the same function on both ways. -/
theorem kept_round_trip {record : AssembledRecord} {headers : List BlockHeader}
    {blocks : List XLogRecData} (layout : Layout ctx regs record headers blocks)
    {header : XLogRecord} (kept : polarXlogRemovePayload header = false)
    (length :
      header.xlTotLen.toNat = sizeOfXLogRecord + record.scratch.length + chainLen record.chain)
    (saveXlogMeta : Bool) (memory : DecodedXLogRecord) (beyond : Nat → UInt8)
    (lsn : UInt64) : ∃ queued, polarXlogQueueDecode saveXlogMeta memory
        (header.bytes ++ (record.scratch ++ chainBytes record.chain)) beyond lsn true =
      .ok (queued, 0) ∧ SameReferences queued ((memory.start header lsn).putHeaders headers) ∧
      queued.mainDataLen = regs.mainrdataLen ∧
      queued.mainDataBytes = chainBytes regs.mainrdata := by
  obtain ⟨decoded, run, same⟩ := decode_layout layout length saveXlogMeta memory lsn
  have read : readHeader (header.bytes ++ (record.scratch ++ chainBytes record.chain)) =
    .ok (header, _) :=
    reads_header header _
  refine ⟨decoded, ?_, same⟩
  unfold polarXlogQueueDecode
  rw [read]
  change (if polarXlogRemovePayload header = true then _ else _) = _
  rw [if_neg (ne_true_of_eq_false kept), if_pos rfl, run]
  rfl

/-- What the queue decoder makes of a record that is kept whole. -/
structure Kept (regs : Registered) (queued : DecodedXLogRecord) (overrun : Nat) : Prop where
  mainDataLen : queued.mainDataLen = regs.mainrdataLen
  mainData : queued.mainDataBytes = chainBytes regs.mainrdata
  overrun : overrun = 0

theorem Kept.exact_iff {overrun : Nat} (whole : Kept regs queued overrun)
    (kept : polarXlogRemovePayload rechdr = false) (references : SameReferences queued full) :
    RoundTrip full queued overrun (pushedMainData regs rechdr) ↔ rechdr.carry.Exact regs := by
  have pushed : pushedMainData regs rechdr = some (chainBytes regs.mainrdata) := by
    rw [pushedMainData, if_neg (ne_true_of_eq_false kept)]
  rw [carry_of_kept kept, pushed]
  apply iff_of_true _ trivial
  constructor
  · exact references
  · intro data found
    rw [whole.mainDataLen, ← Option.some.inj found, length_chain_bytes]
    rfl
  · intro _ found
    rw [whole.mainData]
    exact Option.some.inj found
  · exact whole.overrun

theorem queue_transfer {rmid info : UInt8} {record : AssembledRecord}
    (assembled : xLogRecordAssemble ctx regs rmid info = record) (formed : regs.WellFormed)
    (short : assembledLen ctx regs rmid info ≤ maxRecordLen) {prev : UInt64} {crc : UInt32}
    (supplied : (record.placed prev crc).carry.Supplied regs) {queue reserved : Ringbuf} {pos : Nat}
    (read : queue.pread < queue.size) (write : queue.pwrite < queue.size)
    (reservation :
      reserveXlogInsertLocation queue (record.rbufLen regs prev crc) = some (reserved, pos))
    (endLsn : UInt64) (xlogLen : UInt32) (saveXlogMeta : Bool)
    (fullMemory queueMemory : DecodedXLogRecord) (beyond : Nat → UInt8) (lsn : UInt64) :
    ∃ (after : PushState) (full queued : DecodedXLogRecord) (overrun : Nat),
      polarXlogSendQueuePush regs pos (record.placed prev crc) (record.rdata prev crc)
          (record.rbufLen regs prev crc) endLsn xlogLen { queue := reserved, returned := [] } =
        .ok ((), after) ∧
      decodeXLogRecord saveXlogMeta fullMemory (chainBytes (record.rdata prev crc)) lsn = .ok full ∧
      polarXlogQueueDecode saveXlogMeta queueMemory
          ((payload after.queue pos (pktLen after.queue pos)).drop polarXlogHeadSize) beyond
          lsn true =
        .ok (queued, overrun) ∧
      SameReferences queued full ∧
      (polarXlogRemovePayload (record.placed prev crc) = true →
        Fetched regs (record.placed prev crc).carry beyond queued overrun) ∧
      (polarXlogRemovePayload (record.placed prev crc) = false → Kept regs queued overrun) := by
  obtain ⟨headers, _, layout, -⟩ := assemble_layout ctx rmid info formed
  have placeable := @assembled_placeable ctx regs rmid info formed short
  rw [assembled] at layout placeable
  obtain ⟨opened, -, -⟩ := reservation_spec read write (rbuf_len_lt placeable) reservation
  obtain ⟨_, run, -, -⟩ := @push_spec regs record prev endLsn crc xlogLen reserved pos placeable
    supplied opened
  rw [← @length_packet_payload regs record prev endLsn crc xlogLen placeable supplied] at opened
  obtain ⟨length, packet⟩ := @finished_packet _ _ _ (pktWalMeta ||| pktReady) opened
  have chain := @chain_bytes_rdata record prev crc
  obtain ⟨full, fullRun, fullSame, -⟩ := @decode_layout _ _ _ _ _ layout (record.placed prev crc)
    placeable.length saveXlogMeta fullMemory lsn
  rw [← chain] at fullRun
  have start :=
    (same_references_start (record.placed prev crc) queueMemory fullMemory lsn).put_headers headers
  cases removed : polarXlogRemovePayload (record.placed prev crc) with
  | true =>
    obtain ⟨queued, overrun, queueRun, queueSame, fetched⟩ := queue_decode_removed layout removed
      (reserve_main_lt placeable) saveXlogMeta queueMemory beyond lsn true
    have same : SameReferences queued full := queueSame.trans (start.trans fullSame.symm)
    refine ⟨_, full, queued, overrun, run, fullRun, ?_, same, fun _ => fetched, nofun⟩
    rw [length, packet, drop_packet_payload, if_pos removed, append_assoc, queueRun]
  | false =>
    obtain ⟨queued, queueRun, queueSame, mainDataLen, mainData⟩ :=
      kept_round_trip layout removed placeable.length saveXlogMeta queueMemory beyond lsn
    have same : SameReferences queued full := queueSame.trans (start.trans fullSame.symm)
    refine ⟨_, full, queued, 0, run, fullRun, ?_, same, nofun,
      fun _ => ⟨mainDataLen, mainData, rfl⟩⟩
    rw [length, packet, drop_packet_payload, if_neg (ne_true_of_eq_false removed),
      carry_of_kept removed, Carry.bytes, append_nil, chain, queueRun]

/-- Every record goes through the queue: the push and both decoders succeed, and the packet
agrees with the record exactly when its main data is carried with its own length. -/
theorem queue_round_trip (ctx : InsertContext) (regs : Registered) (rmid info : UInt8)
    (prev : UInt64) (crc : UInt32) (endLsn : UInt64) (xlogLen : UInt32) (formed : regs.WellFormed)
    (short : assembledLen ctx regs rmid info ≤ maxRecordLen)
    (supplied : ((xLogRecordAssemble ctx regs rmid info).placed prev crc).carry.Supplied regs)
    {queue reserved : Ringbuf} {pos : Nat} (read : queue.pread < queue.size)
    (write : queue.pwrite < queue.size) (reservation : reserveXlogInsertLocation queue
      ((xLogRecordAssemble ctx regs rmid info).rbufLen regs prev crc) = some (reserved, pos))
    (saveXlogMeta : Bool) (fullMemory queueMemory : DecodedXLogRecord) (beyond : Nat → UInt8)
    (lsn : UInt64) : ∃ (after : PushState) (full queued : DecodedXLogRecord) (overrun : Nat),
      polarXlogSendQueuePush regs pos ((xLogRecordAssemble ctx regs rmid info).placed prev crc)
          ((xLogRecordAssemble ctx regs rmid info).rdata prev crc)
          ((xLogRecordAssemble ctx regs rmid info).rbufLen regs prev crc) endLsn xlogLen
          { queue := reserved, returned := [] } = .ok ((), after) ∧
      decodeXLogRecord saveXlogMeta fullMemory
          (chainBytes ((xLogRecordAssemble ctx regs rmid info).rdata prev crc)) lsn = .ok full ∧
      polarXlogQueueDecode saveXlogMeta queueMemory
          ((payload after.queue pos (pktLen after.queue pos)).drop polarXlogHeadSize)
          beyond lsn true = .ok (queued, overrun) ∧
      (RoundTrip full queued overrun
          (pushedMainData regs ((xLogRecordAssemble ctx regs rmid info).placed prev crc)) ↔
        ((xLogRecordAssemble ctx regs rmid info).placed prev crc).carry.Exact regs) := by
  obtain ⟨after, full, queued, overrun, run, fullRun, queueRun, same, fetched, whole⟩ :=
    queue_transfer rfl formed
    short supplied read write reservation endLsn xlogLen saveXlogMeta fullMemory queueMemory
      beyond lsn
  refine ⟨after, full, queued, overrun, run, fullRun, queueRun, ?_⟩
  cases removed :
    polarXlogRemovePayload ((xLogRecordAssemble ctx regs rmid info).placed prev crc) with
  | true => exact (fetched removed).exact_iff removed supplied same
  | false => exact (whole removed).exact_iff removed same

def blankBlock : DecodedBkpBlock :=
  { inUse := false, rnode := ⟨0, 0, 0⟩, forknum := 0, blkno := 0, flags := 0, hasImage := false
    applyImage := false, bkpImage := none, holeOffset := 0, holeLength := 0, bimgLen := 0
    bimgInfo := 0, hasData := false, data := none, dataLen := 0 }

def blankRecord : DecodedXLogRecord :=
  { size := 0, lsn := 0, header := ⟨0, 0, 0, 0, 0, 0⟩, recordOrigin := 0, toplevelXid := 0
    mainData := none, mainDataLen := 0, maxBlockId := -1, polarXlogMeta := none
    polarXlogMetaSize := 0, blocks := fun _ => blankBlock }

/-- The main data of an insert: the offset number and the flags. -/
theorem queue_round_trip_heap_insert : ∃ reserved pos after full queued overrun,
    PushesOne [1, 2, 3] rmHeap heapInsert reserved pos after ∧
    polarXlogQueueDecode false blankRecord
        ((payload after.queue pos (pktLen after.queue pos)).drop polarXlogHeadSize)
      (fun _ => 0) 1000 true = .ok (queued, overrun) ∧
    RoundTrip full queued overrun (some [1, 2, 3]) := by
  obtain ⟨reserved, pos, reservation⟩ := one_block_reserved [1, 2, 3] rmHeap heapInsert (by decide)
  obtain ⟨after, full, queued, overrun, run, -, queueRun, trip⟩ :=
    queue_round_trip plainContext (oneBlock [1, 2, 3])
    rmHeap heapInsert 0 0 1000 56 (one_block_well_formed _) (by decide) (one_block_supplied _ _)
      (by decide)
    (by decide) reservation false blankRecord blankRecord (fun _ => 0) 1000
  exact ⟨reserved, pos, after, full, queued, overrun, ⟨reservation, run⟩, queueRun, trip.mpr rfl⟩

/-- The main data of a B-tree deletion has eight bytes here; thirteen come out, five of them
from behind the packet. -/
theorem btree_delete_reads_behind_packet : ∃ reserved pos after queued,
    PushesOne [7, 0, 0, 0, 1, 0, 0, 0] rmBtree btreeDelete reserved pos after ∧
    polarXlogQueueDecode false blankRecord
        ((payload after.queue pos (pktLen after.queue pos)).drop polarXlogHeadSize)
      (fun _ => 0xEE) 1000 true = .ok (queued, 5) ∧
    queued.mainDataLen = 13 ∧
    queued.mainDataBytes = [7, 0, 0, 0, 1, 0, 0, 0, 0xEE, 0xEE, 0xEE, 0xEE, 0xEE] := by
  obtain ⟨reserved, pos, reservation⟩ := one_block_reserved [7, 0, 0, 0, 1, 0, 0, 0] rmBtree
    btreeDelete (by decide)
  obtain ⟨after, _, queued, overrun, run, -, queueRun, -, fetched, -⟩ := queue_transfer rfl
    (one_block_well_formed _) (by decide) (one_block_supplied _ _) (by decide) (by decide)
    reservation
    1000 56 false blankRecord blankRecord (fun _ => 0xEE) 1000
  obtain ⟨mainDataLen, mainData, behind⟩ := fetched (by decide)
  have five : overrun = 5 := behind
  rw [five] at queueRun
  exact ⟨reserved, pos, after, queued, ⟨reservation, run⟩, queueRun, mainDataLen, mainData⟩

end RoundTrip

end PolarDB.Xlog
