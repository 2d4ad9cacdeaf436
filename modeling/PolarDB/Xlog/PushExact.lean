import PolarDB.Xlog.AssembleSpec
import PolarDB.Xlog.QueuePush

/-!
# The push fills exactly what was reserved

`carry` says which part of the main data a packet carries. The functions that compute the
reserved size and those that write the packet are both compared with it.
-/

namespace PolarDB.Xlog

open List Lib.Bytes Lib.Circular RingBuf

/-- The main data behind the headers: none, a fixed number of bytes read from the first
chunk, or all of it. -/
inductive Carry where
  | nothing
  | leading (dlen : Nat)
  | whole
deriving Repr, DecidableEq

def heapCarry (op : UInt8) : Carry :=
  if op = heapInsert then .leading sizeOfHeapInsert
  else if op = heapDelete then .leading sizeOfHeapDelete
  else if op = heapUpdate ∨ op = heapHotUpdate then .leading sizeOfHeapUpdate
  else if op = heapLock then .leading sizeOfHeapLock
  else .nothing

def heap2Carry (op : UInt8) : Carry :=
  if op = heap2Prune then .leading sizeOfHeapPrune
  else if op = heap2FreezePage then .leading sizeOfHeapFreezePage
  else if op = heap2Vacuum then .leading sizeOfHeapVacuum
  else if op = heap2Visible then .leading sizeOfHeapVisible
  else if op = heap2MultiInsert then .leading sizeOfHeapMultiInsert
  else if op = heap2LockUpdated then .leading sizeOfHeapLockUpdated
  else if op = heap2Rewrite then .leading sizeOfHeapRewriteMapping
  else .nothing

def carry (rmid info : UInt8) : Carry :=
  if rmid = rmHeap then heapCarry (info &&& heapOpMask)
  else if rmid = rmHeap2 then heap2Carry (info &&& heapOpMask)
  else if rmid = rmGist then .nothing
  else if rmid = rmHash then if info = hashVacuumOnePage then .whole else .nothing
  else if rmid = rmBtree then if info = btreeDelete ∨ info = btreeReusePage then .whole
    else .nothing
  else if rmid = rmSpgist then
    if info = spgistVacuumRedirect then .leading sizeOfSpgVacuumRedirect else .nothing
  else if rmid = rmXlog then if info = polarWal then .whole else .nothing
  else .nothing

def XLogRecord.carry (record : XLogRecord) : Carry := Xlog.carry record.xlRmid (rmgrInfo record)

def Carry.data (regs : Registered) : Carry → List UInt8
  | nothing => []
  | leading dlen => (regs.mainrdataHead.map fun head => head.read dlen).getD []
  | whole => chainBytes regs.mainrdata

/-- What follows the headers in the packet. -/
def Carry.bytes (regs : Registered) : Carry → List UInt8
  | nothing => []
  | leading dlen => u8Bytes blockIdPolarExtra ++ (leBytes 4 dlen ++ (leading dlen).data regs)
  | whole => u8Bytes blockIdPolarExtra ++
      (leBytes 4 (polarReserveMainDataSize regs) ++ whole.data regs)

def Carry.size (regs : Registered) : Carry → Nat
  | nothing => 0
  | leading dlen => polarMainDataLen dlen
  | whole => polarReserveMainDataSize regs

/-- The main data is dereferenced only if there is a head. -/
def Carry.Supplied (regs : Registered) (carry : Carry) : Prop := carry ≠ .nothing →
    regs.mainrdataHead ≠ none

section Reserve
variable {regs : Registered}

theorem length_carry_bytes {carry : Carry} (supplied : carry.Supplied regs) :
    (carry.bytes regs).length = carry.size regs := by
  cases carry with
  | nothing => rfl
  | leading =>
    obtain ⟨_, found⟩ := Option.ne_none_iff_exists'.mp (supplied (by simp))
    simp [Carry.bytes, Carry.data, Carry.size, found, polarMainDataLen]
    omega
  | whole =>
    simp [Carry.bytes, Carry.data, Carry.size, length_chain_bytes, polarReserveMainDataSize,
      polarMainDataLen, Registered.mainrdataLen]
    omega

theorem reserve_heap (info : UInt8) :
    polarReserveHeapDataSize info = (heapCarry (info &&& heapOpMask)).size regs := by
  unfold polarReserveHeapDataSize heapCarry
  dsimp only
  split_ifs <;> rfl

theorem reserve_heap2 (info : UInt8) :
    polarReserveHeap2DataSize info = (heap2Carry (info &&& heapOpMask)).size regs := by
  unfold polarReserveHeap2DataSize heap2Carry
  dsimp only
  split_ifs <;> rfl

theorem gist_condition (info : UInt8) : info ≠ gistDelete ∨ info ≠ gistPageReuse := by
  by_cases delete : info = gistDelete
  · right
    rw [delete]
    decide
  · exact .inl delete

theorem reserve_data_size (rechdr : XLogRecord) : polarReserveDataSize regs rechdr =
    rechdr.carry.size regs := by
  unfold polarReserveDataSize XLogRecord.carry carry
  split_ifs
  all_goals first
    | exact reserve_heap _
    | exact reserve_heap2 _
    | exact if_pos (gist_condition _)
    | simp_all [polarReserveHashDataSize, polarReserveBtreeDataSize, polarReserveSpgDataSize,
        polarReserveXlogDataSize, Carry.size]

end Reserve

section Push

/-- A packet with its length set, as `ReserveXLogInsertLocation` leaves it. -/
structure Opened (reserved : Ringbuf) (pos len : Nat) : Prop where
  position : pos < reserved.size
  length : pktLen reserved pos = len
  fits : pktSize len ≤ reserved.size

/-- The push after `done` was written, with the results of the writes so far. -/
def pushed (reserved : Ringbuf) (pos : Nat) (done : List UInt8) (returned : List Int) : PushState :=
  { queue := putPayload reserved pos done, returned }

/-- The action puts `bytes` behind what was written and no write fails. -/
def Appends (reserved : Ringbuf) (pos len : Nat) (action : Int → Push Int)
    (bytes : List UInt8) : Prop :=
  ∀ (done : List UInt8) (returned : List Int), done.length + bytes.length ≤ len →
    ∃ results : List Int, action done.length (pushed reserved pos done returned) =
        .ok ((bytes.length : Int), pushed reserved pos (done ++ bytes) (returned ++ results)) ∧
      (∀ res ∈ results, 0 ≤ res) ∧ results.sum = bytes.length

variable {reserved : Ringbuf} {pos len : Nat}

theorem push_pure {Value : Type} (value : Value) (st : PushState) :
    (pure value : Push Value) st = .ok (value, st) := rfl

theorem push_bind {Value Next : Type} {action : Push Value} {next : Value → Push Next}
    {st after : PushState} {value : Value} (run : action st = .ok (value, after)) :
    (action >>= next) st = next value after := by
  change (action st >>= fun res => next res.1 res.2) = _
  rw [run]
  rfl

theorem write_next (opened : Opened reserved pos len) {done bytes : List UInt8}
    {returned : List Int} (before : done.length < len) (within : done.length + bytes.length ≤ len) :
    writePkt pos done.length bytes (pushed reserved pos done returned) =
      .ok ((bytes.length : Int),
        pushed reserved pos (done ++ bytes) (returned ++ [(bytes.length : Int)])) := by
  rw [writePkt, pushed]
  rw [pkt_write_next opened.length opened.fits before within]
  rfl

theorem check_position (opened : Opened reserved pos len) (done : List UInt8)
    (returned : List Int) : checkPosition pos (pushed reserved pos done returned) =
      .ok ((), pushed reserved pos done returned) :=
  if_neg (not_le.mpr opened.position)

theorem offset_append (done bytes : List UInt8) :
    (done.length : Int) + bytes.length = ((done ++ bytes).length : Nat) := by
  rw [length_append, Nat.cast_add]

theorem main_data_head {regs : Registered} {head : XLogRecData}
    (found : regs.mainrdataHead = some head) (st : PushState) :
    polarGetMainDataHead regs st = .ok (head, st) := by
  rw [polarGetMainDataHead, found]
  rfl

theorem appends_nothing : Appends reserved pos len (fun _ => pure 0) [] := by
  intro _ _ _
  refine ⟨[], ?_, by simp, rfl⟩
  rw [append_nil, append_nil]
  rfl

variable {regs : Registered}

section
variable (opened : Opened reserved pos len)
include opened

theorem appends_leading {dlen : Nat} (positive : 0 < dlen)
    (supplied : (Carry.leading dlen).Supplied regs) :
    Appends reserved pos len (polarWriteMainData regs pos dlen)
    ((Carry.leading dlen).bytes regs) := by
  intro done returned within
  obtain ⟨head, found⟩ := Option.ne_none_iff_exists'.mp (supplied (by simp))
  have data : (Carry.leading dlen).data regs = head.read dlen := by simp [Carry.data, found]
  rw [length_carry_bytes supplied, Carry.size, polarMainDataLen] at within
  rw [Carry.bytes, data]
  refine ⟨[((u8Bytes blockIdPolarExtra).length : Int), (leBytes 4 dlen).length,
    (head.read dlen).length], ?_, ?_, ?_⟩
  · rw [polarWriteMainData, push_bind (main_data_head found _),
      push_bind (check_position opened done returned),
      push_bind (write_next opened (by omega) (by simp; omega)), offset_append,
      push_bind (write_next opened (by simp; omega) (by simp; omega)), ← Int.add_assoc,
      offset_append, offset_append,
      push_bind (write_next opened (by simp; omega) (by simp; omega))]
    simp [append_assoc, push_pure]
    omega
  · simp
  · simp

theorem push_main_chunks {base dataLen : Nat} (small : dataLen < 2 ^ 32)
    (room : base + dataLen ≤ len) (chunks : List XLogRecData) :
    ∀ (done : List UInt8) (returned : List Int) (written : Nat), done.length = base + written →
      dataLen = written + chainLen chunks →
      ∃ results : List Int, pushMainChunks pos base dataLen written chunks
          (pushed reserved pos done returned) =
        .ok ((dataLen : Int),
          pushed reserved pos (done ++ chainBytes chunks) (returned ++ results)) ∧
        (∀ res ∈ results, 0 ≤ res) ∧ results.sum = chainLen chunks := by
  induction chunks with
  | nil =>
    intro done returned written place total
    have finished : ¬ ((written : Int) % 2 ^ 32).toNat < dataLen := by
      rw [chainLen, map_nil, sum_nil] at total
      omega
    refine ⟨[], ?_, by simp, rfl⟩
    rw [pushMainChunks, if_neg finished]
    have same : dataLen = written := total
    simp [same, chainBytes, push_pure]
  | cons chunk chunks ih =>
    intro done returned written _ total
    have cons : chainLen (chunk :: chunks) = chunk.len + chainLen chunks := by simp [chainLen]
    have low : ((written : Int) % 2 ^ 32).toNat = written := by omega
    rw [pushMainChunks, low]
    by_cases more : written < dataLen
    · have offset : (base : Int) + written = (done.length : Nat) := by omega
      obtain ⟨results, run, positive, sum⟩ := ih (done ++ chunk.bytes)
        (returned ++ [(chunk.bytes.length : Int)]) (written + chunk.len)
        (by rw [length_append, XLogRecData.length_bytes]; omega) (by omega)
      refine ⟨(chunk.bytes.length : Int) :: results, ?_, ?_, ?_⟩
      · rw [if_pos more, offset, push_bind (write_next opened (by omega) (by simp; omega)),
          XLogRecData.length_bytes, ← Nat.cast_add]
        rw [XLogRecData.length_bytes] at run
        rw [run]
        simp [chainBytes, append_assoc]
      · exact forall_mem_cons.mpr ⟨Int.natCast_nonneg _, positive⟩
      · rw [sum_cons, sum, cons, XLogRecData.length_bytes, Nat.cast_add]
    · have empty : chainLen (chunk :: chunks) = 0 := by omega
      refine ⟨[], ?_, by simp, by rw [empty]; rfl⟩
      rw [if_neg more, chain_bytes_empty empty]
      have same : dataLen = written := by omega
      simp [same, push_pure]

theorem appends_whole (small : polarReserveMainDataSize regs < 2 ^ 32)
    (supplied : Carry.whole.Supplied regs) : Appends reserved pos len (polarPushMainData regs pos)
    (Carry.whole.bytes regs) := by
  intro done returned within
  obtain ⟨head, found⟩ := Option.ne_none_iff_exists'.mp (supplied (by simp))
  rw [length_carry_bytes supplied, Carry.size] at within
  have size : polarReserveMainDataSize regs = 5 + chainLen regs.mainrdata := by
    rw [polarReserveMainDataSize, polarMainDataLen, Registered.mainrdataLen]
  obtain ⟨results, run, positive, sum⟩ := push_main_chunks opened small within regs.mainrdata
    (done ++ u8Bytes blockIdPolarExtra ++ leBytes 4 (polarReserveMainDataSize regs))
    (returned ++ [((u8Bytes blockIdPolarExtra).length : Int)] ++
      [((leBytes 4 (polarReserveMainDataSize regs)).length : Int)]) 5 (by simp) size
  refine ⟨((u8Bytes blockIdPolarExtra).length : Int) ::
    ((leBytes 4 (polarReserveMainDataSize regs)).length : Int) :: results, ?_, ?_, ?_⟩
  · rw [polarPushMainData, Nat.mod_eq_of_lt small, push_bind (main_data_head found _),
      push_bind (check_position opened done returned),
      push_bind (write_next opened (by omega) (by simp; omega)),
      offset_append, push_bind (write_next opened (by simp; omega) (by simp; omega))]
    rw [length_carry_bytes supplied, Carry.size]
    have five : ((u8Bytes blockIdPolarExtra).length : Int) +
        ((leBytes 4 (polarReserveMainDataSize regs)).length : Nat) = ((5 : Nat) : Int) := by simp
    rw [five, run]
    simp [Carry.bytes, Carry.data, append_assoc]
  · exact forall_mem_cons.mpr ⟨Int.natCast_nonneg _, forall_mem_cons.mpr ⟨Int.natCast_nonneg _,
      positive⟩⟩
  · rw [length_carry_bytes supplied, Carry.size, size]
    simp [sum]
    omega

theorem appends_heap (info : UInt8) (supplied : (heapCarry (info &&& heapOpMask)).Supplied regs) :
    Appends reserved pos len (fun offset => polarXlogPushHeapData regs pos offset info)
      ((heapCarry (info &&& heapOpMask)).bytes regs) := by
  unfold polarXlogPushHeapData heapCarry at *
  dsimp only
  split_ifs at *
  all_goals first
    | exact appends_leading opened (by decide) supplied
    | exact appends_nothing

theorem appends_heap2 (info : UInt8) (supplied : (heap2Carry (info &&& heapOpMask)).Supplied regs) :
    Appends reserved pos len (fun offset => polarXlogPushHeap2Data regs pos offset info)
      ((heap2Carry (info &&& heapOpMask)).bytes regs) := by
  unfold polarXlogPushHeap2Data heap2Carry at *
  dsimp only
  split_ifs at *
  all_goals first
    | exact appends_leading opened (by decide) supplied
    | exact appends_nothing

theorem appends_whole_if (small : polarReserveMainDataSize regs < 2 ^ 32)
    {chosen : Prop} [Decidable chosen]
    (supplied : (if chosen then Carry.whole else .nothing).Supplied regs) :
    Appends reserved pos len (fun offset => if chosen then polarPushMainData regs pos offset
      else pure 0) ((if chosen then Carry.whole else .nothing).bytes regs) := by
  by_cases holds : chosen
  · simp only [if_pos holds] at supplied ⊢
    exact appends_whole opened small supplied
  · simp only [if_neg holds]
    exact appends_nothing

theorem appends_spg (info : UInt8)
    (supplied : (if info = spgistVacuumRedirect then Carry.leading sizeOfSpgVacuumRedirect
      else .nothing).Supplied regs) :
    Appends reserved pos len (fun offset => polarXlogPushSpgData regs pos offset info)
      ((if info = spgistVacuumRedirect then Carry.leading sizeOfSpgVacuumRedirect
        else .nothing).bytes regs) := by
  unfold polarXlogPushSpgData
  by_cases redirect : info = spgistVacuumRedirect
  · simp only [if_pos redirect, if_neg (not_not.mpr redirect)] at supplied ⊢
    exact appends_leading opened (by decide) supplied
  · simp only [if_neg redirect, if_pos redirect]
    exact appends_nothing

theorem appends_data (rechdr : XLogRecord)
    (small : polarReserveMainDataSize regs < 2 ^ 32) (supplied : rechdr.carry.Supplied regs) :
    Appends reserved pos len (fun offset => polarXlogSendQueuePushData regs pos offset rechdr)
      (rechdr.carry.bytes regs) := by
  unfold polarXlogSendQueuePushData
  unfold XLogRecord.carry carry at *
  by_cases heap : rechdr.xlRmid = rmHeap
  · simp only [if_pos heap] at supplied ⊢
    exact appends_heap opened _ supplied
  simp only [if_neg heap] at supplied ⊢
  by_cases heap2 : rechdr.xlRmid = rmHeap2
  · simp only [if_pos heap2] at supplied ⊢
    exact appends_heap2 opened _ supplied
  simp only [if_neg heap2] at supplied ⊢
  by_cases gist : rechdr.xlRmid = rmGist
  · simp only [if_pos gist, polarXlogPushGistData, if_pos (gist_condition _)]
    exact appends_nothing
  simp only [if_neg gist] at supplied ⊢
  by_cases hash : rechdr.xlRmid = rmHash
  · simp only [if_pos hash, polarXlogPushHashData, ite_not] at supplied ⊢
    exact appends_whole_if opened small supplied
  simp only [if_neg hash] at supplied ⊢
  by_cases btree : rechdr.xlRmid = rmBtree
  · simp only [if_pos btree, polarXlogPushBtreeData] at supplied ⊢
    exact appends_whole_if opened small supplied
  simp only [if_neg btree] at supplied ⊢
  by_cases spgist : rechdr.xlRmid = rmSpgist
  · simp only [if_pos spgist] at supplied ⊢
    exact appends_spg opened _ supplied
  simp only [if_neg spgist] at supplied ⊢
  by_cases xlog : rechdr.xlRmid = rmXlog
  · simp only [if_pos xlog, polarXlogPushXlogData] at supplied ⊢
    exact appends_whole_if opened small supplied
  simp only [if_neg xlog]
  exact appends_nothing

end

theorem read_take (chunk : XLogRecData) {count : Nat} (within : count ≤ chunk.len) :
    chunk.read count = chunk.bytes.take count := by
  rw [XLogRecData.bytes, XLogRecData.read, XLogRecData.read, ← map_take, take_range,
    min_eq_left within]

theorem push_chunks (opened : Opened reserved pos len) (dataSize : Nat) (chain : List XLogRecData) :
    ∀ (done : List UInt8) (returned : List Int) (left : Nat), left ≤ chainLen chain →
      done.length + left ≤ len → ∃ results : List Int,
        pushChunks pos dataSize done.length ((left : Int) + dataSize) chain
            (pushed reserved pos done returned) =
          .ok ((((done.length + left : Nat) : Int), (dataSize : Int)),
            pushed reserved pos (done ++ (chainBytes chain).take left) (returned ++ results)) ∧
        (∀ res ∈ results, 0 ≤ res) ∧ results.sum = left := by
  have small : len < 2 ^ 32 := by
    rw [← opened.length]
    apply pkt_len_lt
    have fits := opened.fits
    rw [pktSize, pktHdrSize] at fits
    omega
  have difference : ∀ left : Nat, left ≤ len → sizeT ((left : Int) + dataSize - dataSize) =
    left := by
    intro left _
    rw [Int.add_sub_cancel]
    exact size_t_nat (by omega)
  induction chain with
  | nil =>
    intro done returned left short _
    have zero : left = 0 := Nat.le_zero.mp short
    refine ⟨[], ?_, by simp, by rw [zero]; rfl⟩
    simp [pushChunks, zero, push_pure]
  | cons chunk chain ih =>
    intro done returned left short _
    have cons : chainLen (chunk :: chain) = chunk.len + chainLen chain := by simp [chainLen]
    rw [pushChunks]
    rw [difference left (by omega)]
    by_cases more : left > 0
    · have piece : (chunk.read (min left chunk.len)).length = min left chunk.len :=
        XLogRecData.length_read _ _
      obtain ⟨results, run, positive, sum⟩ := ih (done ++ chunk.read (min left chunk.len))
        (returned ++ [((chunk.read (min left chunk.len)).length : Int)]) (left - min left chunk.len)
        (by omega)
        (by rw [length_append, piece]; omega)
      have bytes : chunk.read (min left chunk.len) ++ (chainBytes chain).take
          (left - min left chunk.len) = (chainBytes (chunk :: chain)).take left := by
        have split : chainBytes (chunk :: chain) = chunk.bytes ++ chainBytes chain := rfl
        rw [split, take_append, XLogRecData.length_bytes, read_take chunk (min_le_right _ _)]
        congr 1
        · rw [take_eq_take_iff, XLogRecData.length_bytes]
          omega
        · congr 1
          omega
      refine ⟨((chunk.read (min left chunk.len)).length : Int) :: results, ?_, ?_, ?_⟩
      · have accepted : ¬ ((chunk.read (min left chunk.len)).length : Int) ≠
          ((min left chunk.len : Nat) : Int) := by
          rw [piece]
          exact not_not.mpr rfl
        have rest : (left : Int) + dataSize - ((min left chunk.len : Nat) : Int) =
            ((left - min left chunk.len : Nat) : Int) + dataSize := by omega
        rw [if_pos more, push_bind (write_next opened (by omega) (by rw [piece]; omega)),
          if_neg accepted, rest, ← piece, offset_append, piece, run, append_assoc, bytes]
        have total : (done ++ chunk.read (min left chunk.len)).length +
          (left - min left chunk.len) =
            done.length + left := by
          rw [length_append, piece]
          omega
        simp
      · exact forall_mem_cons.mpr ⟨Int.natCast_nonneg _, positive⟩
      · rw [sum_cons, sum, piece]
        omega
    · have zero : left = 0 := by omega
      refine ⟨[], ?_, by simp, by rw [zero]; rfl⟩
      simp [zero, push_pure]

end Push

section Packet

/-- The longest record that the reader can allocate a buffer for. -/
def maxRecordLen : Nat := 0x3fffffff

/-- The record header once the place of the record is known. -/
def AssembledRecord.placed (record : AssembledRecord) (prev : UInt64) (crc : UInt32) : XLogRecord :=
  { record.header with xlPrev := prev, xlCrc := crc }

/-- The length of the first chunk: the record header and the scratch buffer behind it. -/
def AssembledRecord.firstLen (record : AssembledRecord) : Nat :=
  sizeOfXLogRecord + record.scratch.length

/-- The data of the packet of a record. -/
def packetPayload (regs : Registered) (record : AssembledRecord) (prev : UInt64) (crc : UInt32)
    (endLsn : UInt64) (xlogLen : UInt32) : List UInt8 :=
  u64Bytes endLsn ++ (u32Bytes xlogLen ++
    ((if polarXlogRemovePayload (record.placed prev crc) then
        (record.placed prev crc).bytes ++ record.scratch
      else chainBytes (record.rdata prev crc)) ++ (record.placed prev crc).carry.bytes regs))

/-- What `XLogInsertRecord` reserves. -/
def AssembledRecord.rbufLen (regs : Registered) (record : AssembledRecord) (prev : UInt64)
    (crc : UInt32) : Nat :=
  polarXlogReserveSize regs (record.placed prev crc) record.firstLen % 2 ^ 32

variable {ctx : InsertContext} {regs : Registered} {record : AssembledRecord} {prev endLsn : UInt64}
  {crc xlogLen : UInt32}

theorem chain_bytes_rdata : chainBytes (record.rdata prev crc) =
    (record.placed prev crc).bytes ++ (record.scratch ++ chainBytes record.chain) := by
  change (XLogRecData.ofBytes _).bytes ++ chainBytes record.chain = _
  rw [XLogRecData.bytes_of_bytes]
  rfl

theorem first_len_eq :
    record.firstLen = ((record.placed prev crc).bytes ++ record.scratch).length := by
  rw [length_append, XLogRecord.length_bytes, AssembledRecord.firstLen]

/-- A record whose header announces its length and that a reader can take. -/
structure Placeable (regs : Registered) (record : AssembledRecord) : Prop where
  length : record.header.xlTotLen.toNat = sizeOfXLogRecord + record.scratch.length +
    chainLen record.chain
  short : record.header.xlTotLen.toNat ≤ maxRecordLen
  main : regs.mainrdataLen ≤ chainLen record.chain

variable {dlen : Nat} {rmid info : UInt8}

theorem heap_carry_le {op : UInt8} (found : heapCarry op = .leading dlen) : dlen ≤ 40 := by
  unfold heapCarry at found
  split_ifs at found
  all_goals
    rw [← Carry.leading.inj found]
    decide

theorem heap2_carry_le {op : UInt8} (found : heap2Carry op = .leading dlen) : dlen ≤ 40 := by
  unfold heap2Carry at found
  split_ifs at found
  all_goals
    rw [← Carry.leading.inj found]
    decide

theorem carry_leading_le (found : carry rmid info = .leading dlen) : dlen ≤ 40 := by
  unfold carry at found
  split_ifs at found
  · exact heap_carry_le found
  · exact heap2_carry_le found
  · rw [← Carry.leading.inj found]
    decide

theorem carry_size_le (rechdr : XLogRecord) : rechdr.carry.size regs ≤ 45 + regs.mainrdataLen := by
  cases found : rechdr.carry with
  | nothing => exact Nat.zero_le _
  | leading dlen =>
    have small : dlen ≤ 40 := carry_leading_le found
    simp only [Carry.size, polarMainDataLen]
    omega
  | whole =>
    simp only [Carry.size, polarReserveMainDataSize, polarMainDataLen]
    omega

theorem carry_of_kept {rechdr : XLogRecord} (kept : polarXlogRemovePayload rechdr = false) :
    rechdr.carry = .nothing := by
  unfold polarXlogRemovePayload at kept
  unfold XLogRecord.carry carry
  dsimp only at kept
  split_ifs at kept with removed xlog info
  all_goals
    simp only [not_or] at removed
    rw [if_neg removed.1, if_neg removed.2.1, if_neg removed.2.2.2.2.2.1, if_neg removed.2.2.2.1,
      if_neg removed.2.2.1, if_neg removed.2.2.2.2.2.2.2.1]
  · rw [if_neg xlog]
  · rw [if_pos (not_not.mp xlog), if_neg info.2.2]

/-- The bytes of the record that are copied before the main data. -/
def copiedLen (record : AssembledRecord) (prev : UInt64) (crc : UInt32) : Nat :=
  if polarXlogRemovePayload (record.placed prev crc) then record.firstLen
    else record.header.xlTotLen.toNat

section
variable (placeable : Placeable regs record)
include placeable

theorem packet_payload_eq : packetPayload regs record prev crc endLsn xlogLen = u64Bytes endLsn ++
      (u32Bytes xlogLen ++ ((chainBytes (record.rdata prev crc)).take (copiedLen record prev crc) ++
        (record.placed prev crc).carry.bytes regs)) := by
  rw [packetPayload, copiedLen]
  congr 3
  split_ifs
  · rw [chain_bytes_rdata, ← append_assoc, @first_len_eq record prev crc, take_left]
  · symm
    apply take_of_length_le
    rw [chain_bytes_rdata, length_append, length_append, XLogRecord.length_bytes,
      length_chain_bytes, placeable.length]
    omega

theorem copied_le_chain : copiedLen record prev crc ≤ chainLen (record.rdata prev crc) := by
  have total : chainLen (record.rdata prev crc) = sizeOfXLogRecord + record.scratch.length +
    chainLen record.chain := by
    rw [← length_chain_bytes, chain_bytes_rdata, length_append, length_append,
      XLogRecord.length_bytes, length_chain_bytes]
    omega
  have length := placeable.length
  rw [copiedLen, AssembledRecord.firstLen]
  split_ifs <;> omega

theorem length_copied :
    ((chainBytes (record.rdata prev crc)).take (copiedLen record prev crc)).length =
    copiedLen record prev crc := by
  rw [length_take, length_chain_bytes, min_eq_left (copied_le_chain placeable)]

theorem rbuf_len_eq : record.rbufLen regs prev crc =
      copiedLen record prev crc + (record.placed prev crc).carry.size regs := by
  have length := placeable.length
  have short := placeable.short
  have main := placeable.main
  have size := @carry_size_le regs (record.placed prev crc)
  have same : (record.placed prev crc).xlTotLen = record.header.xlTotLen := rfl
  rw [maxRecordLen] at short
  rw [AssembledRecord.rbufLen, polarXlogReserveSize, reserve_data_size, same, Nat.mod_eq_of_lt]
  · rfl
  · rw [AssembledRecord.firstLen]
    split_ifs <;> omega

theorem rbuf_len_lt : record.rbufLen regs prev crc + polarXlogHeadSize < 2 ^ 32 := by
  have length := placeable.length
  have short := placeable.short
  have main := placeable.main
  have size := @carry_size_le regs (record.placed prev crc)
  rw [maxRecordLen] at short
  rw [rbuf_len_eq placeable, copiedLen, AssembledRecord.firstLen, polarXlogHeadSize]
  split_ifs <;> omega

theorem reserve_main_lt : polarReserveMainDataSize regs < 2 ^ 32 := by
  have short := placeable.short
  have length := placeable.length
  have main := placeable.main
  rw [maxRecordLen] at short
  rw [polarReserveMainDataSize, polarMainDataLen]
  omega

theorem length_packet_payload (supplied : (record.placed prev crc).carry.Supplied regs) :
    (packetPayload regs record prev crc endLsn xlogLen).length = record.rbufLen regs prev crc +
    polarXlogHeadSize := by
  rw [packet_payload_eq placeable, length_append, length_append, length_append,
    length_copied placeable,
    length_carry_bytes supplied, rbuf_len_eq placeable, length_u64_bytes, length_u32_bytes,
    polarXlogHeadSize]
  omega

end

theorem drop_packet_payload :
    (packetPayload regs record prev crc endLsn xlogLen).drop polarXlogHeadSize =
      (if polarXlogRemovePayload (record.placed prev crc) then
        (record.placed prev crc).bytes ++ record.scratch
      else chainBytes (record.rdata prev crc)) ++ (record.placed prev crc).carry.bytes regs := by
  rw [packetPayload, ← append_assoc]
  apply drop_left'
  rw [length_append, length_u64_bytes, length_u32_bytes, polarXlogHeadSize]

theorem pushed_nothing (reserved : Ringbuf) (pos : Nat) :
    ({ queue := reserved, returned := [] } : PushState) = pushed reserved pos [] [] := rfl

theorem push_spec {reserved : Ringbuf} {pos : Nat} (placeable : Placeable regs record)
    (supplied : (record.placed prev crc).carry.Supplied regs)
    (opened : Opened reserved pos (record.rbufLen regs prev crc + polarXlogHeadSize)) :
    ∃ returned : List Int,
      polarXlogSendQueuePush regs pos (record.placed prev crc) (record.rdata prev crc)
          (record.rbufLen regs prev crc) endLsn xlogLen { queue := reserved, returned := [] } =
        .ok ((), { queue := setPktFlag
                     (putPayload reserved pos (packetPayload regs record prev crc endLsn xlogLen))
                     pos (pktWalMeta ||| pktReady)
                   returned }) ∧
      (∀ res ∈ returned, 0 ≤ res) ∧
      returned.sum = (packetPayload regs record prev crc endLsn xlogLen).length := by
  have rbufLen := @rbuf_len_eq regs record prev crc placeable
  have size := @reserve_data_size regs (record.placed prev crc)
  have small := reserve_main_lt placeable
  have head : polarXlogHeadSize = 12 := rfl
  obtain ⟨copies, copyRun, copyPositive, copySum⟩ := push_chunks opened
    ((record.placed prev crc).carry.size regs) (record.rdata prev crc)
    (u64Bytes endLsn ++ u32Bytes xlogLen)
    [(u64Bytes endLsn).length, (u32Bytes xlogLen).length] (copiedLen record prev crc)
    (copied_le_chain placeable) (by simp; omega)
  have payload := @packet_payload_eq regs record prev endLsn crc xlogLen placeable
  have copied := @length_copied regs record prev crc placeable
  generalize (chainBytes (record.rdata prev crc)).take (copiedLen record prev crc) =
    bytes at copyRun payload copied
  obtain ⟨extras, extraRun, extraPositive, extraSum⟩ :=
    appends_data opened (record.placed prev crc) small supplied
    (u64Bytes endLsn ++ u32Bytes xlogLen ++ bytes)
    ([((u64Bytes endLsn).length : Int), (u32Bytes xlogLen).length] ++ copies)
    (by rw [length_append, copied, length_carry_bytes supplied]; simp; omega)
  have copyLen : (record.rbufLen regs prev crc : Int) =
      (copiedLen record prev crc : Int) + ((record.placed prev crc).carry.size regs : Nat) := by
    rw [rbufLen, Nat.cast_add]
  have headPositive : ∀ res ∈ [((u64Bytes endLsn).length : Int), ((u32Bytes xlogLen).length : Int)],
    0 ≤ res := by simp
  refine ⟨[((u64Bytes endLsn).length : Int), (u32Bytes xlogLen).length] ++ copies ++ extras,
    ?_, ?_, ?_⟩
  · have firstWrite : writePkt pos 0 (u64Bytes endLsn) (pushed reserved pos [] []) = _ :=
      write_next opened (show ([] : List UInt8).length < _ by simp; omega) (by simp; omega)
    have secondWrite : writePkt pos ((u64Bytes endLsn).length : Nat) (u32Bytes xlogLen)
        (pushed reserved pos (u64Bytes endLsn) [((u64Bytes endLsn).length : Int)]) = _ :=
      write_next opened (by simp; omega) (by simp; omega)
    have offset : ((u64Bytes endLsn).length : Int) + ((u32Bytes xlogLen).length : Nat) =
        ((u64Bytes endLsn ++ u32Bytes xlogLen).length : Nat) := offset_append _ _
    rw [pushed_nothing reserved pos, polarXlogSendQueuePush,
      push_bind (check_position opened [] []),
      push_bind firstWrite, nil_append, nil_append, push_bind secondWrite, offset, size, copyLen]
    rw [← copied, ← length_append] at copyRun
    rw [singleton_append, ← copied, push_bind copyRun]
    dsimp only
    rw [push_bind extraRun, length_carry_bytes supplied, Int.sub_self,
      if_neg (not_not.mpr rfl), payload, append_assoc, append_assoc]
    rfl
  · exact forall_mem_append.mpr ⟨forall_mem_append.mpr ⟨headPositive, copyPositive⟩, extraPositive⟩
  · rw [length_packet_payload placeable supplied, rbufLen]
    rw [length_carry_bytes supplied] at extraSum
    simp only [sum_append, sum_cons, sum_nil, copySum, extraSum, length_u64_bytes, length_u32_bytes]
    omega

theorem reservation_spec {queue reserved : Ringbuf} {rbufLen pos : Nat}
    (read : queue.pread < queue.size) (write : queue.pwrite < queue.size)
    (small : rbufLen + polarXlogHeadSize < 2 ^ 32)
    (reservation : reserveXlogInsertLocation queue rbufLen = some (reserved, pos)) :
    Opened reserved pos (rbufLen + polarXlogHeadSize) ∧ reserved.size = queue.size ∧
      ∀ address, (∀ idx < pktSize (rbufLen + polarXlogHeadSize),
        (pos + idx) % queue.size ≠ address) → reserved.data address = queue.data address := by
  have room := free_size_lt read write
  unfold reserveXlogInsertLocation at reservation
  dsimp only at reservation
  split_ifs at reservation with enough
  have fits : pktSize (rbufLen + polarXlogHeadSize) ≤ queue.size := by omega
  have large : 4 ≤ queue.size := by
    rw [pktSize, pktHdrSize] at fits
    omega
  obtain ⟨rfl, rfl⟩ := Prod.mk.inj (Option.some.inj reservation)
  have large : 4 ≤ (pktReserve queue (pktSize (rbufLen + polarXlogHeadSize))).1.size := large
  refine ⟨⟨write, pkt_len_set_pkt_length large small, fits⟩, rfl, ?_⟩
  intro address outside
  rw [pktSize, pktHdrSize] at outside
  rw [set_pkt_length_data large, store_other]
  · have flag : (queue.pwrite + 0) % queue.size ≠ address := outside 0 (by omega)
    rw [add_zero, Nat.mod_eq_of_lt write] at flag
    change copyIn queue.data queue.pwrite [pktFree] address = _
    rw [copy_in_flag, Function.update_of_ne flag.symm]
  · intro idx within
    rw [length_le_bytes] at within
    have later := outside (1 + idx) (by omega)
    rwa [← add_assoc] at later

theorem assembled_placeable (formed : regs.WellFormed)
    (short : assembledLen ctx regs rmid info ≤ maxRecordLen) :
    Placeable regs (xLogRecordAssemble ctx regs rmid info) := by
  obtain ⟨_, _, layout, total⟩ := assemble_layout ctx rmid info formed
  have length : (xLogRecordAssemble ctx regs rmid info).header.xlTotLen.toNat = assembledLen ctx
    regs rmid info := by
    rw [total, UInt32.toNat_ofNat', Nat.mod_eq_of_lt]
    rw [maxRecordLen] at short
    omega
  constructor
  · exact length
  · rwa [length]
  · rw [← length_chain_bytes, layout.chain, length_append, length_chain_bytes, length_chain_bytes]
    exact Nat.le_add_left _ _

theorem finished_packet {reserved : Ringbuf} {pos : Nat} {bytes : List UInt8} {flag : UInt8}
    (opened : Opened reserved pos bytes.length) :
    pktLen (setPktFlag (putPayload reserved pos bytes) pos flag) pos = bytes.length ∧
      payload (setPktFlag (putPayload reserved pos bytes) pos flag) pos bytes.length = bytes := by
  have fits := opened.fits
  have position : pos < (putPayload reserved pos bytes).size := opened.position
  have large : pktHdrSize ≤ (putPayload reserved pos bytes).size := by
    change pktHdrSize ≤ reserved.size
    rw [pktSize] at fits
    omega
  constructor
  · rw [pkt_len_set_pkt_flag position large, pkt_len_put_payload fits, opened.length]
  · exact (payload_set_pkt_flag position fits).trans (payload_put_payload fits)

/-- The data that a push puts into its packet has exactly the reserved length: no write
fails, no byte outside the packet changes, every byte of its data is written and no
`PANIC` is reached, for every record whatever its resource manager, info byte and chunks. -/
theorem push_fills_reserved (ctx : InsertContext) (regs : Registered) (rmid info : UInt8)
    (prev : UInt64) (crc : UInt32) (endLsn : UInt64) (xlogLen : UInt32) (formed : regs.WellFormed)
    (short : assembledLen ctx regs rmid info ≤ maxRecordLen)
    (supplied : ((xLogRecordAssemble ctx regs rmid info).placed prev crc).carry.Supplied regs)
    {queue reserved : Ringbuf} {pos : Nat} (read : queue.pread < queue.size)
    (write : queue.pwrite < queue.size) (reservation : reserveXlogInsertLocation queue
      ((xLogRecordAssemble ctx regs rmid info).rbufLen regs prev crc) = some (reserved, pos)) :
    ∃ after : PushState, polarXlogSendQueuePush regs pos
          ((xLogRecordAssemble ctx regs rmid info).placed prev crc)
          ((xLogRecordAssemble ctx regs rmid info).rdata prev crc)
          ((xLogRecordAssemble ctx regs rmid info).rbufLen regs prev crc) endLsn xlogLen
          { queue := reserved, returned := [] } = .ok ((), after) ∧
      (∀ res ∈ after.returned, 0 ≤ res) ∧
      after.returned.sum = pktLen reserved pos ∧
      pktLen reserved pos = polarXlogReserveSize regs
        ((xLogRecordAssemble ctx regs rmid info).placed prev crc)
        (xLogRecordAssemble ctx regs rmid info).firstLen + polarXlogHeadSize ∧
      payload after.queue pos (pktLen reserved pos) =
        packetPayload regs (xLogRecordAssemble ctx regs rmid info) prev crc endLsn xlogLen ∧
      ∀ address, (∀ idx < pktSize (pktLen reserved pos), (pos + idx) % queue.size ≠ address) →
        after.queue.data address = queue.data address := by
  have placeable := @assembled_placeable ctx regs rmid info formed short
  generalize xLogRecordAssemble ctx regs rmid info = record at *
  have size : polarXlogReserveSize regs (record.placed prev crc) record.firstLen +
      polarXlogHeadSize = record.rbufLen regs prev crc + polarXlogHeadSize := by
    rw [rbuf_len_eq placeable, polarXlogReserveSize, reserve_data_size]
    rfl
  have filled : (packetPayload regs record prev crc endLsn xlogLen).length =
      record.rbufLen regs prev crc + polarXlogHeadSize := length_packet_payload placeable supplied
  obtain ⟨opened, same, untouched⟩ := reservation_spec read write (rbuf_len_lt placeable)
    reservation
  obtain ⟨_, run, positive, sum⟩ := @push_spec regs record prev endLsn crc xlogLen reserved pos
    placeable supplied opened
  rw [opened.length]
  refine ⟨_, run, positive, ?_, size.symm, ?_, ?_⟩
  · rw [sum, filled]
  · rw [← filled] at opened ⊢
    exact (finished_packet opened).2
  · intro address outside
    rw [← untouched address outside]
    have flag : pos ≠ address := by
      have first := outside 0 (by rw [pktSize, pktHdrSize]; omega)
      rwa [add_zero, ← same, Nat.mod_eq_of_lt opened.position] at first
    change copyIn (putPayload reserved pos _).data pos [pktWalMeta ||| pktReady] address = _
    rw [copy_in_flag, Function.update_of_ne flag.symm, put_payload_other]
    intro idx _
    have later := outside (pktHdrSize + idx) (by rw [pktSize]; omega)
    rwa [same, add_assoc]

def plainContext : InsertContext :=
  { redoRecPtr := 0, doPageWrites := false, walConsistencyChecking := fun _ => false
    walCompression := none, compress := fun _ _ => none, includeOrigin := false, sessionOrigin := 0
    topXidLogPending := false, topXid := 0, currentXid := 7, crc := fun _ => 0 }

def plainBuffer : RegisteredBuffer :=
  { inUse := true, flags := 0, rnode := ⟨1, 2, 3⟩, forkno := .main, block := 9, page := fun _ => 0,
    rdataLen := 2, rdata := [XLogRecData.ofBytes [0xAA, 0xBB]] }

/-- One buffer, and `main` as the only chunk of main data. -/
def oneBlock (main : List UInt8) : Registered :=
  { buffers := [plainBuffer], mainrdata := [XLogRecData.ofBytes main], staleHead := none }

theorem one_block_well_formed (main : List UInt8) : (oneBlock main).WellFormed := by
  have only : ∀ regbuf ∈ (oneBlock main).buffers, regbuf = plainBuffer := fun _ mem =>
    mem_singleton.mp mem
  constructor
  · exact Nat.le_of_ble_eq_true rfl
  · intro regbuf mem
    rw [only regbuf mem]
    rfl
  · intro regbuf mem
    rw [only regbuf mem]
    exact Nat.le_of_ble_eq_true rfl

def emptyQueue : Ringbuf :=
  init { pread := 0, pwrite := 0, refNum := 0, occupied := fun _ => false,
         slot := fun _ => Slot.zero, minVisit := 0, size := 0, data := fun _ => 0 } 200

theorem one_block_supplied (main : List UInt8) (carry : Carry) : carry.Supplied (oneBlock main) :=
  fun _ => by simp [oneBlock, Registered.mainrdataHead]

abbrev oneRecord (main : List UInt8) (rmid info : UInt8) : AssembledRecord :=
  xLogRecordAssemble plainContext (oneBlock main) rmid info

theorem one_block_reserved (main : List UInt8) (rmid info : UInt8)
    (room : (reserveXlogInsertLocation emptyQueue
      ((oneRecord main rmid info).rbufLen (oneBlock main) 0 0)).isSome = true) :
    ∃ reserved pos, reserveXlogInsertLocation emptyQueue
      ((oneRecord main rmid info).rbufLen (oneBlock main) 0 0) = some (reserved, pos) := by
  obtain ⟨⟨reserved, pos⟩, reservation⟩ := Option.isSome_iff_exists.mp room
  exact ⟨reserved, pos, reservation⟩

/-- The record with this main data is pushed into an empty queue. -/
def PushesOne (main : List UInt8) (rmid info : UInt8) (reserved : Ringbuf) (pos : Nat)
    (after : PushState) : Prop :=
  reserveXlogInsertLocation emptyQueue ((oneRecord main rmid info).rbufLen (oneBlock main) 0 0) =
      some (reserved, pos) ∧
    polarXlogSendQueuePush (oneBlock main) pos ((oneRecord main rmid info).placed 0 0)
      ((oneRecord main rmid info).rdata 0 0)
      ((oneRecord main rmid info).rbufLen (oneBlock main) 0 0)
      1000 56 { queue := reserved, returned := [] } = .ok ((), after)

theorem push_fills_reserved_heap_insert : ∃ reserved pos after,
    PushesOne [1, 2, 3] rmHeap heapInsert reserved pos after ∧
      after.returned.sum = pktLen reserved pos := by
  obtain ⟨reserved, pos, reservation⟩ := one_block_reserved [1, 2, 3] rmHeap heapInsert (by decide)
  obtain ⟨after, run, -, sum, -⟩ := push_fills_reserved plainContext (oneBlock [1, 2, 3]) rmHeap
    heapInsert 0 0 1000 56 (one_block_well_formed _) (by decide) (one_block_supplied _ _)
    (by decide)
    (by decide) reservation
  exact ⟨reserved, pos, after, ⟨reservation, run⟩, sum⟩

end Packet

end PolarDB.Xlog
