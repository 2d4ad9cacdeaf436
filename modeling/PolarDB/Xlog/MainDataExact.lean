import PolarDB.Xlog.MainData

/-!
# The queue carries what the routines read

Every routine stays within the part of the main data that `carry` gives for its record, with
two exceptions: conflict resolution for GiST deletions and page reuse, whose packets carry
nothing, and the mappings of a heap rewrite, of which only the fixed part is carried.
-/

namespace PolarDB.Xlog

open List Lib.Bytes Lib.Circular Lib.Pointer RingBuf

/-- The packet holds at least the first `reach` bytes of the main data. -/
def Carry.Covers (reach : Nat) : Carry → Prop
  | nothing => reach = 0
  | leading dlen => reach ≤ dlen
  | whole => True

/-- The main data as a routine sees it. -/
def DecodedXLogRecord.mainDataBlock (decoded : DecodedXLogRecord) : Option (List UInt8) :=
  decoded.mainData.map Fragment.bytes

/-- The first chunk of main data holds the fixed part, as its callers register it. -/
def FixedPartFirst (regs : Registered) (carry : Carry) : Prop :=
  ∀ dlen head, carry = .leading dlen → regs.mainrdata.head? = some head → dlen ≤ head.len

section Carried
variable {regs : Registered}

theorem take_first_chunk {head : XLogRecData} {dlen : Nat}
    (found : regs.mainrdata.head? = some head) (enough : dlen ≤ head.len) :
    (chainBytes regs.mainrdata).take dlen = head.read dlen := by
  obtain ⟨rest, list⟩ := List.head?_eq_some_iff.mp found
  have length : dlen ≤ head.bytes.length := by rwa [XLogRecData.length_bytes]
  rw [list]
  change (head.bytes ++ chainBytes rest).take dlen = head.read dlen
  rw [take_append_of_le_length length]
  exact (read_take head enough).symm

theorem carried {carry : Carry} {beyond : Nat → UInt8} {queued : DecodedXLogRecord}
    {overrun reach : Nat} (fetched : Fetched regs carry beyond queued overrun)
    (fixed : FixedPartFirst regs carry) (covers : carry.Covers reach) :
    (chainBytes regs.mainrdata).take reach <+: contents queued.mainDataBlock := by
  change _ <+: queued.mainDataBytes
  rw [fetched.mainData]
  cases carry with
  | nothing =>
    rw [covers, take_zero]
    exact nil_prefix
  | leading dlen =>
    cases found : regs.mainrdata.head? with
    | none =>
      have empty : regs.mainrdata = [] := List.head?_eq_none_iff.mp found
      rw [empty]
      change ([] : List UInt8).take reach <+: _
      rw [take_nil]
      exact nil_prefix
    | some head =>
      have first : regs.mainrdataHead = some head := by
        obtain ⟨_, list⟩ := List.head?_eq_some_iff.mp found
        rw [Registered.mainrdataHead, list]
      have pushed : (Carry.leading dlen).data regs = (chainBytes regs.mainrdata).take dlen := by
        rw [take_first_chunk found (fixed dlen head rfl found), Carry.data, first]
        rfl
      rw [pushed]
      have shorter : (chainBytes regs.mainrdata).take reach <+:
        (chainBytes regs.mainrdata).take dlen :=
        take_prefix_take_left covers
      exact shorter.trans (prefix_append _ _)
  | whole => exact (List.take_prefix _ _).trans (prefix_append _ _)

end Carried

section Reach

theorem within_among (reach : Nat) (ops : List UInt8) (info : UInt8) :
    Within reach (among ops info) := by
  unfold among
  split_ifs
  · exact within_pure _ _
  · exact within_raise _ _

theorem within_flags {offset reach : Nat} (inside : offset < reach) :
    Within reach (flagsAt offset) :=
  (within_field inside).bind fun _ => within_pure _ _

variable {reach : Nat}

theorem within_conflict_xid (inside : 4 ≤ reach) (standby : Standby) (res : Nat → MainDataUse) :
    Within reach (conflictXid standby res) := by
  unfold conflictXid
  split_ifs
  · exact (within_field inside).bind fun _ => within_pure _ _
  · exact within_pure _ _

theorem within_conflict_reuse (inside : 24 ≤ reach) (standby : Standby) (xid : Nat → Nat) :
    Within reach (conflictReuse standby xid) := by
  have node : Within reach readNode := by
    apply (within_field (by omega)).bind
    intro _
    apply (within_field (by omega)).bind
    intro _
    exact (within_field (by omega)).bind fun _ => within_pure _ _
  unfold conflictReuse
  split_ifs
  · apply (within_field (by omega)).bind
    intro _
    exact node.bind fun _ => within_pure _ _
  · exact within_pure _ _

/-- A routine stays within what the packet of its record carries. -/
def Fits (carry : Carry) (routine : Routine) : Prop := ∃ reach, carry.Covers reach ∧
    Within reach routine

variable {routine : Routine}

theorem fits_leading {dlen : Nat} (within : Within dlen routine) : Fits (.leading dlen) routine :=
  ⟨dlen, le_refl dlen, within⟩

theorem fits_whole (within : Within reach routine) : Fits .whole routine := ⟨reach, trivial, within⟩

theorem fits_blind {carry : Carry} (within : Within 0 routine) : Fits carry routine := by
  refine ⟨0, ?_, within⟩
  cases carry with
  | nothing => rfl
  | leading dlen => exact Nat.zero_le dlen
  | whole => trivial

theorem fits_among (carry : Carry) (ops : List UInt8) (info : UInt8) :
    Fits carry (among ops info) :=
  fits_blind (within_among 0 ops info)

theorem fits_heap (info : UInt8) : Fits (heapCarry (info &&& heapOpMask)) (heapIdx info) := by
  unfold heapCarry heapIdx
  dsimp only
  split_ifs
  · exact fits_leading (within_flags (by decide))
  · exact fits_leading (within_flags (by decide))
  · exact fits_leading (within_flags (by decide))
  · exact fits_leading (within_flags (by decide))
  · exact fits_among _ _ _

theorem fits_heap2_save (info : UInt8) : Fits (heap2Carry (info &&& heapOpMask))
    (polarHeap2IdxSave info) := by
  unfold polarHeap2IdxSave
  dsimp only
  split_ifs with multi lock
  · rw [multi]
    exact fits_leading (within_flags (by decide))
  · rw [lock]
    exact fits_leading (within_flags (by decide))
  · exact fits_among _ _ _

theorem fits_heap2_parse (standby : Standby) {info : UInt8}
    (other : info &&& heapOpMask ≠ heap2Rewrite) : Fits (heap2Carry (info &&& heapOpMask))
    (polarHeap2IdxParse standby info) := by
  unfold polarHeap2IdxParse
  dsimp only
  split_ifs with prune freeze visible multi lock
  · rw [prune]
    exact fits_leading (within_conflict_xid (by decide) _ _)
  · rw [freeze]
    exact fits_leading (within_conflict_xid (by decide) _ _)
  · rw [visible]
    exact fits_leading (within_conflict_xid (by decide) _ _)
  · rw [multi]
    exact fits_leading (within_flags (by decide))
  · rw [lock]
    exact fits_leading (within_flags (by decide))
  · exact fits_among _ _ _

section
variable (standby : Standby) (info : UInt8)

theorem fits_btree_parse : Fits (carry rmBtree info) (polarBtreeIdxParse standby info) := by
  change Fits (if info = btreeDelete ∨ info = btreeReusePage then .whole else .nothing) _
  unfold polarBtreeIdxParse
  split_ifs with carries delete reuse delete reuse
  · exact fits_whole (within_conflict_xid (le_refl 4) _ _)
  · exact fits_whole (within_conflict_reuse (le_refl 24) _ _)
  · exact fits_among _ _ _
  · exact absurd (.inl delete) carries
  · exact absurd (.inr reuse) carries
  · exact fits_among _ _ _

theorem fits_hash_parse : Fits (carry rmHash info) (polarHashIdxParse standby info) := by
  change Fits (if info = hashVacuumOnePage then .whole else .nothing) _
  unfold polarHashIdxParse
  split_ifs
  · exact fits_whole (within_conflict_xid (le_refl 4) _ _)
  · exact fits_among _ _ _

theorem fits_spgist_parse : Fits (carry rmSpgist info) (polarSpgIdxParse standby info) := by
  change Fits (if info = spgistVacuumRedirect then .leading sizeOfSpgVacuumRedirect else .nothing) _
  unfold polarSpgIdxParse polarSpgRedoVacuumParse
  split_ifs
  · exact fits_leading ((within_field (by decide)).bind fun _ => within_pure _ _)
  · exact fits_blind (within_pure _ _)
  · exact fits_among _ _ _

end

theorem fits_gist_parse {standby : Standby} {info : UInt8}
    (calm : ¬ (standby.conflict = true ∧ (info = gistDelete ∨ info = gistPageReuse))) :
    Fits (carry rmGist info) (polarGistIdxParse standby info) := by
  unfold polarGistIdxParse conflictXid conflictReuse
  split_ifs with delete conflict reuse conflict
  · exact absurd ⟨conflict, .inl delete⟩ calm
  · exact fits_blind (within_pure _ _)
  · exact absurd ⟨conflict, .inr reuse⟩ calm
  · exact fits_blind (within_pure _ _)
  · exact fits_among _ _ _

theorem fits_xlog_save (info : UInt8) : Fits (carry rmXlog info) (polarXlogIdxSave info) := by
  change Fits (if info = polarWal then .whole else .nothing) _
  unfold polarXlogIdxSave
  split_ifs
  · exact fits_whole ((within_field (le_refl 4)).bind fun _ => within_pure _ _)
  · exact fits_blind (within_pure _ _)

theorem within_fullpage_no (walType : Nat) : Within 12 (fullpageNo walType) := by
  unfold fullpageNo
  split_ifs
  · exact (within_field (le_refl 12)).bind fun _ => within_pure _ _
  · exact within_pure _ _

theorem fits_xlog_parse (info : UInt8) : Fits (carry rmXlog info) (polarXlogIdxParse info) := by
  change Fits (if info = polarWal then .whole else .nothing) _
  unfold polarXlogIdxParse
  split_ifs
  · exact fits_blind (within_pure _ _)
  · exact fits_whole ((within_field (by decide)).bind within_fullpage_no)
  · exact fits_blind (within_pure _ _)
  · exact fits_blind (within_pure _ _)

end Reach

section Records

/-- A GiST deletion or page reuse on a replica that resolves conflicts. -/
def GistConflict (call : Call) (record : XLogRecord) : Prop :=
  match call with
  | .save => False
  | .parse standby => record.xlRmid = rmGist ∧ standby.conflict = true ∧
      (rmgrInfo record = gistDelete ∨ rmgrInfo record = gistPageReuse)

def Rewrites (call : Call) (record : XLogRecord) : Prop :=
  match call with
  | .save => False
  | .parse _ => record.xlRmid = rmHeap2 ∧ rmgrInfo record &&& heapOpMask = heap2Rewrite

variable {record : XLogRecord}

section
variable (removed : polarXlogRemovePayload record = true)
include removed

theorem removed_rmid :
    record.xlRmid = rmHeap ∨ record.xlRmid = rmHeap2 ∨ record.xlRmid = rmBtree ∨
      record.xlRmid = rmHash ∨ record.xlRmid = rmGin ∨ record.xlRmid = rmGist ∨
      record.xlRmid = rmSeq ∨ record.xlRmid = rmSpgist ∨ record.xlRmid = rmBrin ∨
      record.xlRmid = rmGeneric ∨ record.xlRmid = rmXlog := by
  unfold polarXlogRemovePayload at removed
  dsimp only at removed
  split_ifs at removed with kinds xlog info
  · tauto
  · tauto

theorem fits_save : Fits record.carry (polarIdxRoutine .save record) := by
  unfold XLogRecord.carry polarIdxRoutine
  rcases removed_rmid removed with
    rmid | rmid | rmid | rmid | rmid | rmid | rmid | rmid | rmid | rmid | rmid
  all_goals rw [rmid]
  · exact fits_heap _
  · exact fits_heap2_save _
  · exact fits_among _ _ _
  · exact fits_among _ _ _
  · exact fits_among _ _ _
  · exact fits_among _ _ _
  · exact fits_among _ _ _
  · exact fits_among _ _ _
  · exact fits_among _ _ _
  · exact fits_blind (within_pure _ _)
  · exact fits_xlog_save _

theorem fits_parse {standby : Standby}
    (calm : ¬ GistConflict (.parse standby) record) (other : ¬ Rewrites (.parse standby) record) :
    Fits record.carry (polarIdxRoutine (.parse standby) record) := by
  unfold GistConflict at calm
  unfold Rewrites at other
  unfold XLogRecord.carry polarIdxRoutine
  rcases removed_rmid removed with
    rmid | rmid | rmid | rmid | rmid | rmid | rmid | rmid | rmid | rmid | rmid
  all_goals rw [rmid] at calm other ⊢
  · exact fits_heap _
  · exact fits_heap2_parse standby fun rewrites => other ⟨rfl, rewrites⟩
  · exact fits_btree_parse standby _
  · exact fits_hash_parse standby _
  · exact fits_among _ _ _
  · exact fits_gist_parse fun conflict => calm ⟨rfl, conflict⟩
  · exact fits_among _ _ _
  · exact fits_spgist_parse standby _
  · exact fits_among _ _ _
  · exact fits_blind (within_pure _ _)
  · exact fits_xlog_parse _

end

theorem gist_conflict_fails {call : Call} {block : Option (List UInt8)} {use : MainDataUse}
    (conflict : GistConflict call record) (empty : contents block = []) :
    polarIdxRoutine call record block ≠ .ok use := by
  have unreadable : ∀ {offset width value : Nat}, 0 < width →
      (field offset width : Access RoutineError Nat) block ≠ .ok value := by
    intro _ _ _ positive succeeded
    obtain ⟨bound, -⟩ := (field_eq_ok positive).mp succeeded
    rw [empty, length_nil] at bound
    omega
  cases call with
  | save => exact conflict.elim
  | parse standby =>
    obtain ⟨gist, resolves, delete | reuse⟩ := conflict
    · have routine : polarIdxRoutine (.parse standby) record = conflictXid standby .conflict := by
        unfold polarIdxRoutine
        rw [gist, delete]
        rfl
      rw [routine, conflictXid, if_pos resolves]
      intro succeeded
      obtain ⟨_, read, -⟩ := access_bind.mp succeeded
      exact unreadable (by decide) read
    · have routine : polarIdxRoutine (.parse standby) record = conflictReuse standby id := by
        unfold polarIdxRoutine
        rw [gist, reuse]
        rfl
      rw [routine, conflictReuse, if_pos resolves]
      intro succeeded
      obtain ⟨_, read, -⟩ := access_bind.mp succeeded
      exact unreadable (by decide) read

/-- The number of mappings that the fixed part of a heap rewrite announces. -/
def numMappings (main : List UInt8) : Nat := leNat ((main.drop 24).take 4)

/-- With the fixed part alone the rewrite is read if there is no mapping behind it. -/
theorem rewrite_iff {block part : Option (List UInt8)} {use : MainDataUse}
    (succeeded : heapXlogLogicalRewrite block = .ok use)
    (carried : (contents block).take sizeOfHeapRewriteMapping <+: contents part)
    (length : (contents part).length = sizeOfHeapRewriteMapping) :
    heapXlogLogicalRewrite part = .ok use ↔ mappingsLen (numMappings (contents block)) = 0 := by
  have same : ∀ {offset width value : Nat}, offset + width ≤ sizeOfHeapRewriteMapping →
      (field offset width : Access RoutineError Nat) block = .ok value →
      (field offset width : Access RoutineError Nat) part = .ok value := by
    intro offset _ value inside
    exact within_field inside block part value carried
  rw [heapXlogLogicalRewrite] at succeeded ⊢
  simp only [access_bind] at succeeded ⊢
  obtain ⟨db, readDb, rel, readRel, startLsn, readStart, xid, readXid, offset, readOffset, count,
    readCount, data, readData, res⟩ := succeeded
  have counted : count = numMappings (contents block) := ((field_eq_ok (by decide)).mp readCount).2
  rw [← counted]
  constructor
  · rintro ⟨-, -, -, -, -, -, -, -, -, -, count', readCount', _, readData', -⟩
    have sameCount : count = count' := by
      have there := same (by decide) readCount
      rw [readCount'] at there
      exact (Except.ok.inj there).symm
    rw [← sameCount] at readData'
    by_contra some
    obtain ⟨_, -⟩ := (bytes_eq_ok (pos_of_ne_zero some)).mp readData'
    omega
  · intro none
    have nothing : ∀ block : Option (List UInt8),
        (bytes sizeOfHeapRewriteMapping (mappingsLen count) : Access RoutineError (List UInt8))
        block = .ok [] := by
      intro _
      unfold Lib.Pointer.bytes
      rw [if_pos none]
    have empty : data = [] := by
      rw [nothing] at readData
      exact (Except.ok.inj readData).symm
    refine ⟨db, same (by decide) readDb, rel, same (by decide) readRel, startLsn,
      same (by decide) readStart, xid,
      same (by decide) readXid, offset, same (by decide) readOffset, count,
      same (by decide) readCount, [],
      nothing part, ?_⟩
    rw [empty] at res
    exact res

end Records

section Queue

def Starved (call : Call) (record : XLogRecord) (main : List UInt8) : Prop :=
  GistConflict call record ∨ Rewrites call record ∧ mappingsLen (numMappings main) ≠ 0

variable {regs : Registered}
variable {call : Call}

section
variable {record : XLogRecord}

theorem gist_carries_nothing (conflict : GistConflict call record) : record.carry = .nothing := by
  cases call with
  | save => exact conflict.elim
  | parse =>
    rw [XLogRecord.carry, conflict.1]
    rfl

theorem rewrite_carries_fixed (rewrites : Rewrites call record) :
    record.carry = .leading sizeOfHeapRewriteMapping := by
  cases call with
  | save => exact rewrites.elim
  | parse =>
    rw [XLogRecord.carry, rewrites.1]
    change heap2Carry (rmgrInfo record &&& heapOpMask) = _
    rw [rewrites.2]
    rfl

theorem rewrite_routine (rewrites : Rewrites call record) :
    polarIdxRoutine call record = heapXlogLogicalRewrite := by
  cases call with
  | save => exact rewrites.elim
  | parse =>
    unfold polarIdxRoutine
    rw [rewrites.1]
    unfold polarHeap2IdxParse
    dsimp only
    rw [rewrites.2]
    rfl

/-- What the routine makes of the packet, given what it makes of the record's main data. -/
theorem routine_of_fetched {beyond : Nat → UInt8} {queued : DecodedXLogRecord} {overrun : Nat}
    {use : MainDataUse} (removed : polarXlogRemovePayload record = true)
    (fetched : Fetched regs record.carry beyond queued overrun)
    (supplied : record.carry.Supplied regs) (fixed : FixedPartFirst regs record.carry)
    (succeeded : polarIdxRoutine call record (some (chainBytes regs.mainrdata)) = .ok use) :
    polarIdxRoutine call record queued.mainDataBlock = .ok use ↔
    ¬ Starved call record (chainBytes regs.mainrdata) := by
  by_cases conflict : GistConflict call record
  · have empty : contents queued.mainDataBlock = [] := by
      change queued.mainDataBytes = []
      rw [fetched.mainData, gist_carries_nothing conflict]
      rfl
    exact iff_of_false (gist_conflict_fails conflict empty) (not_not.mpr (.inl conflict))
  by_cases rewrites : Rewrites call record
  · have leading := rewrite_carries_fixed rewrites
    have reaches : record.carry.Covers sizeOfHeapRewriteMapping := by
      rw [leading]
      exact le_rfl
    have length : (contents queued.mainDataBlock).length = sizeOfHeapRewriteMapping := by
      change queued.mainDataBytes.length = _
      obtain ⟨_, found⟩ := Option.ne_none_iff_exists'.mp (supplied (by rw [leading]; simp))
      rw [fetched.mainData, leading, Carry.overrun, Carry.announced, Carry.data, found]
      simp
    rw [rewrite_routine rewrites] at succeeded ⊢
    rw [rewrite_iff succeeded (carried fetched fixed reaches) length, Starved]
    tauto
  · have fits : Fits record.carry (polarIdxRoutine call record) := by
      cases call with
      | save => exact fits_save removed
      | parse => exact fits_parse removed conflict rewrites
    obtain ⟨_, covers, within⟩ := fits
    have same := within (some (chainBytes regs.mainrdata)) queued.mainDataBlock use
      (carried fetched fixed covers) succeeded
    apply iff_of_true same
    rintro (starved | starved)
    · exact conflict starved
    · exact rewrites starved.1

end

/-- For every record whose payload is removed, both routines of its resource manager get from
the decoded packet what they get from the main data of the record, exactly unless they resolve
a conflict for a GiST deletion or page reuse or replay the mappings of a heap rewrite. -/
theorem routines_read_queued (ctx : InsertContext) (regs : Registered) (rmid info : UInt8)
    (prev : UInt64) (crc : UInt32) (endLsn : UInt64) (xlogLen : UInt32) (formed : regs.WellFormed)
    (short : assembledLen ctx regs rmid info ≤ maxRecordLen)
    (supplied : ((xLogRecordAssemble ctx regs rmid info).placed prev crc).carry.Supplied regs)
    (fixed : FixedPartFirst regs ((xLogRecordAssemble ctx regs rmid info).placed prev crc).carry)
    (removed :
      polarXlogRemovePayload ((xLogRecordAssemble ctx regs rmid info).placed prev crc) = true)
    {queue reserved : Ringbuf} {pos : Nat} (read : queue.pread < queue.size)
    (write : queue.pwrite < queue.size) (reservation : reserveXlogInsertLocation queue
      ((xLogRecordAssemble ctx regs rmid info).rbufLen regs prev crc) = some (reserved, pos))
    (saveXlogMeta : Bool) (memory : DecodedXLogRecord) (beyond : Nat → UInt8) (lsn : UInt64)
    (call : Call) {use : MainDataUse}
    (succeeded : polarIdxRoutine call ((xLogRecordAssemble ctx regs rmid info).placed prev crc)
      (some (chainBytes regs.mainrdata)) = .ok use) :
    ∃ (after : PushState) (queued : DecodedXLogRecord) (overrun : Nat),
      polarXlogSendQueuePush regs pos ((xLogRecordAssemble ctx regs rmid info).placed prev crc)
          ((xLogRecordAssemble ctx regs rmid info).rdata prev crc)
          ((xLogRecordAssemble ctx regs rmid info).rbufLen regs prev crc) endLsn xlogLen
          { queue := reserved, returned := [] } = .ok ((), after) ∧
      polarXlogQueueDecode saveXlogMeta memory
          ((payload after.queue pos (pktLen after.queue pos)).drop polarXlogHeadSize)
          beyond lsn true = .ok (queued, overrun) ∧
      (polarIdxRoutine call ((xLogRecordAssemble ctx regs rmid info).placed prev crc)
        queued.mainDataBlock = .ok use ↔
        ¬ Starved call ((xLogRecordAssemble ctx regs rmid info).placed prev crc)
          (chainBytes regs.mainrdata)) := by
  obtain ⟨after, _, queued, overrun, run, -, queueRun, -, fetched, -⟩ :=
    queue_transfer rfl formed short supplied
    read write reservation endLsn xlogLen saveXlogMeta memory memory beyond lsn
  exact ⟨after, queued, overrun, run, queueRun,
    routine_of_fetched removed (fetched removed) supplied fixed succeeded⟩

theorem one_block_fixed {main : List UInt8} {carry : Carry}
    (enough : ∀ dlen, carry = .leading dlen → dlen ≤ main.length) :
    FixedPartFirst (oneBlock main) carry := by
  intro dlen head leading first
  have only : XLogRecData.ofBytes main = head := Option.some.inj first
  rw [← only]
  exact enough dlen leading

theorem routines_read_queued_heap_insert : ∃ reserved pos after queued overrun,
    PushesOne [1, 2, 3] rmHeap heapInsert reserved pos after ∧
    polarXlogQueueDecode false blankRecord
        ((payload after.queue pos (pktLen after.queue pos)).drop polarXlogHeadSize)
      (fun _ => 0) 1000 true = .ok (queued, overrun) ∧
    polarIdxRoutine .save ((oneRecord [1, 2, 3] rmHeap heapInsert).placed 0 0)
      queued.mainDataBlock = .ok (.flags 3) := by
  obtain ⟨reserved, pos, reservation⟩ := one_block_reserved [1, 2, 3] rmHeap heapInsert (by decide)
  obtain ⟨after, queued, overrun, run, queueRun, reads⟩ :=
    routines_read_queued plainContext (oneBlock [1, 2, 3])
    rmHeap heapInsert 0 0 1000 56 (one_block_well_formed _) (by decide) (one_block_supplied _ _)
    (one_block_fixed fun dlen leading => (Carry.leading.inj leading).symm.le) (by decide)
      (by decide) (by decide)
    reservation false blankRecord (fun _ => 0) 1000 .save rfl
  exact ⟨reserved, pos, after, queued, overrun, ⟨reservation, run⟩, queueRun,
    reads.mpr fun starved => starved.elim id fun rewrites => rewrites.1⟩

/-- The conflict point of a GiST deletion that removes one tuple. -/
theorem gist_delete_not_carried : ∃ reserved pos after queued overrun,
    PushesOne [7, 0, 0, 0, 1, 0] rmGist gistDelete reserved pos after ∧
    polarXlogQueueDecode false blankRecord
        ((payload after.queue pos (pktLen after.queue pos)).drop polarXlogHeadSize)
      (fun _ => 0) 1000 true = .ok (queued, overrun) ∧
    polarIdxRoutine (.parse ⟨true, true, true⟩)
        ((oneRecord [7, 0, 0, 0, 1, 0] rmGist gistDelete).placed 0 0)
        (some [7, 0, 0, 0, 1, 0]) = .ok (.conflict 7) ∧
    ∀ use, polarIdxRoutine (.parse ⟨true, true, true⟩)
        ((oneRecord [7, 0, 0, 0, 1, 0] rmGist gistDelete).placed 0 0)
        queued.mainDataBlock ≠ .ok use := by
  obtain ⟨reserved, pos, reservation⟩ := one_block_reserved [7, 0, 0, 0, 1, 0] rmGist gistDelete
    (by decide)
  obtain ⟨after, _, queued, overrun, run, -, queueRun, -, fetched, -⟩ := queue_transfer rfl
    (one_block_well_formed _) (by decide) (one_block_supplied _ _) (by decide) (by decide)
    reservation
    1000 56 false blankRecord blankRecord (fun _ => 0) 1000
  have empty : contents queued.mainDataBlock = [] := (fetched (by decide)).mainData
  refine ⟨reserved, pos, after, queued, overrun, ⟨reservation, run⟩, queueRun, rfl, ?_⟩
  intro _
  exact gist_conflict_fails ⟨by decide, rfl, .inl (by decide)⟩ empty

end Queue

end PolarDB.Xlog
