import PolarDB.LogIndex.SnapshotRep

/-!
# Every operation keeps the representation

One lemma per thing that can happen to the memory ring, then the specs of
`log_index_write_table`, `log_index_wait_active`, `log_index_insert_lsn`, the flush
loop and `log_index_read_table`. None of them stops with an error in a represented
snapshot.
-/

namespace PolarDB.LogIndex

open Function List Lib.Linked Lib.Bloom

variable {Tag : Type} {cfg : Config Tag} {tabs front after : List (List (LogIndexLsn Tag))}
  {entries : List (LogIndexLsn Tag)} {info : LogIndexLsn Tag} {saved slot tid : Nat}

theorem segment_of_succ (tid : Nat) : segmentNo (tid + 1) = tid / tableNumPerFile ∧
    segmentOffset (tid + 1) = tid % tableNumPerFile := by
  exact ⟨rfl, rfl⟩

theorem write_at_getElem? (file : List (LogIdxTableData Tag)) {offset : Nat}
    (noGap : offset ≤ file.length) (table : LogIdxTableData Tag) (idx : Nat) :
    (writeAt file offset table)[idx]? = if idx = offset then some table else file[idx]? := by
  unfold writeAt
  by_cases inside : offset < file.length
  · rw [if_pos inside, List.getElem?_set]
    by_cases same : offset = idx
    · rw [if_pos same, if_pos inside, if_pos same.symm]
    · rw [if_neg same, if_neg (Ne.symm same)]
  have atEnd : offset = file.length := by omega
  rw [if_neg inside, atEnd, Nat.sub_self, replicate_zero, append_nil]
  split_ifs with same
  · rw [same, List.getElem?_concat_length]
  · rw [List.getElem?_append]
    split_ifs
    · rfl
    · rw [List.getElem?_eq_none (by simp; omega), List.getElem?_eq_none (by omega)]

theorem take_succ_flatten {idx : Nat} (found : tabs[idx]? = some entries) :
    (tabs.take (idx + 1)).flatten = (tabs.take idx).flatten ++ entries := by
  rw [take_add_one, found]
  simp

theorem LogRep.take_sorted (rep : LogRep tabs) {idx : Nat} (found : tabs[idx]? = some entries) :
    ∀ earlier ∈ (tabs.take idx).flatten, ∀ later ∈ entries, earlier.lsn ≤ later.lsn := by
  have sorted := rep.sorted
  have split : tabs.flatten = (tabs.take idx).flatten ++ entries ++
    (tabs.drop (idx + 1)).flatten := by
    rw [← take_succ_flatten found, ← flatten_append, take_append_drop]
  rw [split, pairwise_append, pairwise_append] at sorted
  exact sorted.1.2.2

theorem write_meta_fields (written : Snapshot Tag) (indexMeta : LogIndexMeta) :
    (polarLogIndexWriteMeta written indexMeta).indexMeta = { indexMeta with
        startLsn := if indexMeta.maxLsn ≠ invalidLsn then indexMeta.maxLsn
        else indexMeta.startLsn } := by
  unfold polarLogIndexWriteMeta
  split_ifs <;> rfl

theorem getLastD_append_max (left right : List Nat)
    (ordered : ∀ low ∈ left, ∀ high ∈ right, low ≤ high) :
    (left ++ right).getLastD 0 = max (left.getLastD 0) (right.getLastD 0) := by
  by_cases empty : right = []
  · rw [empty, append_nil]
    exact (Nat.max_zero _).symm
  · rw [getLastD_append_nonempty left right 0 empty]
    by_cases none : left = []
    · rw [none]
      exact (Nat.zero_max _).symm
    · exact (max_eq_right (ordered _ (getLastD_mem none) _ (getLastD_mem empty))).symm

theorem meta_after_save_segment {old : LogIndexMeta} (first : old.minSegmentInfo.segmentNo = 0)
    (tid maxLsn : Nat) : (metaAfterSave old tid maxLsn).minSegmentInfo.segmentNo = 0 ∧
      (metaAfterSave old tid maxLsn).minSegmentInfo.minIdxTableId =
        if segmentNo tid = 0 then 1 else old.minSegmentInfo.minIdxTableId := by
  simp only [metaAfterSave, first, Nat.zero_min]
  by_cases inFirst : segmentNo tid = 0
  · rw [if_pos inFirst.symm, if_pos inFirst]
    exact ⟨rfl, rfl⟩
  · rw [if_neg (Ne.symm inFirst), if_neg inFirst]
    exact ⟨rfl, rfl⟩

theorem MetaRep.save {indexMeta : LogIndexMeta} (rep : MetaRep tabs indexMeta) (logOk : LogRep tabs)
    (found : tabs[indexMeta.maxIdxTableId]? = some entries) (written : Snapshot Tag) {maxLsn : Nat}
    (bound : maxLsn = (entries.map LogIndexLsn.lsn).getLastD invalidLsn) :
    MetaRep tabs (polarLogIndexWriteMeta written
      (metaAfterSave indexMeta (indexMeta.maxIdxTableId + 1) maxLsn)).indexMeta := by
  have inside := (List.getElem?_eq_some_iff.mp found).1
  have last : max indexMeta.maxLsn maxLsn =
      ((tabs.take (indexMeta.maxIdxTableId + 1)).flatten.map LogIndexLsn.lsn).getLastD
      invalidLsn := by
    rw [take_succ_flatten found, map_append, rep.maxLsn, bound]
    symm
    apply getLastD_append_max
    intro _ lowIn _ highIn
    rcases mem_map.mp lowIn with ⟨earlier, earlierIn, rfl⟩
    rcases mem_map.mp highIn with ⟨later, laterIn, rfl⟩
    exact logOk.take_sorted found earlier earlierIn later laterIn
  have ids : max indexMeta.maxIdxTableId (indexMeta.maxIdxTableId + 1) = indexMeta.maxIdxTableId +
    1 := by omega
  have segment := meta_after_save_segment rep.segment (indexMeta.maxIdxTableId + 1) maxLsn
  rw [write_meta_fields]
  constructor
  · simp only [metaAfterSave, ids]
    exact inside
  · simp only [metaAfterSave, ids]
    exact last
  · have start := rep.startLsn
    simp only [metaAfterSave]
    split_ifs with valid
    · rfl
    · rw [not_not, invalidLsn] at valid
      omega
  · exact segment.1
  · rw [segment.2, rep.minId, (segment_of_succ _).1]
    simp only [metaAfterSave, ids, if_neg (Nat.succ_ne_zero _)]
    by_cases none : indexMeta.maxIdxTableId = 0
    · rw [none]
      rfl
    · rw [if_neg none, ite_self]

theorem MetaRep.of_same {indexMeta : LogIndexMeta} (rep : MetaRep tabs indexMeta)
    (same : ∀ idx < indexMeta.maxIdxTableId, after[idx]? = tabs[idx]?)
    (bound : indexMeta.maxIdxTableId ≤ after.length) : MetaRep after indexMeta := by
  have taken : after.take indexMeta.maxIdxTableId = tabs.take indexMeta.maxIdxTableId := by
    apply ext_getElem?
    intro idx
    rw [List.getElem?_take, List.getElem?_take]
    by_cases inside : idx < indexMeta.maxIdxTableId
    · rw [if_pos inside, if_pos inside, same idx inside]
    · rw [if_neg inside, if_neg inside]
  exact { rep with savedLe := bound, maxLsn := by rw [taken]; exact rep.maxLsn }

theorem LogRep.extend (rep : LogRep (front ++ [entries]))
    (latest : ∀ entry ∈ (front ++ [entries]).flatten, entry.lsn ≤ info.lsn) :
    LogRep (front ++ [entries ++ [info]]) where
  sorted := by
    have flat : (front ++ [entries ++ [info]]).flatten = (front ++ [entries]).flatten ++
      [info] := by
      simp
    rw [flat]
    exact Lib.Snoc.pairwise_snoc.mpr ⟨rep.sorted, latest⟩
  nonempty := by
    intro idx table found inside
    simp only [length_append, length_singleton] at inside
    rw [List.getElem?_append_left (by omega)] at found
    apply rep.nonempty idx table _ (by simpa using inside)
    rw [List.getElem?_append_left (by omega)]
    exact found

theorem LogRep.open_table (rep : LogRep tabs) (filled : tabs[tabs.length - 1]? ≠ some []) :
    LogRep (tabs ++ [[]]) where
  sorted := by simpa using rep.sorted
  nonempty := by
    intro idx table found inside
    simp only [length_append, length_singleton] at inside
    rw [List.getElem?_append_left (by omega)] at found
    by_cases last : idx = tabs.length - 1
    · intro empty
      rw [last, empty] at found
      exact filled found
    · exact rep.nonempty idx table found (by omega)

variable [DecidableEq Tag]

section Slots
variable {memTable : Nat → LogMemTable Tag} {table : LogMemTable Tag}

section
variable (rep : MemRep cfg tabs saved memTable)
include rep

theorem MemRep.not_unsaved (flushed : (memTable slot).state = .flushed) (above : saved < tid)
    (bound : tid ≤ tabs.length) : slotOf cfg tid ≠ slot := by
  intro same
  rcases rep.unsaved_state above bound with st | ⟨st, -⟩ <;> rw [same, flushed] at st <;> cases st

theorem MemRep.mark_inactive (bound : slot < cfg.memTblSize)
    (active : (memTable slot).state = .active) :
    MemRep cfg tabs saved (update memTable slot (setState (memTable slot) .inactive)) := by
  have own := rep.slots slot bound
  unfold SlotRep at own
  rw [active] at own
  rcases own with ⟨unsaved, slotEq, idEq, entries, found, tableRep⟩
  have positive : 0 < tabs.length := by omega
  apply rep.set_slot
  · exact ⟨tabs.length, unsaved, slotEq, positive, idEq, entries, _, found, tableRep⟩
  · exact rep.freeLe slot
  · intro _ _ _ same
    exact same
  · intro tid above inside same
    have old := rep.unsaved tid above inside
    rw [same] at old
    exact old
  · intro _ above inside _
    exact ⟨above, inside⟩

theorem MemRep.clear (flushed : (memTable slot).state = .flushed) :
    MemRep cfg tabs saved (update memTable slot zeroMemTable) := by
  apply rep.set_slot
  · exact rfl
  · exact Nat.zero_le _
  · intro _ _ _ same
    exact same
  · intro tid above inside same
    exact absurd same (rep.not_unsaved flushed above inside)
  · intro _ above inside _
    exact ⟨above, inside⟩

theorem MemRep.replace (flushed : (memTable slot).state = .flushed) (below : tid ≤ saved)
    (slotEq : slotOf cfg tid = slot) {data : LogIdxTableData Tag}
    (holds : Holds cfg tabs tid data) :
    MemRep cfg tabs saved
      (update memTable slot { memTable slot with data := data }) := by
  apply rep.set_slot
  · unfold SlotRep
    rw [flushed]
    exact ⟨tid, below, slotEq, holds⟩
  · exact rep.freeLe slot
  · intro other _ _ same
    exact same
  · intro other above inside same
    exact absurd same (rep.not_unsaved flushed above inside)
  · intro _ above inside _
    exact ⟨above, inside⟩

theorem MemRep.flush (slotEq : slotOf cfg (saved + 1) = slot) (bound : saved + 1 ≤ tabs.length)
    (inactive : (memTable slot).state = .inactive) :
    MemRep cfg tabs (saved + 1)
      (update memTable slot (setState (memTable slot) .flushed)) := by
  have window := rep.window
  have idEq := rep.unsaved (saved + 1) (by omega) bound
  rw [slotEq] at idEq
  have own := rep.slots slot (slotEq ▸ slot_of_lt cfg _)
  rcases own.cases (by rw [inactive]; decide) with ⟨other, otherEq, -, holds, -⟩
  have same : other = saved + 1 := otherEq.symm.trans idEq
  subst same
  apply rep.set_slot
  · exact ⟨saved + 1, le_rfl, slotEq, holds⟩
  · exact rep.freeLe slot
  · intro other _ different otherRep
    have apart : ∀ tid, slotOf cfg tid = other → saved + 1 ≠ tid := by
      rintro _ otherSlot rfl
      exact different (otherSlot.symm.trans slotEq)
    unfold SlotRep at otherRep ⊢
    cases st : (memTable other).state <;> rw [st] at otherRep <;> dsimp only at otherRep ⊢
    · exact otherRep
    · rcases otherRep with ⟨unsaved, otherSlot, rest⟩
      have notLast := apart _ otherSlot
      exact ⟨by omega, otherSlot, rest⟩
    · rcases otherRep with ⟨tid, _, otherSlot, rest⟩
      have other := apart tid otherSlot
      exact ⟨tid, by omega, otherSlot, rest⟩
    · rcases otherRep with ⟨tid, _, rest⟩
      exact ⟨tid, by omega, rest⟩
  · intro tid above inside same
    have equal := slot_of_inj cfg (Nat.succ_pos saved) (by omega : saved + 1 ≤ tid) (by omega)
      (slotEq.trans same.symm)
    omega
  · intro _ _ inside _
    exact ⟨by omega, inside⟩

theorem MemRep.open_table (slotEq : slotOf cfg (tabs.length + 1) = slot)
    (savedLe : saved ≤ tabs.length) (isFree : (memTable slot).state = .free)
    (idle : ∀ other < cfg.memTblSize, (memTable other).state ≠ .active)
    (active : table.state = .active) (idEq : table.data.idxTableId = tabs.length + 1)
    (fresh : TableRep (hashKey cfg) table.freeHead table.data []) :
    MemRep cfg (tabs ++ [[]]) saved (update memTable slot table) := by
  have same : ∀ tid ≤ tabs.length, 0 < tid → (tabs ++ [[]])[tid - 1]? = tabs[tid - 1]? :=
    fun tid bound positive => List.getElem?_append_left (by omega)
  apply rep.set_slot
  · unfold SlotRep
    rw [active]
    refine ⟨by simp; omega, by simpa using slotEq, by simpa using idEq, [], ?_, fresh⟩
    simp
  · exact fresh.free_le
  · intro other inside different otherRep
    have notActive := idle other inside
    unfold SlotRep at otherRep ⊢
    cases st : (memTable other).state <;> rw [st] at otherRep <;> dsimp only at otherRep ⊢
    · exact otherRep
    · exact absurd st notActive
    all_goals
      rcases otherRep with ⟨tid, bound, otherSlot, holds⟩
      exact ⟨tid, bound, otherSlot, holds.of_same (same tid holds.le_length holds.1)⟩
  · intro tid above inside sameSlot
    rw [length_append, length_singleton] at inside
    by_cases last : tid = tabs.length + 1
    · rw [last]
      exact idEq
    · rcases rep.unsaved_state above (by omega) with st | ⟨st, -⟩ <;>
        rw [sameSlot, isFree] at st <;> cases st
  · intro tid above inside different
    rw [length_append, length_singleton] at inside
    have notLast : tid ≠ tabs.length + 1 := by
      intro last
      rw [last] at different
      exact different slotEq
    exact ⟨above, by omega⟩

end

theorem MemRep.extend {longer : List (LogIndexLsn Tag)}
    (rep : MemRep cfg (front ++ [entries]) saved memTable)
    (slotEq : slotOf cfg (front.length + 1) = slot)
    (wasActive : (memTable slot).state = .active)
    (active : table.state = .active) (idEq : table.data.idxTableId = front.length + 1)
    (tableRep : TableRep (hashKey cfg) table.freeHead table.data longer) :
    MemRep cfg (front ++ [longer]) saved (update memTable slot table) := by
  have same : ∀ tid, 0 < tid → tid ≤ front.length → (front ++ [longer])[tid - 1]? =
    (front ++ [entries])[tid - 1]? := by
    intro tid _ _
    rw [List.getElem?_append_left (by omega), List.getElem?_append_left (by omega)]
  have unsaved : saved < front.length + 1 := by
    have own := rep.slots slot (slotEq ▸ slot_of_lt cfg _)
    unfold SlotRep at own
    rw [wasActive] at own
    simpa using own.1
  apply rep.set_slot
  · unfold SlotRep
    rw [active]
    refine ⟨by simpa using unsaved, by simpa using slotEq, by simpa using idEq, longer, ?_,
      tableRep⟩
    simp
  · exact tableRep.free_le
  · intro other _ different otherRep
    unfold SlotRep at otherRep ⊢
    -- a slot other than the active one holds an older table
    have older : ∀ tid, slotOf cfg tid = other → tid ≤ (front ++ [entries]).length →
      tid ≤ front.length := by
      intro tid otherSlot inside
      rw [length_append, length_singleton] at inside
      have apart : tid ≠ front.length + 1 := by
        intro last
        rw [last, slotEq] at otherSlot
        exact different otherSlot.symm
      omega
    cases st : (memTable other).state <;> rw [st] at otherRep <;> dsimp only at otherRep ⊢
    · exact otherRep
    · rcases otherRep with ⟨-, otherSlot, -⟩
      have inside := older _ otherSlot le_rfl
      rw [length_append, length_singleton] at inside
      omega
    all_goals
      rcases otherRep with ⟨tid, bound, otherSlot, holds⟩
      exact ⟨tid, bound, otherSlot,
        holds.of_same (same tid holds.1 (older tid otherSlot holds.le_length))⟩
  · intro tid above inside sameSlot
    have window := rep.window
    rw [length_append, length_singleton] at inside window
    have equal := slot_of_inj cfg (by omega : 0 < tid) inside (by omega)
      (sameSlot.trans slotEq.symm)
    rw [equal]
    exact idEq
  · intro _ above inside _
    simp only [length_append, length_singleton] at inside ⊢
    exact ⟨above, inside⟩

end Slots

section Files
variable {storage : Storage Tag} {data : LogIdxTableData Tag}

theorem segment_position {tid : Nat} (positive : 0 < tid) :
    segmentNo tid * tableNumPerFile + segmentOffset tid + 1 = tid := by
  rcases Nat.exists_eq_succ_of_ne_zero positive.ne' with ⟨below, rfl⟩
  exact congrArg (· + 1) (Nat.div_add_mod' below tableNumPerFile)

variable (rep : StoreRep cfg tabs saved storage)
include rep

theorem StoreRep.no_gap :
    segmentOffset (saved + 1) ≤ (storage.segFile (segmentNo (saved + 1))).length := by
  rcases segment_of_succ saved with ⟨segEq, offsetEq⟩
  by_cases first : saved % tableNumPerFile = 0
  · rw [offsetEq, first]
    exact Nat.zero_le _
  have positive : 0 < saved := by
    rcases Nat.eq_zero_or_pos saved with zero | positive
    · rw [zero] at first
      exact absurd rfl first
    · exact positive
  rcases rep.files saved positive le_rfl with ⟨_, inFile, -⟩
  have inside := (List.getElem?_eq_some_iff.mp inFile).1
  have here := segment_position positive
  have there := segment_position (Nat.succ_pos saved)
  have low : segmentOffset saved < tableNumPerFile := Nat.mod_lt _ (by decide)
  have high : segmentOffset (saved + 1) < tableNumPerFile := Nat.mod_lt _ (by decide)
  simp only [tableNumPerFile] at first here there low high offsetEq segEq
  have sameFile : segmentNo saved = segmentNo (saved + 1) := by omega
  rw [← sameFile]
  omega

theorem StoreRep.of_le {smaller : Nat} (shrink : smaller ≤ saved) :
    StoreRep cfg tabs smaller storage where
  files := fun tid positive bound => rep.files tid positive (bound.trans shrink)
  blooms := fun tid positive bound => rep.blooms tid positive (bound.trans shrink)
  buffer := rep.buffer
  ids := rep.ids

omit rep in
/-- Two tables have the same place in the bloom file only if they are one. -/
theorem bloom_position_inj {tid other : Nat} (positive : 0 < tid) (otherPositive : 0 < other)
    (samePage : bloomPageNo tid = bloomPageNo other)
    (sameOffset : bloomPageOffset tid = bloomPageOffset other) : tid = other := by
  rw [bloomPageNo, bloomPageNo, tid_pred_of_pos positive, tid_pred_of_pos otherPositive] at samePage
  rw [bloomPageOffset, bloomPageOffset, tid_pred_of_pos positive,
    tid_pred_of_pos otherPositive] at sameOffset
  simp only [fileTblBloomSize, blockSize] at samePage sameOffset
  omega

/-- A page that is zeroed has no saved table. -/
theorem StoreRep.bloom_lru {tid : Nat} (positive : 0 < tid) (bound : tid ≤ saved)
    (samePage : bloomPageNo tid = bloomPageNo (saved + 1)) :
    logIndexGetBloomLru storage (saved + 1) = storage.bloomPage (bloomPageNo tid) := by
  have later : bloomPageOffset (saved + 1) ≠ 0 := by
    intro first
    rw [bloomPageNo, bloomPageNo, tid_pred_of_pos positive,
      tid_pred_of_pos (Nat.succ_pos saved)] at samePage
    rw [bloomPageOffset, tid_pred_of_pos (Nat.succ_pos saved)] at first
    simp only [fileTblBloomSize, blockSize] at samePage first
    omega
  rw [logIndexGetBloomLru, if_neg later, rep.read_bloom_page, samePage]

theorem StoreRep.write (holds : Holds cfg tabs (saved + 1) data) : StoreRep cfg tabs (saved + 1)
      (logIndexSaveTable
        (logIndexSaveBloom storage (saved + 1) (logIndexGetBloomData cfg data (saved + 1)))
        data (logIndexGetBloomData cfg data (saved + 1))).1 := by
  have kept := holds
  rcases holds with ⟨-, idEq, entries, _, found, _, ghostRep⟩
  have bounds := ghostRep.bloom_bounds cfg (saved + 1)
  have noGap := rep.no_gap
  have same : { data with
      minLsn := (logIndexGetBloomData cfg data (saved + 1)).minLsn
      maxLsn := (logIndexGetBloomData cfg data (saved + 1)).maxLsn } = data := by
    rw [bounds.1, bounds.2]
  have there : segmentNo (saved + 1) * tableNumPerFile + segmentOffset (saved + 1) + 1 =
    saved + 1 :=
    segment_position (Nat.succ_pos saved)
  simp only [logIndexSaveTable, same]
  simp only [idEq, logIndexSaveBloom]
  constructor
  · intro tid positive bound
    dsimp only
    by_cases last : tid = saved + 1
    · subst last
      rw [update_self, write_at_getElem? _ noGap, if_pos rfl]
      exact ⟨data, rfl, kept⟩
    rcases rep.files tid positive (by omega) with ⟨old, inFile, oldHolds⟩
    by_cases sameFile : segmentNo tid = segmentNo (saved + 1)
    · have here := segment_position positive
      have apart : segmentOffset tid ≠ segmentOffset (saved + 1) := by
        intro sameOffset
        rw [sameFile, sameOffset] at here
        omega
      rw [sameFile, update_self, write_at_getElem? _ noGap, if_neg apart, ← sameFile]
      exact ⟨old, inFile, oldHolds⟩
    · rw [update_of_ne sameFile]
      exact ⟨old, inFile, oldHolds⟩
  · intro tid positive _
    dsimp only
    by_cases last : tid = saved + 1
    · subst last
      rw [update_self, update_self]
      exact ⟨rfl, entries, found, bounds.2.trans ghostRep.maxLsn,
        fun entry mem => ghostRep.bloom_sound cfg (saved + 1) mem⟩
    · have old := rep.blooms tid positive (by omega)
      by_cases samePage : bloomPageNo tid = bloomPageNo (saved + 1)
      · have apart : bloomPageOffset tid ≠ bloomPageOffset (saved + 1) := fun sameOffset =>
          last (bloom_position_inj positive (Nat.succ_pos saved) samePage sameOffset)
        rw [samePage, update_self, update_of_ne apart, rep.bloom_lru positive (by omega) samePage]
        exact old
      · rw [update_of_ne samePage]
        exact old
  · intro pageno page held
    dsimp only at held ⊢
    rw [update_apply] at held ⊢
    split_ifs at held ⊢ with same
    · exact (Option.some.inj held).symm
    · exact rep.buffer pageno page held
  · intro _ _ _ inFile
    dsimp only at inFile
    rw [update_apply] at inFile
    split_ifs at inFile with sameFile
    · subst sameFile
      rw [write_at_getElem? _ noGap] at inFile
      split_ifs at inFile with sameOffset
      · rw [← Option.some.inj inFile, sameOffset, there, idEq]
        exact ⟨rfl, Nat.mod_lt _ (by decide)⟩
      · exact rep.ids _ _ _ inFile
    · exact rep.ids _ _ _ inFile

end Files

section Save
variable {snap : Snapshot Tag}

/-- The files after `log_index_write_table_data`. -/
def writtenStorage (cfg : Config Tag) (storage : Storage Tag) (data : LogIdxTableData Tag) :
    Storage Tag :=
  let bloom := logIndexGetBloomData cfg data data.idxTableId
  (logIndexSaveTable (logIndexSaveBloom storage data.idxTableId bloom) data bloom).1

/-- The bounds of the bloom data are the table's own, so the table is unchanged. -/
theorem write_table_data_eq (holds : Holds cfg tabs tid (snap.memTable slot).data) :
    logIndexWriteTableData cfg snap slot = { snap with
        storage := writtenStorage cfg snap.storage (snap.memTable slot).data } := by
  rcases holds with ⟨-, -, _, _, -, _, rep⟩
  have same := rep.save_table_same cfg (snap.memTable slot).data.idxTableId
    (logIndexSaveBloom snap.storage (snap.memTable slot).data.idxTableId
      (logIndexGetBloomData cfg (snap.memTable slot).data (snap.memTable slot).data.idxTableId))
  simp only [logIndexWriteTableData, writtenStorage, same, setSlot, update_eq_self, ite_self]

variable (rep : SnapRep cfg tabs snap)
  (savedEq : snap.indexMeta.maxIdxTableId = saved) (slotEq : slotOf cfg (saved + 1) = slot)
  (bound : saved < tabs.length)
include rep savedEq slotEq bound

theorem SnapRep.next_holds : Holds cfg tabs (saved + 1) (snap.memTable slot).data := by
  have memory := rep.memory
  rw [savedEq] at memory
  have idEq := memory.unsaved (saved + 1) (Nat.lt_succ_self _) bound
  have st := memory.unsaved_state (Nat.lt_succ_self _) bound
  have slotBound := slot_of_lt cfg (saved + 1)
  rw [slotEq] at idEq st slotBound
  have used : (snap.memTable slot).state ≠ .free := by
    rcases st with st | ⟨st, -⟩ <;> rw [st] <;> decide
  rcases (memory.slots slot slotBound).cases used with ⟨tid, tidEq, -, holds, -⟩
  have same : tid = saved + 1 := tidEq.symm.trans idEq
  rw [← same]
  exact holds

theorem write_table_active (active : (snap.memTable slot).state = .active) :
    ∃ storage, logIndexWriteTable cfg snap slot = ({ snap with storage := storage }, true) ∧
      SnapRep cfg tabs { snap with storage := storage } := by
  have holds := rep.next_holds savedEq slotEq bound
  have idEq := holds.2.1
  have store := rep.store
  rw [savedEq] at store
  have written := (store.write holds).of_le (Nat.le_succ saved)
  refine ⟨writtenStorage cfg snap.storage (snap.memTable slot).data, ?_, ?_⟩
  · rw [logIndexWriteTable, savedEq, if_pos idEq, write_table_data_eq holds, if_pos active]
  refine { rep with store := ?_ }
  rw [savedEq]
  simpa only [writtenStorage, idEq] using written

theorem write_table_inactive (inactive : (snap.memTable slot).state = .inactive) :
    ∃ after, logIndexWriteTable cfg snap slot = (after, true) ∧ SnapRep cfg tabs after ∧
      after.memTable = update snap.memTable slot (setState (snap.memTable slot) .flushed) ∧
      after.activeTable = snap.activeTable ∧ after.adding = snap.adding := by
  have holds := rep.next_holds savedEq slotEq bound
  have kept := holds
  rcases kept with ⟨-, idEq, _, _, found, _, tableRep⟩
  rw [Nat.add_sub_cancel, ← savedEq] at found
  have notActive : ¬(snap.memTable slot).state = .active := by
    rw [inactive]
    decide
  let written : Snapshot Tag :=
    { snap with storage := writtenStorage cfg snap.storage (snap.memTable slot).data }
  have metaOk := rep.metaOk.save rep.logOk found written tableRep.maxLsn
  have store := rep.store
  have memory := rep.memory
  rw [savedEq] at metaOk store memory
  have stored : StoreRep cfg tabs (saved + 1) written.storage := by
    simpa only [written, writtenStorage, idEq] using store.write holds
  let indexMeta := (polarLogIndexWriteMeta written (metaAfterSave snap.indexMeta (saved + 1)
    (snap.memTable slot).data.maxLsn)).indexMeta
  have savedNow : indexMeta.maxIdxTableId = saved + 1 := by
    dsimp only [indexMeta]
    rw [write_meta_fields]
    simp only [metaAfterSave, savedEq]
    omega
  refine ⟨setSlot (polarLogIndexWriteMeta written (metaAfterSave snap.indexMeta (saved + 1)
      (snap.memTable slot).data.maxLsn)) slot (setState (snap.memTable slot) .flushed),
    ?_, ?_, rfl, rfl, rfl⟩
  · rw [logIndexWriteTable, if_pos (savedEq ▸ idEq), write_table_data_eq holds,
      if_neg notActive, idEq]
  constructor
  · exact rep.count
  · change MemRep cfg tabs indexMeta.maxIdxTableId _
    rw [savedNow]
    exact memory.flush slotEq bound inactive
  · change StoreRep cfg tabs indexMeta.maxIdxTableId _
    rw [savedNow]
    exact { stored with }
  · intro pid cache cached
    change CacheRep cfg tabs indexMeta.maxIdxTableId cache
    have old := rep.caches pid cache cached
    rw [savedEq] at old
    rw [savedNow]
    exact old.of_le (Nat.le_succ saved)
  · exact metaOk
  · rfl
  · exact rep.logOk

end Save

section Grow
variable {snap : Snapshot Tag}

theorem SnapRep.grow (rep : SnapRep cfg tabs snap) (after : List (List (LogIndexLsn Tag)))
    (same : ∀ idx < snap.indexMeta.maxIdxTableId, after[idx]? = tabs[idx]?)
    {memTable : Nat → LogMemTable Tag}
    (memory : MemRep cfg after snap.indexMeta.maxIdxTableId memTable)
    (logOk : LogRep after) (bound : snap.indexMeta.maxIdxTableId ≤ after.length)
    (activeTable maxLsn : Nat) :
    SnapRep cfg after { snap with
      memTable := memTable, activeTable := activeTable, maxIdxTableId := after.length,
      maxLsn := maxLsn } where
  count := rfl
  memory := memory
  store := rep.store.of_same same
  caches := fun pid cache cached => (rep.caches pid cache cached).of_same same
  metaOk := rep.metaOk.of_same same bound
  metaFile := rep.metaFile
  logOk := logOk

theorem SnapRep.extend (rep : SnapRep cfg (front ++ [entries]) snap)
    (activeEq : snap.activeTable = slotOf cfg (front.length + 1))
    (wasActive : (snap.memTable snap.activeTable).state = .active)
    {table : LogMemTable Tag} (active : table.state = .active)
    (idEq : table.data.idxTableId = front.length + 1)
    (tableRep : TableRep (hashKey cfg) table.freeHead table.data (entries ++ [info]))
    (latest : ∀ entry ∈ (front ++ [entries]).flatten, entry.lsn ≤ info.lsn) (maxLsn : Nat) :
    SnapRep cfg (front ++ [entries ++ [info]])
    { setSlot snap snap.activeTable table with maxLsn := maxLsn } ∧
    ActiveRep cfg (front ++ [entries ++ [info]])
      { setSlot snap snap.activeTable table with maxLsn := maxLsn } none := by
  have own := rep.memory.slots snap.activeTable (activeEq ▸ slot_of_lt cfg _)
  unfold SlotRep at own
  rw [wasActive] at own
  have unsaved := own.1
  rw [length_append, length_singleton] at unsaved
  have memory := rep.memory.extend activeEq.symm wasActive active idEq tableRep
  have grown := rep.grow _
    (by
      intro _ _
      rw [List.getElem?_append_left (by omega), List.getElem?_append_left (by omega)])
    memory (rep.logOk.extend latest) (by simp; omega) snap.activeTable maxLsn
  constructor
  · have count := rep.count
    simpa only [setSlot, count, length_append, length_singleton] using grown
  · refine .inr ⟨by simp, by simpa [setSlot] using activeEq, by simpa [setSlot] using active, ?_⟩
    intro empty
    simp at empty

end Grow

end PolarDB.LogIndex
