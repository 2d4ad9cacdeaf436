import PolarDB.Lib.Fold
import PolarDB.LogIndex.Snapshot
import Mathlib.Data.List.Nodup
import PolarDB.LogIndex.TableRep

/-!
# Reading a table: item bounds, insertion order, bloom data

The bounds that `log_index_save_table` takes from the bloom data are the bounds the
table already has, so saving does not change a table.
-/

namespace PolarDB.LogIndex

open List Lib.Linked PolarDB.Lib.Bloom PolarDB.Lib.Fold Lib.Snoc

variable {Tag : Type} {table : LogIdxTableData Tag} {freeHead : Nat} {lsns : List Nat}
  {item : LogItemHead Tag} {segs : List Nat}

theorem ItemRep.lsns_nonempty (rep : ItemRep table freeHead lsns item segs) : lsns ≠ [] := by
  rintro rfl
  have content := rep.content
  have count := rep.headCount.1
  simp only [map_nil, append_eq_nil_iff] at content
  rw [content.1] at count
  cases count

/-- `LOG_INDEX_SEG_MIN_LSN` of an item is the page's first lsn in the table. -/
theorem ItemRep.min_lsn (rep : ItemRep table freeHead lsns item segs)
    (samePrefix : ∀ lsn ∈ lsns, table.prefixLsn = prefixOf lsn) :
    itemMinLsn table item = lsns.headD 0 := by
  cases lsns with
  | nil => exact absurd rfl rep.lsns_nonempty
  | cons first =>
    have content := rep.content
    have count := rep.headCount.1
    cases suffixes : item.suffixLsn with
    | nil => rw [suffixes] at count; cases count
    | cons =>
      rw [suffixes] at content
      simp only [cons_append, map_cons, List.cons.injEq] at content
      rw [itemMinLsn, suffixes, headD_cons, content.1]
      exact combine_suffix table first (samePrefix first (by simp))

theorem getLastD_append_nonempty {Value : Type*} (left right : List Value) (fallback : Value)
    (nonempty : right ≠ []) : (left ++ right).getLastD fallback = right.getLastD fallback := by
  rw [getLastD_eq_getLast?, getLastD_eq_getLast?, List.getLast?_append_of_ne_nil _ nonempty]

variable {values : List Nat}

theorem getLastD_mem (nonempty : values ≠ []) : values.getLastD 0 ∈ values := by
  rw [getLastD_eq_getLast?, List.getLast?_eq_some_getLast nonempty]
  exact getLast_mem nonempty

theorem headD_le_of_increasing (sorted : values.Pairwise (· < ·)) :
    ∀ value ∈ values, values.headD 0 ≤ value := by
  cases values with
  | nil => simp
  | cons =>
    exact forall_mem_cons.mpr ⟨le_rfl,
      fun value later => ((pairwise_cons.mp sorted).1 value later).le⟩

theorem le_getLastD_of_sorted (sorted : values.Pairwise (· ≤ ·)) :
    ∀ value ∈ values, value ≤ values.getLastD 0 := by
  rcases eq_nil_or_concat values with empty | ⟨front, last, whole⟩
  · rw [empty]
    simp
  rw [concat_eq_append] at whole
  subst whole
  rw [getLastD_concat]
  exact forall_mem_snoc.mpr ⟨(pairwise_snoc.mp sorted).2, le_rfl⟩

section
variable (rep : ItemRep table freeHead lsns item segs)
include rep

theorem ItemRep.tail_last : (segSuffixes table item.tailSeg).getLastD 0 = suffixOf
    (lsns.getLastD 0) := by
  have content := rep.content
  have ends : (lsns.map suffixOf).getLastD 0 = suffixOf (lsns.getLastD 0) := by
    rcases eq_nil_or_concat lsns with empty | ⟨front, last, whole⟩
    · exact absurd empty rep.lsns_nonempty
    · rw [whole]
      simp
  rw [← ends, ← content]
  cases segs with
  | nil =>
    rw [rep.tail_eq_head.mpr rfl, segSuffixes, rep.atHead]
    simp
  | cons tail =>
    have tailIs : item.tailSeg = tail := rep.backward.1
    rcases rep.segsIn tail (by simp) with ⟨-, -, _, atTail, -, count, -⟩
    have tailSuffixes : segSuffixes table tail ≠ [] := by
      rw [segSuffixes, atTail]
      exact ne_nil_of_length_pos count
    simp only [tailIs, reverse_cons, flatMap_append, flatMap_cons, flatMap_nil, append_nil]
    rw [← append_assoc, getLastD_append_nonempty _ _ _ tailSuffixes]

theorem ItemRep.tail_bounds : item.tailSeg < freeHead ∧ (segSuffixes table item.tailSeg).length ≤
    itemSegLsnNum := by
  cases segs with
  | nil =>
    rw [rep.tail_eq_head.mpr rfl, segSuffixes, rep.atHead]
    exact ⟨rep.headLt, rep.headCount.2.trans (by decide)⟩
  | cons tail =>
    rcases rep.segsIn tail (by simp) with ⟨-, bound, _, atTail, -, -, count⟩
    rw [show item.tailSeg = tail from rep.backward.1, segSuffixes, atTail]
    exact ⟨bound, count⟩

theorem ItemRep.tail_pos : 0 < item.tailSeg := by
  cases segs with
  | nil =>
    rw [rep.tail_eq_head.mpr rfl]
    exact rep.headPos
  | cons tail =>
    rw [show item.tailSeg = tail from rep.backward.1]
    exact (rep.segsIn tail mem_cons_self).1

theorem ItemRep.segs_short : segs.length < freeHead :=
  nodup_length_lt_bound (path_nodup rep.backward) (fun segId mem => (rep.segsIn segId mem).1)
    (fun segId mem => (rep.segsIn segId mem).2.1)
    ((Nat.zero_le _).trans_lt rep.headLt)

theorem ItemRep.max_lsn (samePrefix : ∀ lsn ∈ lsns, table.prefixLsn = prefixOf lsn) :
    logIndexItemMaxLsn table item = lsns.getLastD 0 := by
  have lastIn : lsns.getLastD 0 ∈ lsns := getLastD_mem rep.lsns_nonempty
  have whole := combine_suffix table _ (samePrefix _ lastIn)
  rw [← rep.tail_last] at whole
  unfold logIndexItemMaxLsn
  split_ifs with sameSeg
  · rw [← whole, ← sameSeg, segSuffixes, rep.atHead]
  · exact whole

end

section Entries
variable [DecidableEq Tag] {key : Tag → Nat} {entries : List (LogIndexLsn Tag)}
  {ghost : TableGhost Tag}

theorem mem_lsns_of {tag : Tag} {lsn : Nat} :
    lsn ∈ lsnsOf tag entries ↔ ∃ entry ∈ entries, entry.tag = tag ∧ entry.lsn = lsn := by
  simp [lsnsOf, and_assoc]

theorem GhostRep.lsns_prefix (rep : GhostRep key freeHead table entries ghost) (tag : Tag) :
    ∀ lsn ∈ lsnsOf tag entries, table.prefixLsn = prefixOf lsn := by
  intro _ mem
  obtain ⟨entry, entryIn, -, rfl⟩ := mem_lsns_of.mp mem
  exact rep.samePrefix entry entryIn

variable {entry : LogIndexLsn Tag}

section
variable (rep : GhostRep key freeHead table entries ghost)
include rep

theorem GhostRep.lsn_le_max (mem : entry ∈ entries) : entry.lsn ≤ table.maxLsn := by
  rw [rep.maxLsn]
  exact le_getLastD_of_sorted (pairwise_map.mpr rep.sorted) _ (mem_map_of_mem mem)

theorem GhostRep.min_le_lsn (mem : entry ∈ entries) : table.minLsn ≤ entry.lsn := by
  rw [rep.minLsn]
  cases entries with
  | nil => simp at mem
  | cons =>
    have sorted := pairwise_cons.mp rep.sorted
    rcases mem_cons.mp mem with rfl | later
    · simp
    · simpa using sorted.1 entry later

theorem GhostRep.order_fields {lsns segs : List Nat} {item : LogItemHead Tag}
    {segId idx suffix : Nat} (itemRep : ItemRep table freeHead lsns item segs)
    (mem : segId ∈ item.headSeg :: segs) (stored : (segSuffixes table segId)[idx]? = some suffix) :
    (0 < segId ∧ segId < memTblSegNum) ∧ segHeadSeg table segId = item.headSeg ∧
      idx < itemSegLsnNum ∧ segOrder (orderEntry segId idx) = segId ∧
      idOrder (orderEntry segId idx) = idx := by
  obtain ⟨positive, bound, owner, few⟩ := itemRep.of_mem mem
  have segSmall : segId < memTblSegNum := bound.trans_le rep.freeLe
  have idxSmall : idx < itemSegLsnNum := lt_of_lt_of_le (List.getElem?_eq_some_iff.mp stored).1 few
  have idxFits : idx < 16 := idxSmall.trans (by decide)
  exact ⟨⟨positive, segSmall⟩, owner, idxSmall, seg_order_entry segSmall idxFits,
    id_order_entry segSmall idxFits⟩

/-- `log_index_get_order_lsn` reads the entries back in insertion order. -/
theorem GhostRep.get_order_lsn {pos : Nat} (found : entries[pos]? = some entry) :
    ∃ info, logIndexGetOrderLsn table pos = some info ∧ info.tag = entry.tag ∧
    info.lsn = entry.lsn := by
  have mem : entry ∈ entries := mem_of_getElem? found
  obtain ⟨item, atHead, tagEq, headEq, itemRep⟩ := rep.head_item mem
  obtain ⟨segId, segIn, idx, inOrder, suffix⟩ := rep.order pos entry found
  rw [← headEq] at segIn
  obtain ⟨-, owner, -, segIs, idxIs⟩ := rep.order_fields itemRep segIn suffix
  rw [headEq] at owner
  refine ⟨⟨item.tag, combineLsn table (suffixOf entry.lsn), logIndexGetSegPrevLsn table segId idx⟩,
    ?_, tagEq, ?_⟩
  · simp only [logIndexGetOrderLsn, inOrder, segIs, idxIs, logIndexGetSegPageTag, owner, atHead,
      suffix, Option.map_some, Option.bind_eq_bind, Option.bind_some]
  · exact combine_suffix table entry.lsn (rep.samePrefix entry mem)

theorem GhostRep.get_order_lsn_end {pos : Nat} (past : entries.length ≤ pos) :
    logIndexGetOrderLsn table pos = none := by
  have noEntry : table.idxOrder[pos]? = none :=
    List.getElem?_eq_none (by rw [rep.orderLength]; exact past)
  simp [logIndexGetOrderLsn, noEntry]

theorem GhostRep.item_bounds (mem : entry ∈ entries) {item : LogItemHead Tag}
    (atHead : logIndexItemHead table (ghost.head entry.tag) = some item) :
    item.tag = entry.tag ∧ itemMinLsn table item = (lsnsOf entry.tag entries).headD 0 ∧
      logIndexItemMaxLsn table item = (lsnsOf entry.tag entries).getLastD 0 := by
  rcases rep.head_item mem with ⟨other, otherAt, tagEq, -, itemRep⟩
  have same : other = item := Option.some.inj (otherAt.symm.trans atHead)
  subst same
  exact ⟨tagEq, itemRep.min_lsn (rep.lsns_prefix _), itemRep.max_lsn (rep.lsns_prefix _)⟩

theorem GhostRep.mem_table_items (keyBound : ∀ tag, key tag < memTblHashNum)
    (item : LogItemHead Tag) : item ∈ tableItems table ↔ ∃ entry ∈ entries, logIndexItemHead table
    (ghost.head entry.tag) = some item := by
  have walk : ∀ slot, traverse (nextItemOf table) invalidSeg memTblSegNum (table.hash slot) =
      ghost.bucket slot := fun slot => traverse_path (rep.bucketPath slot) (rep.bucket_short slot)
  simp only [tableItems, walk, mem_flatMap, mem_range, mem_filterMap]
  constructor
  · rintro ⟨slot, -, segId, inBucket, atHead⟩
    rcases (rep.bucketMem slot segId).mp inBucket with ⟨entry, mem, -, rfl⟩
    exact ⟨entry, mem, atHead⟩
  · rintro ⟨entry, mem, atHead⟩
    exact ⟨key entry.tag, keyBound _, ghost.head entry.tag, (rep.bucketMem _ _).mpr ⟨entry, mem,
      rfl, rfl⟩, atHead⟩

end

theorem lsns_of_mem_of_mem (mem : entry ∈ entries) :
    entry.lsn ∈ lsnsOf entry.tag entries := mem_lsns_of.mpr ⟨entry, mem, rfl, rfl⟩

theorem headD_mem {values : List Nat} (nonempty : values ≠ []) : values.headD 0 ∈ values := by
  cases values with
  | nil => exact absurd rfl nonempty
  | cons => simp

section
variable (cfg : Config Tag) (rep : GhostRep (hashKey cfg) freeHead table entries ghost) (tid : Nat)
include cfg rep tid

theorem GhostRep.bloom_bounds : (logIndexGetBloomData cfg table tid).minLsn = table.minLsn ∧
      (logIndexGetBloomData cfg table tid).maxLsn = table.maxLsn := by
  have keyBound : ∀ tag, hashKey cfg tag < memTblHashNum := fun tag => Nat.mod_lt _ (by decide)
  have items := rep.mem_table_items keyBound
  constructor
  · apply foldl_min_eq
    · rw [rep.minLsn]
      cases entries with
      | nil => exact le_rfl
      | cons first rest => exact (rep.bounded first (by simp)).2
    · intro item inItems
      rcases (items item).mp inItems with ⟨entry, mem, atHead⟩
      rw [(rep.item_bounds mem atHead).2.1]
      have inPage := headD_mem (ne_nil_of_mem (lsns_of_mem_of_mem mem))
      rcases mem_lsns_of.mp inPage with ⟨first, firstIn, -, same⟩
      rw [← same]
      exact rep.min_le_lsn firstIn
    · cases entries with
      | nil =>
        left
        exact rep.minLsn.symm
      | cons first =>
        right
        rcases rep.head_item (mem_cons_self (a := first)) with ⟨item, atHead, -⟩
        refine ⟨item, (items item).mpr ⟨first, by simp, atHead⟩, ?_⟩
        rw [(rep.item_bounds (by simp) atHead).2.1, rep.minLsn]
        simp [lsnsOf]
  · apply foldl_max_eq
    · exact Nat.zero_le _
    · intro item inItems
      rcases (items item).mp inItems with ⟨_, mem, atHead⟩
      rw [(rep.item_bounds mem atHead).2.2]
      have inPage := getLastD_mem (ne_nil_of_mem (lsns_of_mem_of_mem mem))
      rcases mem_lsns_of.mp inPage with ⟨last, lastIn, -, same⟩
      rw [← same]
      exact rep.lsn_le_max lastIn
    · rcases eq_nil_or_concat entries with empty | ⟨front, last, whole⟩
      · left
        rw [rep.maxLsn, empty]
        rfl
      right
      rw [concat_eq_append] at whole
      have lastIn : last ∈ entries := by simp [whole]
      rcases rep.head_item lastIn with ⟨item, atHead, -⟩
      refine ⟨item, (items item).mpr ⟨last, lastIn, atHead⟩, ?_⟩
      rw [(rep.item_bounds lastIn atHead).2.2, rep.maxLsn, whole, lsns_of_append_same]
      simp

theorem GhostRep.save_table_same (storage : Storage Tag) :
    (logIndexSaveTable storage table (logIndexGetBloomData cfg table tid)).2 = table := by
  have bounds := rep.bloom_bounds cfg tid
  simp only [logIndexSaveTable, bounds.1, bounds.2]

theorem GhostRep.bloom_sound (mem : entry ∈ entries) :
    lacksElement cfg.kHashes (logIndexGetBloomData cfg table tid).bloomBytes entry.tag =
      false := by
  apply added_not_lacking
  rcases rep.head_item mem with ⟨item, atHead, tagEq, -⟩
  have keyBound : ∀ tag, hashKey cfg tag < memTblHashNum := fun tag => Nat.mod_lt _ (by decide)
  rw [← tagEq]
  exact mem_map_of_mem ((rep.mem_table_items keyBound item).mpr ⟨entry, mem, atHead⟩)

end

theorem suffix_lt_of_lt {low high : Nat} (samePrefix : prefixOf low = prefixOf high)
    (less : low < high) : suffixOf low < suffixOf high := by
  simp only [prefixOf, suffixOf, Nat.shiftRight_eq_div_pow] at samePrefix ⊢
  omega

theorem GhostRep.tail_asserts (rep : GhostRep key freeHead table entries ghost)
    {info : LogIndexLsn Tag} (samePrefix : table.prefixLsn = prefixOf info.lsn)
    (newer : ∀ entry ∈ entries, entry.tag = info.tag → entry.lsn < info.lsn)
    (present : logIndexMemTblExistsPage info.tag table (key info.tag) ≠ invalidSeg) :
    tailAsserts table (logIndexMemTblExistsPage info.tag table (key info.tag)) info = true := by
  rcases rep.page_known present with ⟨_, mem, tagEq⟩
  rcases rep.head_item mem with ⟨_, atHead, -, -, itemRep⟩
  rw [← rep.exists_page mem, tagEq] at atHead
  rw [tagEq] at itemRep
  have lastIn := getLastD_mem itemRep.lsns_nonempty
  have lastPrefix := rep.lsns_prefix info.tag _ lastIn
  have less : (lsnsOf info.tag entries).getLastD 0 < info.lsn := by
    rcases mem_lsns_of.mp lastIn with ⟨last, lastMem, lastTag, lastEq⟩
    rw [← lastEq]
    exact newer last lastMem lastTag
  have suffixes := suffix_lt_of_lt (lastPrefix.symm.trans samePrefix) less
  rw [← itemRep.tail_last] at suffixes
  have segBound := itemRep.tail_bounds.1.trans_le rep.freeLe
  have countBound := itemRep.tail_bounds.2.trans_lt (by decide : itemSegLsnNum < 15)
  simp only [tailAsserts, atHead, suffixes, segBound, countBound, decide_true, Bool.and_self]

/-- A table that `LOG_INDEX_MEM_TBL_NEW_ACTIVE` opened in a zeroed slot. -/
theorem table_rep_fresh (tid lsnPrefix : Nat) :
    TableRep key 1 { (zeroTableData : LogIdxTableData Tag) with
      idxTableId := tid, maxLsn := invalidLsn, minLsn := uint64Max, prefixLsn := lsnPrefix }
      [] := by
  refine ⟨⟨fun _ => [], fun _ => 0, fun _ => []⟩, ?_⟩
  constructor
  · decide
  · decide
  · exact fun _ _ => rfl
  · exact fun _ => rfl
  · exact fun _ => nodup_nil
  all_goals simp [zeroTableData, invalidLsn]

theorem table_rep_set_prefix (rep : TableRep key freeHead table []) (lsnPrefix : Nat) :
    TableRep key freeHead { table with prefixLsn := lsnPrefix } [] := by
  rcases rep with ⟨ghost, rep⟩
  refine ⟨ghost, ?_⟩
  refine { rep with items := ?_, prevs := ?_, order := ?_, samePrefix := ?_, bounded := ?_ }
  · simp
  · simp
  · simp
  · simp
  · simp

theorem GhostRep.max_lsn_eq_zero (rep : GhostRep key freeHead table entries ghost) :
    table.maxLsn = invalidLsn ↔ entries = [] := by
  rw [rep.maxLsn]
  constructor
  · intro zero
    by_contra nonempty
    have mapped : entries.map LogIndexLsn.lsn ≠ [] := by simpa using nonempty
    rcases mem_map.mp (getLastD_mem mapped) with ⟨entry, mem, same⟩
    have positive := (rep.bounded entry mem).1
    rw [same] at positive
    exact absurd zero positive.ne'
  · intro empty
    rw [empty]
    rfl

/-- Every page needs a segment for its head, so a table holds less pages than segments. -/
theorem GhostRep.tags_short (rep : GhostRep key freeHead table entries ghost)
    (distinct : (entries.map LogIndexLsn.tag).Nodup) : entries.length < memTblSegNum := by
  have nodup : (entries.map fun entry => ghost.head entry.tag).Nodup := by
    apply List.Nodup.map_on _ distinct.of_map
    intro _ leftIn _ rightIn sameHead
    rcases rep.head_item leftIn with ⟨_, atLeft, leftTag, -⟩
    rcases rep.head_item rightIn with ⟨_, atRight, rightTag, -⟩
    rw [sameHead, atRight] at atLeft
    cases atLeft
    exact inj_on_of_nodup_map distinct leftIn rightIn (leftTag.symm.trans rightTag)
  have within : ∀ segId ∈ entries.map fun entry => ghost.head entry.tag, segId ∈ List.range' 1
    (memTblSegNum - 1) := by
    intro _ mem
    rcases mem_map.mp mem with ⟨_, entryIn, same⟩
    have bounds := rep.head_bounds entryIn
    have freeLe := rep.freeLe
    rw [mem_range'_1, ← same]
    omega
  have count := (nodup.subperm within).length_le
  rw [length_map, length_range'] at count
  exact Nat.lt_of_le_pred (by decide) count

end Entries

end PolarDB.LogIndex
