import Mathlib.Data.List.Pairwise
import Mathlib.Order.Bounds.Basic
import PolarDB.LogIndex.PageIterExact

/-!
# The shape of every memory table

The representation of `TableRep` read back as facts about the table's own links,
counters and bit fields. The one fact that is not a clause of `GhostRep` is that the
insertion order names a stored suffix once: the suffixes of a page increase, so a
place in its chain is known by its suffix.
-/

namespace PolarDB.LogIndex

open List Lib.Linked PolarDB.Lib.History

/-- `LOG_INDEX_MAX_ORDER_NUM`, the length of the `idx_order` array. -/
def maxOrderNum : Nat := memTblSegNum * itemSegLsnNum

variable {Tag : Type} [DecidableEq Tag]

/-- The heads on the chain of one hash bucket: one for each page hashed there. -/
structure BucketChain (hashKey : Tag → Nat) (table : LogIdxTableData Tag)
    (entries : List (LogIndexLsn Tag)) (key : Nat) (heads : List Nat) : Prop where
  path : Path (nextItemOf table) invalidSeg (table.hash key) heads
  acyclic : heads.Nodup
  head : ∀ segId ∈ heads, ∃ entry ∈ entries, hashKey entry.tag = key ∧
    headHasTag table entry.tag segId = true
  page : ∀ entry ∈ entries, hashKey entry.tag = key → ∃! segId, segId ∈ heads ∧
    headHasTag table entry.tag segId = true

/-- The head of a page and the segments behind it, oldest first. -/
structure PageChain (table : LogIdxTableData Tag) (entries : List (LogIndexLsn Tag)) (tag : Tag)
    (item : LogItemHead Tag) (segs : List Nat) : Prop where
  forward : Path (nextSegOf table) invalidSeg item.nextSeg segs
  backward : Path (prevSegOf table) item.headSeg item.tailSeg segs.reverse
  content : item.suffixLsn ++ segs.flatMap (segSuffixes table) = (lsnsOf tag entries).map suffixOf
  increasing : (item.suffixLsn ++ segs.flatMap (segSuffixes table)).Pairwise (· < ·)
  count : (item.suffixLsn ++ segs.flatMap (segSuffixes table)).length =
    (entries.filter fun entry => entry.tag = tag).length
  named : ∀ segId ∈ item.headSeg :: segs, ∀ idx < (segSuffixes table segId).length,
    ∃! pos : Nat, table.idxOrder[pos]? = some (orderEntry segId idx)

structure TableInvariant (hashKey : Tag → Nat) (mem : LogMemTable Tag)
    (entries : List (LogIndexLsn Tag)) : Prop where
  buckets : ∀ key, ∃ heads, BucketChain hashKey mem.data entries key heads
  pages : ∀ entry ∈ entries, ∃ item segs, logIndexTblFind entry.tag mem.data (hashKey entry.tag) =
      some item ∧ PageChain mem.data entries entry.tag item segs
  order : ∀ (pos : Nat) (entry : LogIndexLsn Tag), entries[pos]? = some entry →
    ∃ segId idx, mem.data.idxOrder[pos]? = some (orderEntry segId idx) ∧
      (0 < segId ∧ segId < memTblSegNum) ∧ idx < itemSegLsnNum ∧
      segOrder (orderEntry segId idx) = segId ∧ idOrder (orderEntry segId idx) = idx ∧
      logIndexGetSegPageTag mem.data segId = some entry.tag ∧
      (segSuffixes mem.data segId)[idx]? = some (suffixOf entry.lsn)
  orderLength : mem.data.idxOrder.length = entries.length
  orderLe : mem.data.idxOrder.length ≤ maxOrderNum
  freeLe : mem.freeHead ≤ memTblSegNum
  minLsn : IsLeast {lsn | ∃ entry ∈ entries, entry.lsn = lsn} mem.data.minLsn
  maxLsn : IsGreatest {lsn | ∃ entry ∈ entries, entry.lsn = lsn} mem.data.maxLsn

/-- The order in which pairs reach one table. -/
def Increasing (entries : List (LogIndexLsn Tag)) : Prop :=
  entries.Pairwise fun earlier later => earlier.tag = later.tag → earlier.lsn < later.lsn

section Order
variable {key : Tag → Nat} {freeHead : Nat} {table : LogIdxTableData Tag}
  {entries : List (LogIndexLsn Tag)} {ghost : TableGhost Tag}

/-- One value of a list of lists without repetition stands at one place. -/
theorem place_unique {Place Value : Type*} {places : List Place} {values : Place → List Value}
    (distinct : (places.flatMap values).Nodup) {left right : Place} (leftIn : left ∈ places)
    (rightIn : right ∈ places) {first second : Nat} {value : Value}
    (atLeft : (values left)[first]? = some value) (atRight : (values right)[second]? = some value) :
    left = right ∧ first = second := by
  obtain ⟨each, apart⟩ := nodup_flatMap.mp distinct
  have same : left = right := by
    by_contra different
    have symmetric : Std.Symm (Function.onFun List.Disjoint values) :=
      ⟨fun _ _ split _ second first => split first second⟩
    exact apart.forall leftIn rightIn different (mem_of_getElem? atLeft)
      (mem_of_getElem? atRight)
  subst same
  exact ⟨rfl, (List.getElem?_inj (List.getElem?_eq_some_iff.mp atLeft).1 (each left leftIn)).mp
    (atLeft.trans atRight.symm)⟩

variable {entry : LogIndexLsn Tag}

section
variable (rep : GhostRep key freeHead table entries ghost)
include rep

theorem GhostRep.order_at {pos : Nat} (found : entries[pos]? = some entry) :
    ∃ segId idx, table.idxOrder[pos]? = some (orderEntry segId idx) ∧
      (0 < segId ∧ segId < memTblSegNum) ∧ idx < itemSegLsnNum ∧
      segOrder (orderEntry segId idx) = segId ∧ idOrder (orderEntry segId idx) = idx ∧
      segHeadSeg table segId = ghost.head entry.tag ∧
      segId ∈ ghost.head entry.tag :: ghost.segs entry.tag ∧
      (segSuffixes table segId)[idx]? = some (suffixOf entry.lsn) := by
  obtain ⟨_, -, headEq, itemRep⟩ := rep.items entry (mem_of_getElem? found)
  obtain ⟨segId, member, idx, inOrder, suffix⟩ := rep.order pos entry found
  rw [← headEq] at member
  obtain ⟨bounds, owner, idxBound, segIs, idxIs⟩ := rep.order_fields itemRep member suffix
  exact ⟨segId, idx, inOrder, bounds, idxBound, segIs, idxIs, owner.trans headEq,
    headEq ▸ member, suffix⟩

theorem GhostRep.order_nodup (increasing : Increasing entries) : table.idxOrder.Nodup := by
  rw [nodup_iff_getElem?_ne_getElem?]
  intro first second less inside same
  rw [rep.orderLength] at inside
  have atFirst : entries[first]? = some (entries[first]) := List.getElem?_eq_getElem _
  have atSecond : entries[second]? = some (entries[second]) := List.getElem?_eq_getElem _
  obtain ⟨segId, idx, inOrder, -, -, segIs, idxIs, owner, -, suffix⟩ := rep.order_at atFirst
  obtain ⟨other, place, otherOrder, -, -, otherIs, placeIs, otherOwner, -, otherSuffix⟩ :=
    rep.order_at atSecond
  rw [inOrder, otherOrder, Option.some.injEq] at same
  have sameSeg : segId = other := by rw [← segIs, ← otherIs, same]
  have sameIdx : idx = place := by rw [← idxIs, ← placeIs, same]
  subst sameSeg sameIdx
  have firstIn := mem_of_getElem? atFirst
  have secondIn := mem_of_getElem? atSecond
  have sameTag := rep.head_injective firstIn secondIn (owner.symm.trans otherOwner)
  have sameSuffix := Option.some.inj (suffix.symm.trans otherSuffix)
  have sameLsn : entries[first].lsn = entries[second].lsn := by
    rw [← combine_suffix table _ (rep.samePrefix _ firstIn), sameSuffix,
      combine_suffix table _ (rep.samePrefix _ secondIn)]
  exact absurd sameLsn (ne_of_lt
    (pairwise_iff_getElem.mp increasing _ _ _ _ less sameTag))

theorem GhostRep.order_le (increasing : Increasing entries) :
    table.idxOrder.length ≤ maxOrderNum := by
  have within : table.idxOrder ⊆ List.range maxOrderNum := by
    intro _ member
    obtain ⟨pos, inside, rfl⟩ := getElem_of_mem member
    have inEntries : pos < entries.length := rep.orderLength ▸ inside
    have found : entries[pos]? = some (entries[pos]) := List.getElem?_eq_getElem _
    obtain ⟨_, _, inOrder, segBound, idxBound, -⟩ := rep.order_at found
    rw [List.getElem?_eq_getElem inside, Option.some.injEq] at inOrder
    rw [mem_range, inOrder, order_entry_eq segBound.2 (idxBound.trans (by decide)),
      Nat.shiftLeft_eq]
    simp only [memTblSegNum, itemSegLsnNum, maxOrderNum] at *
    omega
  simpa using ((rep.order_nodup increasing).subperm within).length_le

end

theorem lsns_of_pairwise (increasing : Increasing entries) (tag : Tag) :
    (lsnsOf tag entries).Pairwise (· < ·) := by
  rw [lsnsOf, pairwise_map]
  apply (List.Pairwise.filter _ increasing).imp_of_mem
  intro _ _ earlierIn laterIn less
  have earlierTag := of_decide_eq_true (mem_filter.mp earlierIn).2
  have laterTag := of_decide_eq_true (mem_filter.mp laterIn).2
  exact less (earlierTag.trans laterTag.symm)

theorem GhostRep.page_chain (rep : GhostRep key freeHead table entries ghost)
    (increasing : Increasing entries) (member : entry ∈ entries) :
    ∃ item segs, logIndexTblFind entry.tag table (key entry.tag) = some item ∧
      PageChain table entries entry.tag item segs := by
  obtain ⟨item, atHead, -, headEq, itemRep⟩ := rep.head_item member
  have content := itemRep.content
  have sorted : ((lsnsOf entry.tag entries).map suffixOf).Pairwise (· < ·) := by
    rw [pairwise_map]
    apply (lsns_of_pairwise increasing entry.tag).imp_of_mem
    intro low high lowIn highIn less
    have lowPrefix := rep.lsns_prefix entry.tag low lowIn
    exact suffix_lt_of_lt (lowPrefix.symm.trans (rep.lsns_prefix entry.tag high highIn)) less
  refine ⟨item, (ghost.segs entry.tag).reverse, ?_, itemRep.forward, ?_, content, ?_, ?_, ?_⟩
  · rw [logIndexTblFind, rep.exists_page member, atHead]
  · rw [reverse_reverse]
    exact itemRep.backward
  · rwa [content]
  · rw [content, length_map, lsnsOf, length_map]
  · intro segId inChain idx _
    let chain := item.headSeg :: (ghost.segs entry.tag).reverse
    have whole : chain.flatMap (segSuffixes table) = (lsnsOf entry.tag entries).map suffixOf := by
      rw [flatMap_cons, segSuffixes, itemRep.atHead]
      exact content
    have stored : (segSuffixes table segId)[idx]? = some (segSuffixes table segId)[idx] :=
      List.getElem?_eq_getElem _
    -- the suffix belongs to an insert of the page, and that insert's order entry names it
    have inWhole : (segSuffixes table segId)[idx] ∈ chain.flatMap (segSuffixes table) :=
      mem_flatMap.mpr ⟨segId, inChain, mem_of_getElem? stored⟩
    rw [whole] at inWhole
    obtain ⟨_, lsnIn, sameSuffix⟩ := mem_map.mp inWhole
    obtain ⟨_, otherIn, sameTag, rfl⟩ := mem_lsns_of.mp lsnIn
    obtain ⟨pos, inEntries, found⟩ := getElem_of_mem otherIn
    obtain ⟨place, _, inOrder, -, -, -, -, -, placeIn, placed⟩ :=
      rep.order_at (List.getElem?_eq_some_iff.mpr ⟨inEntries, found⟩)
    have placeChain : place ∈ chain := by
      rw [sameTag, ← headEq] at placeIn
      simpa [chain] using placeIn
    rw [← sameSuffix] at stored
    obtain ⟨rfl, rfl⟩ := place_unique (whole ▸ sorted.imp ne_of_lt) placeChain inChain placed stored
    refine ⟨pos, inOrder, fun again againOrder => ?_⟩
    exact (List.getElem?_inj (List.getElem?_eq_some_iff.mp againOrder).1
      (rep.order_nodup increasing)).mp (againOrder.trans inOrder.symm)

theorem GhostRep.bucket_chain (rep : GhostRep key freeHead table entries ghost) (slot : Nat) :
    BucketChain key table entries slot (ghost.bucket slot) where
  path := rep.bucketPath slot
  acyclic := rep.bucketNodup slot
  head := by
    intro segId member
    obtain ⟨entry, entryIn, inKey, rfl⟩ := (rep.bucketMem slot segId).mp member
    exact ⟨entry, entryIn, inKey, by rw [rep.head_has_tag entryIn, decide_eq_true rfl]⟩
  page := by
    intro entry member inKey
    refine ⟨ghost.head entry.tag, ⟨(rep.bucketMem slot _).mpr ⟨entry, member, inKey, rfl⟩, ?_⟩, ?_⟩
    · rw [rep.head_has_tag member, decide_eq_true rfl]
    · rintro segId ⟨inBucket, hit⟩
      obtain ⟨_, otherIn, -, rfl⟩ := (rep.bucketMem slot segId).mp inBucket
      rw [rep.head_has_tag otherIn] at hit
      rw [of_decide_eq_true hit]

end Order

theorem TableRep.invariant {key : Tag → Nat} {freeHead : Nat} {mem : LogMemTable Tag}
    {entries : List (LogIndexLsn Tag)} (rep : TableRep key freeHead mem.data entries)
    (increasing : Increasing entries) (nonempty : entries ≠ [])
    (freeLe : mem.freeHead ≤ memTblSegNum) : TableInvariant key mem entries := by
  obtain ⟨_, rep⟩ := rep
  have mapped : entries.map LogIndexLsn.lsn ≠ [] := by simpa using nonempty
  refine
    { buckets := fun slot => ⟨_, rep.bucket_chain slot⟩
      pages := fun entry member => rep.page_chain increasing member
      order := ?_
      orderLength := rep.orderLength
      orderLe := rep.order_le increasing
      freeLe := freeLe
      minLsn := ⟨?_, ?_⟩
      maxLsn := ⟨?_, ?_⟩ }
  · intro _ entry found
    obtain ⟨segId, idx, inOrder, segBound, idxBound, segIs, idxIs, owner, -, suffix⟩ :=
      rep.order_at found
    obtain ⟨_, atHead, tagEq, -⟩ := rep.head_item (mem_of_getElem? found)
    refine ⟨segId, idx, inOrder, segBound, idxBound, segIs, idxIs, ?_, suffix⟩
    rw [logIndexGetSegPageTag, owner, atHead, Option.map_some, tagEq]
  · obtain ⟨first, _, rfl⟩ := exists_cons_of_ne_nil nonempty
    exact ⟨first, mem_cons_self, rep.minLsn.symm⟩
  · rintro lsn ⟨entry, member, rfl⟩
    exact rep.min_le_lsn member
  · rw [rep.maxLsn]
    exact mem_map.mp (getLastD_mem mapped)
  · rintro lsn ⟨entry, member, rfl⟩
    exact rep.lsn_le_max member

omit [DecidableEq Tag] in
theorem increasing_of_admitted {log : List (LogIndexLsn Tag)} (ordered : Admitted InOrder log) :
    Increasing log :=
  ordered.pairwise fun _ _ inOrder earlier member sameTag => inOrder.newer earlier member sameTag

/-- The tables together hold the added pairs, there are as many as the newest table's id says, every
one that is not saved is in its slot, and every used slot has the shape of the pairs added to its
table. -/
def TablesInvariant (cfg : Config Tag) (st : RunState Tag) (tabs : List (List (LogIndexLsn Tag))) :
    Prop :=
  tabs.flatten = st.log ∧ tabs.length = st.snap.maxIdxTableId ∧
    (∀ tid, st.snap.indexMeta.maxIdxTableId < tid → tid ≤ tabs.length →
      (st.snap.memTable (slotOf cfg tid)).state ≠ .free ∧
        (st.snap.memTable (slotOf cfg tid)).data.idxTableId = tid) ∧
    ∀ slot < cfg.memTblSize, (st.snap.memTable slot).state ≠ .free → ∃ entries,
      0 < (st.snap.memTable slot).data.idxTableId ∧
      tabs[(st.snap.memTable slot).data.idxTableId - 1]? = some entries ∧
      TableInvariant (hashKey cfg) (st.snap.memTable slot) entries

/-- Whatever was added, flushed and read. -/
theorem mem_table_invariant {cfg : Config Tag} {st : RunState Tag}
    (run : Run cfg RunState.start st) : ∃ tabs, TablesInvariant cfg st tabs := by
  obtain ⟨tabs, runRep, filled⟩ := run_rep_of_run run
  refine ⟨tabs, runRep.content, runRep.rep.count.symm, fun tid unsaved within => ?_, ?_⟩
  · have isId := runRep.rep.memory.unsaved tid unsaved within
    refine ⟨fun free => ?_, isId⟩
    have slotRep := runRep.rep.memory.slots _ (slot_of_lt cfg tid)
    unfold SlotRep at slotRep
    rw [free] at slotRep
    rw [slotRep] at isId
    exact absurd (isId ▸ unsaved) (Nat.not_lt_zero _)
  intro slot inside used
  obtain ⟨_, idEq, -, ⟨positive, -, entries, _, found, rep⟩, -⟩ :=
    (runRep.rep.memory.slots slot inside).cases used
  rw [idEq]
  have inTabs := mem_of_getElem? found
  have increasing : Increasing entries :=
    (increasing_of_admitted (runRep.content ▸ runRep.ordered)).sublist
      (sublist_flatten_of_mem inTabs)
  exact ⟨entries, positive, found, rep.invariant increasing (ne_of_mem_of_not_mem inTabs filled)
    (runRep.rep.memory.freeLe slot)⟩

theorem mem_table_invariant_small : ∃ st, Run smallConfig RunState.start st ∧ st.log = smallLog ∧
    ∃ tabs, TablesInvariant smallConfig st tabs := by
  obtain ⟨st, run, -, logEq⟩ := run_exists smallConfig small_log_ordered
  exact ⟨st, run, logEq, mem_table_invariant run⟩

end PolarDB.LogIndex
