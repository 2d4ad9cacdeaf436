import Mathlib.Data.List.Infix
import PolarDB.LogIndex.Table

/-!
# What a logindex table represents

A table represents the list of pairs inserted into it, in insertion order. The
ghost names, for each bucket, the heads on its chain and, for each page, its head
and the segments behind it from the tail backwards. Every insert of the source is
one of three updates: a new item, a new segment of an item, or one more lsn in
the tail segment.
-/

namespace PolarDB.LogIndex

open Function List Lib.Linked Lib.Snoc

variable {Tag : Type}

def lsnsOf [DecidableEq Tag] (tag : Tag) (entries : List (LogIndexLsn Tag)) : List Nat :=
  (entries.filter fun entry => entry.tag = tag).map LogIndexLsn.lsn

def firstPrev [DecidableEq Tag] (tag : Tag) (entries : List (LogIndexLsn Tag)) : Nat :=
  ((entries.find? fun entry => entry.tag = tag).map LogIndexLsn.prevLsn).getD invalidLsn

/-- `prev_page_lsn` of the head at a segment. -/
def prevPageOf (table : LogIdxTableData Tag) (segId : Nat) : Nat :=
  match table.segment segId with
  | .itemHead item => item.prevPageLsn
  | _ => invalidLsn

/-- One page's head and the segments behind it. `segs` runs from the tail to the
segment after the head. -/
structure ItemRep (table : LogIdxTableData Tag) (freeHead : Nat) (lsns : List Nat)
    (item : LogItemHead Tag) (segs : List Nat) : Prop where
  atHead : table.segment item.headSeg = .itemHead item
  headPos : 0 < item.headSeg
  headLt : item.headSeg < freeHead
  headCount : 0 < item.suffixLsn.length ∧ item.suffixLsn.length ≤ itemHeadLsnNum
  backward : Path (prevSegOf table) item.headSeg item.tailSeg segs
  forward : Path (nextSegOf table) invalidSeg item.nextSeg segs.reverse
  segsIn : ∀ segId ∈ segs, 0 < segId ∧ segId < freeHead ∧ ∃ seg,
    table.segment segId = .itemSeg seg ∧ seg.headSeg = item.headSeg ∧
      0 < seg.suffixLsn.length ∧ seg.suffixLsn.length ≤ itemSegLsnNum
  content : item.suffixLsn ++ segs.reverse.flatMap (segSuffixes table) = lsns.map suffixOf

structure TableGhost (Tag : Type) where
  bucket : Nat → List Nat
  head : Tag → Nat
  segs : Tag → List Nat

/-- The representation invariant for given ghost data. -/
structure GhostRep [DecidableEq Tag] (hashKey : Tag → Nat) (freeHead : Nat)
    (table : LogIdxTableData Tag) (entries : List (LogIndexLsn Tag)) (ghost : TableGhost Tag) :
    Prop where
  freePos : 0 < freeHead
  freeLe : freeHead ≤ memTblSegNum
  unused : ∀ segId, freeHead ≤ segId → table.segment segId = .unused
  bucketPath : ∀ key, Path (nextItemOf table) invalidSeg (table.hash key) (ghost.bucket key)
  bucketNodup : ∀ key, (ghost.bucket key).Nodup
  bucketMem : ∀ key segId, segId ∈ ghost.bucket key ↔
    ∃ entry ∈ entries, hashKey entry.tag = key ∧ ghost.head entry.tag = segId
  items : ∀ entry ∈ entries, ∃ item, item.tag = entry.tag ∧ item.headSeg = ghost.head entry.tag ∧
    ItemRep table freeHead (lsnsOf entry.tag entries) item (ghost.segs entry.tag)
  prevs : ∀ entry ∈ entries, prevPageOf table (ghost.head entry.tag) = firstPrev entry.tag entries
  orderLength : table.idxOrder.length = entries.length
  order : ∀ (pos : Nat) (entry : LogIndexLsn Tag), entries[pos]? = some entry →
    ∃ segId ∈ ghost.head entry.tag :: ghost.segs entry.tag, ∃ idx,
    table.idxOrder[pos]? = some (orderEntry segId idx) ∧ (segSuffixes table segId)[idx]? =
    some (suffixOf entry.lsn)
  samePrefix : ∀ entry ∈ entries, table.prefixLsn = prefixOf entry.lsn
  bounded : ∀ entry ∈ entries, 0 < entry.lsn ∧ entry.lsn ≤ uint64Max
  sorted : entries.Pairwise fun earlier later => earlier.lsn ≤ later.lsn
  minLsn : table.minLsn = (entries.map LogIndexLsn.lsn).headD uint64Max
  maxLsn : table.maxLsn = (entries.map LogIndexLsn.lsn).getLastD invalidLsn

/-- `table` holds exactly `entries`, and its segments from `freeHead` on are unused. -/
def TableRep [DecidableEq Tag] (hashKey : Tag → Nat) (freeHead : Nat)
    (table : LogIdxTableData Tag) (entries : List (LogIndexLsn Tag)) : Prop :=
  ∃ ghost, GhostRep hashKey freeHead table entries ghost

theorem TableRep.free_le [DecidableEq Tag] {hashKey : Tag → Nat} {freeHead : Nat}
    {table : LogIdxTableData Tag} {entries : List (LogIndexLsn Tag)}
    (rep : TableRep hashKey freeHead table entries) : freeHead ≤ memTblSegNum := by
  obtain ⟨_, rep⟩ := rep
  exact rep.freeLe

section ItemLemmas
variable {before after table : LogIdxTableData Tag} {freeHead later : Nat} {lsns : List Nat}
  {item : LogItemHead Tag} {segs : List Nat}
variable {segId : Nat}

theorem item_head_of_segment (positive : 0 < segId)
    (content : table.segment segId = .itemHead item) :
    logIndexItemHead table segId = some item := by
  simp [logIndexItemHead, content, invalidSeg, ne_of_gt positive]

theorem item_seg_of_segment {seg : LogItemSeg} (positive : 0 < segId)
    (content : table.segment segId = .itemSeg seg) : logIndexItemSeg table segId = some seg := by
  simp [logIndexItemSeg, content, invalidSeg, ne_of_gt positive]

theorem suffixes_congr (same : ∀ segId ∈ segs, after.segment segId = before.segment segId) :
    segs.reverse.flatMap (segSuffixes after) = segs.reverse.flatMap (segSuffixes before) := by
  apply flatMap_congr
  intro segId mem
  simp only [segSuffixes, same segId (mem_reverse.mp mem)]

section
variable (rep : ItemRep table freeHead lsns item segs)
include rep

theorem ItemRep.headSeg_of_mem (mem : segId ∈ segs) : segHeadSeg table segId = item.headSeg := by
  obtain ⟨-, -, _, content, owner, -⟩ := rep.segsIn segId mem
  rw [segHeadSeg, content]
  exact owner

theorem ItemRep.headSeg_of_head : segHeadSeg table item.headSeg = item.headSeg := by
  rw [segHeadSeg, rep.atHead]

theorem ItemRep.of_mem (mem : segId ∈ item.headSeg :: segs) :
    0 < segId ∧ segId < freeHead ∧ segHeadSeg table segId = item.headSeg ∧
      (segSuffixes table segId).length ≤ itemSegLsnNum := by
  rcases mem_cons.mp mem with rfl | inside
  · refine ⟨rep.headPos, rep.headLt, rep.headSeg_of_head, ?_⟩
    rw [segSuffixes, rep.atHead]
    exact rep.headCount.2.trans (by decide)
  · obtain ⟨positive, bound, _, content, -, -, _⟩ := rep.segsIn segId inside
    exact ⟨positive, bound, rep.headSeg_of_mem inside, by rwa [segSuffixes, content]⟩

theorem ItemRep.tail_eq_head : item.tailSeg = item.headSeg ↔ segs = [] := by
  constructor
  · intro same
    by_contra nonempty
    exact path_start_ne_stop rep.backward nonempty same
  · rintro rfl
    exact rep.backward

end

theorem ItemRep.tail_seg {tail : Nat} {rest : List Nat} {seg : LogItemSeg}
    (rep : ItemRep table freeHead lsns item (tail :: rest))
    (atTail : table.segment tail = .itemSeg seg) :
    0 < tail ∧ tail < freeHead ∧ tail ≠ item.headSeg ∧ tail ∉ rest ∧ seg.headSeg = item.headSeg ∧
      0 < seg.suffixLsn.length ∧ seg.suffixLsn.length ≤ itemSegLsnNum := by
  obtain ⟨positive, bound, _, foundAt, facts⟩ := rep.segsIn tail mem_cons_self
  rw [atTail, LogTblSeg.itemSeg.injEq] at foundAt
  subst foundAt
  exact ⟨positive, bound, path_member_ne_stop rep.backward tail mem_cons_self,
    (nodup_cons.mp (path_nodup rep.backward)).1, facts⟩

theorem ItemRep.frame (rep : ItemRep before freeHead lsns item segs) (grow : freeHead ≤ later)
    (same : ∀ segId, segHeadSeg before segId = item.headSeg →
      after.segment segId = before.segment segId) : ItemRep after later lsns item segs := by
  have sameSeg : ∀ segId ∈ segs, after.segment segId = before.segment segId :=
    fun segId mem => same segId (rep.headSeg_of_mem mem)
  have samePrev : ∀ segId ∈ segs, prevSegOf after segId = prevSegOf before segId := by
    intro segId mem
    simp only [prevSegOf, logIndexItemSeg, sameSeg segId mem]
  have sameNext : ∀ segId ∈ segs.reverse, nextSegOf after segId = nextSegOf before segId := by
    intro segId mem
    simp only [nextSegOf, logIndexItemSeg, sameSeg segId (mem_reverse.mp mem)]
  refine
    { atHead := by rw [same _ rep.headSeg_of_head]; exact rep.atHead
      headPos := rep.headPos
      headLt := rep.headLt.trans_le grow
      headCount := rep.headCount
      backward := path_congr rep.backward samePrev
      forward := path_congr rep.forward sameNext
      segsIn := ?_
      content := by rw [suffixes_congr sameSeg]; exact rep.content }
  intro segId mem
  obtain ⟨positive, bound, seg, content, facts⟩ := rep.segsIn segId mem
  exact ⟨positive, bound.trans_le grow, seg, (sameSeg segId mem).trans content, facts⟩

end ItemLemmas

/-- What an insert may do to the segments already handed out. -/
structure Grows (freeHead : Nat) (before after : LogIdxTableData Tag) : Prop where
  headSeg : ∀ segId < freeHead, segHeadSeg after segId = segHeadSeg before segId
  nextItem : ∀ segId < freeHead, nextItemOf after segId = nextItemOf before segId
  suffixes : ∀ segId < freeHead, segSuffixes before segId <+: segSuffixes after segId
  prevPage : ∀ segId < freeHead, prevPageOf after segId = prevPageOf before segId

/-- An insert touches segments and the hash first, the rest of the table last. -/
structure SameOutline (before after : LogIdxTableData Tag) : Prop where
  order : after.idxOrder = before.idxOrder
  lsnPrefix : after.prefixLsn = before.prefixLsn
  minimum : after.minLsn = before.minLsn
  maximum : after.maxLsn = before.maxLsn

/-- One segment before and after an insert. -/
inductive SegGrows : LogTblSeg Tag → LogTblSeg Tag → Prop where
  | same (content : LogTblSeg Tag) : SegGrows content content
  | head (old new : LogItemHead Tag) (owner : new.headSeg = old.headSeg)
      (link : new.nextItem = old.nextItem) (prevPage : new.prevPageLsn = old.prevPageLsn)
      (longer : old.suffixLsn <+: new.suffixLsn) : SegGrows (.itemHead old) (.itemHead new)
  | seg (old new : LogItemSeg) (owner : new.headSeg = old.headSeg)
      (longer : old.suffixLsn <+: new.suffixLsn) : SegGrows (.itemSeg old) (.itemSeg new)

theorem grows_of_seg_grows {freeHead : Nat} {before after : LogIdxTableData Tag}
    (grows : ∀ segId < freeHead, SegGrows (before.segment segId) (after.segment segId)) :
    Grows freeHead before after := by
  constructor
  all_goals
    intro segId bound
    simp only [segHeadSeg, nextItemOf, logIndexItemHead, segSuffixes, prevPageOf]
    have step := grows segId bound
    generalize before.segment segId = old, after.segment segId = new at step ⊢
  · cases step with
    | same => rfl
    | head _ _ owner | seg _ _ owner => exact owner
  · cases step with
    | same => rfl
    | head old new owner link =>
      split
      · rfl
      · exact link
    | seg => rfl
  · cases step with
    | same => exact prefix_rfl
    | head _ _ _ _ _ longer | seg _ _ _ longer => exact longer
  · cases step with
    | same => rfl
    | head _ _ _ _ prevPage => exact prevPage
    | seg => rfl

/-- What an insert does to the table: it grows segments of the page whose head is
`head` and takes new ones below `later`. -/
structure Insertion (freeHead later head : Nat) (before after : LogIdxTableData Tag) : Prop where
  grow : freeHead ≤ later
  room : later ≤ memTblSegNum
  unused : ∀ segId, later ≤ segId → after.segment segId = .unused
  grows : Grows freeHead before after
  frame : ∀ segId, segHeadSeg before segId ≠ invalidSeg → segHeadSeg before segId ≠ head →
    after.segment segId = before.segment segId
  outline : SameOutline before after

section Insert
variable [DecidableEq Tag] {hashKey : Tag → Nat} {freeHead later : Nat}
  {table after : LogIdxTableData Tag} {entries : List (LogIndexLsn Tag)} {ghost : TableGhost Tag}
  {info : LogIndexLsn Tag}

theorem lsns_of_append_same (entries : List (LogIndexLsn Tag)) (info : LogIndexLsn Tag) :
    lsnsOf info.tag (entries ++ [info]) = lsnsOf info.tag entries ++ [info.lsn] := by
  simp [lsnsOf, filter_append]

theorem lsns_of_append_other (entries : List (LogIndexLsn Tag)) {tag : Tag}
    (apart : info.tag ≠ tag) : lsnsOf tag (entries ++ [info]) = lsnsOf tag entries := by
  simp [lsnsOf, filter_append, apart]

theorem first_prev_append_known {tag : Tag} (known : ∃ entry ∈ entries, entry.tag = tag) :
    firstPrev tag (entries ++ [info]) = firstPrev tag entries := by
  rcases known with ⟨entry, mem, tagEq⟩
  cases found : entries.find? fun entry => decide (entry.tag = tag) with
  | none => exact absurd tagEq (by simpa using List.find?_eq_none.mp found entry mem)
  | some => simp [firstPrev, List.find?_append, found]

theorem first_prev_append_new (absent : ∀ entry ∈ entries, entry.tag ≠ info.tag) :
    firstPrev info.tag (entries ++ [info]) = info.prevLsn := by
  have none : entries.find? (fun entry => decide (entry.tag = info.tag)) = none := by
    simpa using absent
  simp [firstPrev, List.find?_append, none]

/-- What the position of the inserted pair has to satisfy. -/
structure Appendable (table : LogIdxTableData Tag) (entries : List (LogIndexLsn Tag))
    (info : LogIndexLsn Tag) : Prop where
  positive : 0 < info.lsn
  bounded : info.lsn ≤ uint64Max
  samePrefix : table.prefixLsn = prefixOf info.lsn
  latest : ∀ entry ∈ entries, entry.lsn ≤ info.lsn

section
variable (rep : GhostRep hashKey freeHead table entries ghost)
  (fits : Appendable table entries info)
include rep fits

theorem GhostRep.lsn_bounds_insert :
    min info.lsn table.minLsn = ((entries ++ [info]).map LogIndexLsn.lsn).headD uint64Max ∧
      max info.lsn table.maxLsn = ((entries ++ [info]).map LogIndexLsn.lsn).getLastD
      invalidLsn := by
  constructor
  · rw [rep.minLsn]
    cases entries with
    | nil => simp [min_eq_left fits.bounded]
    | cons first => simp [min_eq_right (fits.latest first (by simp))]
  · rw [rep.maxLsn]
    rcases eq_nil_or_concat entries with rfl | ⟨front, last, rfl⟩
    · simp [invalidLsn]
    · have ordered := fits.latest last (by simp)
      simp [max_eq_left ordered]

end

section
variable {head : Nat} {segs : List Nat} {bucket : Nat → List Nat}
  (others : ∀ entry ∈ entries, ghost.head entry.tag = head ↔ entry.tag = info.tag)
include others

theorem head_insert {entry : LogIndexLsn Tag} (mem : entry ∈ entries) :
    update ghost.head info.tag head entry.tag = ghost.head entry.tag := by
  by_cases same : entry.tag = info.tag
  · exact same ▸ (update_self ..).trans ((others entry mem).mpr same).symm
  · exact update_of_ne same _ _

/-- The heads on a bucket are the old ones and that of the inserted page. -/
theorem bucket_mem_insert
    (members : ∀ key segId, segId ∈ bucket key ↔ (hashKey info.tag = key ∧ head = segId) ∨
      ∃ entry ∈ entries, hashKey entry.tag = key ∧ ghost.head entry.tag = segId) (key segId : Nat) :
    segId ∈ bucket key ↔ ∃ entry ∈ entries ++ [info], hashKey entry.tag = key ∧
      update ghost.head info.tag head entry.tag = segId := by
  rw [members]
  constructor
  · rintro (⟨inKey, rfl⟩ | ⟨entry, mem, inKey, same⟩)
    · exact ⟨info, by simp, inKey, update_self ..⟩
    · exact ⟨entry, by simp [mem], inKey, (head_insert others mem).trans same⟩
  · rintro ⟨entry, mem, inKey, same⟩
    rcases mem_append.mp mem with old | new
    · exact .inr ⟨entry, old, inKey, (head_insert others old).symm.trans same⟩
    · rw [mem_singleton.mp new] at inKey same
      exact .inl ⟨inKey, (update_self ..).symm.trans same⟩

variable (rep : GhostRep hashKey freeHead table entries ghost)
  (insertion : Insertion freeHead later head table after)
include rep insertion

/-- The frame covers the other pages. -/
theorem GhostRep.items_insert (page : ∃ item, item.tag = info.tag ∧ item.headSeg = head ∧
      ItemRep after later (lsnsOf info.tag entries ++ [info.lsn]) item segs)
    {entry : LogIndexLsn Tag} (mem : entry ∈ entries ++ [info]) :
    ∃ item, item.tag = entry.tag ∧ item.headSeg = update ghost.head info.tag head entry.tag ∧
      ItemRep after later (lsnsOf entry.tag (entries ++ [info])) item
      (update ghost.segs info.tag segs entry.tag) := by
  by_cases same : entry.tag = info.tag
  · rw [same, update_self, update_self, lsns_of_append_same]
    exact page
  have old : entry ∈ entries := by
    rcases mem_append.mp mem with old | new
    · exact old
    · exact absurd (congrArg LogIndexLsn.tag (mem_singleton.mp new)) same
  obtain ⟨item, tagEq, headEq, itemRep⟩ := rep.items entry old
  refine ⟨item, tagEq, headEq.trans (update_of_ne same ..).symm, ?_⟩
  rw [update_of_ne same, lsns_of_append_other entries (Ne.symm same)]
  apply itemRep.frame insertion.grow
  intro candidate owner
  refine insertion.frame candidate (by rw [owner]; exact ne_of_gt itemRep.headPos) ?_
  rw [owner, headEq]
  exact fun equal => same ((others entry old).mp equal)

theorem GhostRep.prevs_insert
    (newPrev : (∀ entry ∈ entries, entry.tag ≠ info.tag) → prevPageOf after head = info.prevLsn) :
    ∀ entry ∈ entries ++ [info], prevPageOf after (update ghost.head info.tag head entry.tag) =
      firstPrev entry.tag (entries ++ [info]) := by
  have oldCase : ∀ old ∈ entries, prevPageOf after (update ghost.head info.tag head old.tag) =
      firstPrev old.tag (entries ++ [info]) := by
    intro old oldIn
    rcases rep.items old oldIn with ⟨item, -, headEq, itemRep⟩
    rw [head_insert others oldIn, first_prev_append_known ⟨old, oldIn, rfl⟩, ← rep.prevs old oldIn]
    exact insertion.grows.prevPage _ (headEq ▸ itemRep.headLt)
  refine forall_mem_snoc.mpr ⟨oldCase, ?_⟩
  by_cases known : ∃ old ∈ entries, old.tag = info.tag
  · rcases known with ⟨old, oldIn, sameTag⟩
    exact sameTag ▸ oldCase old oldIn
  have absent : ∀ other ∈ entries, other.tag ≠ info.tag :=
    fun other otherIn sameTag => known ⟨other, otherIn, sameTag⟩
  rw [update_self, first_prev_append_new absent]
  exact newPrev absent

theorem GhostRep.order_insert {segId idx : Nat}
    (keeps : ∀ entry ∈ entries, entry.tag = info.tag → ghost.segs info.tag ⊆ segs)
    (placed : segId ∈ head :: segs)
    (stored : (segSuffixes after segId)[idx]? = some (suffixOf info.lsn)) {pos : Nat}
    {entry : LogIndexLsn Tag} (found : (entries ++ [info])[pos]? = some entry) :
    ∃ segId' ∈ update ghost.head info.tag head entry.tag :: update ghost.segs info.tag segs entry.tag,
      ∃ idx',
      (addOrder after segId idx).idxOrder[pos]? = some (orderEntry segId' idx') ∧
        (segSuffixes after segId')[idx']? = some (suffixOf entry.lsn) := by
  rcases getElem_snoc found with ⟨found, early⟩ | ⟨rfl, rfl⟩
  · obtain ⟨oldSeg, oldIn, oldIdx, inOrder, suffix⟩ := rep.order pos entry found
    have mem : entry ∈ entries := mem_of_getElem? found
    obtain ⟨_, -, headEq, itemRep⟩ := rep.items entry mem
    refine ⟨oldSeg, ?_, oldIdx, ?_, ?_⟩
    · rw [head_insert others mem]
      by_cases same : entry.tag = info.tag
      · rw [same] at oldIn ⊢
        rw [update_self]
        exact cons_subset_cons _ (keeps entry mem same) oldIn
      · rwa [update_of_ne same]
    · simp only [addOrder, insertion.outline.order]
      rw [List.getElem?_append_left (by rw [rep.orderLength]; exact early)]
      exact inOrder
    · obtain ⟨_, whole⟩ := insertion.grows.suffixes oldSeg (itemRep.of_mem (headEq ▸ oldIn)).2.1
      rw [← whole, List.getElem?_append_left]
      · exact suffix
      · exact (List.getElem?_eq_some_iff.mp suffix).1
  · refine ⟨segId, ?_, idx, ?_, stored⟩
    · simpa only [update_self] using placed
    · simp [addOrder, insertion.outline.order, ← rep.orderLength]

variable (segs bucket) in
/-- The representation after an insert, from what the insert did to the inserted page. -/
theorem GhostRep.insert (fits : Appendable table entries info) {segId idx : Nat}
    (paths : ∀ key, Path (nextItemOf after) invalidSeg (after.hash key) (bucket key))
    (nodup : ∀ key, (bucket key).Nodup)
    (members : ∀ key segId, segId ∈ bucket key ↔ (hashKey info.tag = key ∧ head = segId) ∨
        ∃ entry ∈ entries, hashKey entry.tag = key ∧ ghost.head entry.tag = segId)
    (keeps : ∀ entry ∈ entries, entry.tag = info.tag → ghost.segs info.tag ⊆ segs)
    (page : ∃ item, item.tag = info.tag ∧ item.headSeg = head ∧
      ItemRep after later (lsnsOf info.tag entries ++ [info.lsn]) item segs)
    (placed : segId ∈ head :: segs)
    (stored : (segSuffixes after segId)[idx]? = some (suffixOf info.lsn))
    (newPrev : (∀ entry ∈ entries, entry.tag ≠ info.tag) → prevPageOf after head = info.prevLsn) :
    TableRep hashKey later (updateBounds (addOrder after segId idx) info.lsn)
      (entries ++ [info]) := by
  have bounds := rep.lsn_bounds_insert fits
  have outline := insertion.outline
  have prevs := rep.prevs_insert others insertion newPrev
  refine ⟨⟨bucket, update ghost.head info.tag head, update ghost.segs info.tag segs⟩, ?_⟩
  refine
    { freePos := rep.freePos.trans_le insertion.grow
      freeLe := insertion.room
      unused := insertion.unused
      bucketPath := paths
      bucketNodup := nodup
      bucketMem := bucket_mem_insert others members
      items := ?_
      prevs := prevs
      orderLength := by simp [updateBounds, addOrder, outline.order, rep.orderLength]
      order := fun _ _ found => rep.order_insert others insertion keeps placed stored found
      samePrefix := ?_
      bounded := forall_mem_snoc.mpr ⟨rep.bounded, fits.positive, fits.bounded⟩
      sorted := pairwise_snoc.mpr ⟨rep.sorted, fits.latest⟩
      minLsn := by simpa [updateBounds, addOrder, outline.minimum] using bounds.1
      maxLsn := by simpa [updateBounds, addOrder, outline.maximum] using bounds.2 }
  · intro _ mem
    obtain ⟨item, tagEq, headEq, itemRep⟩ := rep.items_insert others insertion page mem
    exact ⟨item, tagEq, headEq, itemRep.frame le_rfl fun _ _ => rfl⟩
  · change ∀ entry ∈ entries ++ [info], after.prefixLsn = prefixOf entry.lsn
    rw [outline.lsnPrefix]
    exact forall_mem_snoc.mpr ⟨rep.samePrefix, fits.samePrefix⟩

end

variable {entry : LogIndexLsn Tag}

variable (rep : GhostRep hashKey freeHead table entries ghost)
include rep

theorem GhostRep.head_bounds (mem : entry ∈ entries) : 0 < ghost.head entry.tag ∧
    ghost.head entry.tag < freeHead := by
  obtain ⟨_, -, headEq, itemRep⟩ := rep.items entry mem
  exact ⟨headEq ▸ itemRep.headPos, headEq ▸ itemRep.headLt⟩

theorem GhostRep.head_item (mem : entry ∈ entries) :
    ∃ item, logIndexItemHead table (ghost.head entry.tag) = some item ∧ item.tag = entry.tag ∧
      item.headSeg = ghost.head entry.tag ∧
      ItemRep table freeHead (lsnsOf entry.tag entries) item (ghost.segs entry.tag) := by
  obtain ⟨item, tagEq, headEq, itemRep⟩ := rep.items entry mem
  refine ⟨item, ?_, tagEq, headEq, itemRep⟩
  rw [← headEq]
  exact item_head_of_segment itemRep.headPos itemRep.atHead

theorem GhostRep.head_injective {left right : LogIndexLsn Tag} (leftIn : left ∈ entries)
    (rightIn : right ∈ entries) (same : ghost.head left.tag = ghost.head right.tag) :
    left.tag = right.tag := by
  obtain ⟨_, leftAt, leftTag, -⟩ := rep.head_item leftIn
  obtain ⟨_, rightAt, rightTag, -⟩ := rep.head_item rightIn
  rw [same, rightAt] at leftAt
  rw [← leftTag, ← rightTag, Option.some.inj leftAt]

theorem GhostRep.bucket_short (key : Nat) : (ghost.bucket key).length < memTblSegNum := by
  have inside : ∀ segId ∈ ghost.bucket key, 0 < segId ∧ segId < freeHead := by
    intro segId mem
    obtain ⟨_, entryIn, -, rfl⟩ := (rep.bucketMem key segId).mp mem
    exact rep.head_bounds entryIn
  have short := nodup_length_lt_bound (rep.bucketNodup key)
    (fun segId mem => (inside segId mem).1) (fun segId mem => (inside segId mem).2)
    rep.freePos
  exact short.trans_le rep.freeLe

theorem GhostRep.head_has_tag (mem : entry ∈ entries) (tag : Tag) :
    headHasTag table tag (ghost.head entry.tag) = decide (entry.tag = tag) := by
  obtain ⟨_, found, tagEq, -⟩ := rep.head_item mem
  simp [headHasTag, found, tagEq]

theorem GhostRep.exists_page (mem : entry ∈ entries) :
    logIndexMemTblExistsPage entry.tag table (hashKey entry.tag) = ghost.head entry.tag := by
  apply search_path_unique (rep.bucketPath (hashKey entry.tag)) _ (rep.bucket_short _)
  · exact (rep.bucketMem _ _).mpr ⟨entry, mem, rfl, rfl⟩
  · rw [rep.head_has_tag mem]
    simp
  · intro _ inside hit
    obtain ⟨_, otherIn, -, rfl⟩ := (rep.bucketMem _ _).mp inside
    rw [rep.head_has_tag otherIn] at hit
    rw [of_decide_eq_true hit]

theorem GhostRep.missing_page {tag : Tag} (absent : ∀ entry ∈ entries, entry.tag ≠ tag) :
    logIndexMemTblExistsPage tag table (hashKey tag) = invalidSeg := by
  apply search_path_none (rep.bucketPath (hashKey tag)) _ (rep.bucket_short _)
  intro _ inside
  obtain ⟨other, otherIn, -, rfl⟩ := (rep.bucketMem _ _).mp inside
  rw [rep.head_has_tag otherIn]
  simpa using absent other otherIn

/-- An insert that changes only segments of the list `own`, all of one page, and the
segments between `freeHead` and `later`. -/
theorem GhostRep.insertion {head : Nat}
    (own : List Nat) (inside : ∀ segId ∈ own, segId < freeHead ∧ segHeadSeg table segId = head)
    (grow : freeHead ≤ later) (room : later ≤ memTblSegNum)
    (grows : ∀ segId ∈ own, SegGrows (table.segment segId) (after.segment segId))
    (kept : ∀ segId ∉ own, segId < freeHead ∨ later ≤ segId →
      after.segment segId = table.segment segId) (outline : SameOutline table after) :
    Insertion freeHead later head table after where
  grow := grow
  room := room
  unused := by
    intro segId above
    rw [kept segId (fun mem => by have := inside segId mem; omega) (.inr above)]
    exact rep.unused segId (grow.trans above)
  grows := by
    apply grows_of_seg_grows
    intro segId bound
    by_cases mem : segId ∈ own
    · exact grows segId mem
    · rw [kept segId mem (.inl bound)]
      exact .same _
  frame := by
    intro segId used other
    apply kept segId (fun mem => other (inside segId mem).2)
    by_contra outside
    exact used (by rw [segHeadSeg, rep.unused segId (by omega)])
  outline := outline

end Insert

section NewItem
variable [DecidableEq Tag] {hashKey : Tag → Nat} {freeHead : Nat}
  {table : LogIdxTableData Tag} {entries : List (LogIndexLsn Tag)} {info : LogIndexLsn Tag}

theorem table_rep_new_item (rep : TableRep hashKey freeHead table entries)
    (fits : Appendable table entries info) (room : freeHead < memTblSegNum)
    (absent : ∀ entry ∈ entries, entry.tag ≠ info.tag) (head : Nat) :
    TableRep hashKey (freeHead + 1)
      (insertIntoSeg table (hashKey info.tag) head freeHead true info) (entries ++ [info]) := by
  obtain ⟨ghost, rep⟩ := rep
  let after := logIndexInsertNewItem info table (hashKey info.tag) freeHead
  let item : LogItemHead Tag :=
    { headSeg := freeHead
      nextItem := table.hash (hashKey info.tag)
      nextSeg := invalidSeg
      tailSeg := freeHead
      tag := info.tag
      prevPageLsn := info.prevLsn
      suffixLsn := [suffixOf info.lsn] }
  have fresh : after.segment freeHead = .itemHead item := update_self ..
  have noLsns : lsnsOf info.tag entries = [] := by
    simpa [lsnsOf] using absent
  have inBucket : ∀ key, ∀ segId ∈ ghost.bucket key, segId < freeHead := by
    intro key segId mem
    obtain ⟨entry, entryIn, -, rfl⟩ := (rep.bucketMem key segId).mp mem
    exact (rep.head_bounds entryIn).2
  have insertion : Insertion freeHead (freeHead + 1) freeHead table after := by
    refine rep.insertion [] nofun (Nat.le_succ _) room nofun ?_ ⟨rfl, rfl, rfl, rfl⟩
    intro segId _ _
    exact update_of_ne (by omega) _ _
  have oldPath : ∀ key, Path (nextItemOf after) invalidSeg (table.hash key) (ghost.bucket key) :=
    fun key => path_congr (rep.bucketPath key)
      (fun segId mem => insertion.grows.nextItem segId (inBucket key segId mem))
  change TableRep hashKey (freeHead + 1) (updateBounds (addOrder after freeHead 0) info.lsn) _
  refine rep.insert []
    (update ghost.bucket (hashKey info.tag) (freeHead :: ghost.bucket (hashKey info.tag)))
    ?_ insertion fits ?_ ?_ ?_ ?_ ?_ mem_cons_self ?_ ?_
  · intro entry mem
    have bound := (rep.head_bounds mem).2
    exact ⟨fun same => absurd same (ne_of_lt bound), fun same => absurd same (absent entry mem)⟩
  · intro key
    by_cases same : key = hashKey info.tag
    · subst same
      have start : after.hash (hashKey info.tag) = freeHead := update_self ..
      rw [update_self, start]
      refine ⟨rfl, ne_of_gt rep.freePos, ?_⟩
      rw [nextItemOf, item_head_of_segment rep.freePos fresh]
      exact oldPath _
    · have start : after.hash key = table.hash key := update_of_ne same _ _
      rw [update_of_ne same, start]
      exact oldPath key
  · refine (forall_update_iff _ fun _ (chain : List Nat) => chain.Nodup).mpr
      ⟨nodup_cons.mpr ⟨?_, rep.bucketNodup _⟩, fun key _ => rep.bucketNodup key⟩
    exact fun mem => absurd (inBucket _ _ mem) (lt_irrefl _)
  · intro _ _
    rw [update_apply]
    split_ifs with same
    · subst same
      rw [mem_cons, rep.bucketMem]
      simp [eq_comm]
    · rw [rep.bucketMem]
      simp [Ne.symm same]
  · exact fun entry mem same => absurd same (absent entry mem)
  · refine ⟨item, rfl, rfl, ?_⟩
    exact
      { atHead := fresh
        headPos := rep.freePos
        headLt := Nat.lt_succ_self freeHead
        headCount := by simp [item, itemHeadLsnNum]
        backward := rfl
        forward := rfl
        segsIn := by simp
        content := by simp [item, noLsns] }
  · rw [segSuffixes, fresh]
    rfl
  · intro _
    rw [prevPageOf, fresh]

end NewItem

section KnownPage
variable [DecidableEq Tag] {hashKey : Tag → Nat} {freeHead later : Nat}
  {table after : LogIdxTableData Tag} {entries : List (LogIndexLsn Tag)} {ghost : TableGhost Tag}
  {info : LogIndexLsn Tag} {item : LogItemHead Tag} {rest : List Nat} {segId idx tail : Nat}
  {seg : LogItemSeg}

/-- An insert for a page that already has the head `item` and behind it `segs`. -/
structure KnownPage (hashKey : Tag → Nat) (freeHead : Nat) (table : LogIdxTableData Tag)
    (entries : List (LogIndexLsn Tag)) (ghost : TableGhost Tag) (info : LogIndexLsn Tag)
    (item : LogItemHead Tag) (segs : List Nat) : Prop where
  rep : GhostRep hashKey freeHead table entries ghost
  fits : Appendable table entries info
  known : ∃ entry ∈ entries, entry.tag = info.tag
  tagEq : item.tag = info.tag
  headEq : item.headSeg = ghost.head info.tag
  segsEq : ghost.segs info.tag = segs
  itemRep : ItemRep table freeHead (lsnsOf info.tag entries) item segs

theorem KnownPage.insert {own : List Nat}
    (page : KnownPage hashKey freeHead table entries ghost info item own)
    (grown : LogItemHead Tag) (segs : List Nat) (grow : freeHead ≤ later)
    (room : later ≤ memTblSegNum)
    (grows : ∀ segId ∈ item.headSeg :: own, SegGrows (table.segment segId) (after.segment segId))
    (kept : ∀ segId ∉ item.headSeg :: own, segId < freeHead ∨ later ≤ segId →
      after.segment segId = table.segment segId) (outline : SameOutline table after)
    (sameHash : after.hash = table.hash) (sameTag : grown.tag = item.tag)
    (sameHead : grown.headSeg = item.headSeg)
    (itemRep : ItemRep after later (lsnsOf info.tag entries ++ [info.lsn]) grown segs)
    (keeps : own ⊆ segs) (placed : segId ∈ item.headSeg :: segs)
    (stored : (segSuffixes after segId)[idx]? = some (suffixOf info.lsn)) :
    TableRep hashKey later (updateBounds (addOrder after segId idx) info.lsn)
      (entries ++ [info]) := by
  obtain ⟨rep, fits, ⟨known, knownIn, knownTag⟩, tagEq, headEq, segsEq, oldRep⟩ := page
  have insertion : Insertion freeHead later (ghost.head info.tag) table after := by
    refine rep.insertion _ ?_ grow room grows kept outline
    intro _ mem
    have inside := oldRep.of_mem mem
    exact ⟨inside.2.1, inside.2.2.1.trans headEq⟩
  refine rep.insert segs ghost.bucket ?_ insertion fits ?_ rep.bucketNodup ?_
    (fun _ _ _ => segsEq ▸ keeps) ⟨grown, sameTag.trans tagEq, sameHead.trans headEq, itemRep⟩
    (headEq ▸ placed) stored (fun absent => absurd knownTag (absent known knownIn))
  · intro entry mem
    constructor
    · intro same
      rw [← knownTag] at same ⊢
      exact rep.head_injective mem knownIn same
    · intro same
      rw [same]
  · intro key
    rw [sameHash]
    apply path_congr (rep.bucketPath key)
    intro candidate mem
    obtain ⟨_, entryIn, -, rfl⟩ := (rep.bucketMem key candidate).mp mem
    exact insertion.grows.nextItem _ (rep.head_bounds entryIn).2
  · intro _ _
    rw [rep.bucketMem]
    constructor
    · exact .inr
    · rintro (⟨inKey, same⟩ | old)
      · exact ⟨known, knownIn, by rw [knownTag]; exact inKey, by rw [knownTag]; exact same⟩
      · exact old

theorem table_rep_append_head (page : KnownPage hashKey freeHead table entries ghost info item [])
    (room : item.suffixLsn.length ≠ itemHeadLsnNum) :
    TableRep hashKey freeHead
      (updateBounds (addOrder (setSegment table item.headSeg
        (.itemHead { item with suffixLsn := item.suffixLsn ++ [suffixOf info.lsn] }))
        item.headSeg item.suffixLsn.length) info.lsn)
      (entries ++ [info]) := by
  have itemRep := page.itemRep
  let grown : LogItemHead Tag := { item with suffixLsn := item.suffixLsn ++ [suffixOf info.lsn] }
  let after := setSegment table item.headSeg (.itemHead grown)
  have atHead : after.segment item.headSeg = .itemHead grown := update_self ..
  refine page.insert grown [] le_rfl page.rep.freeLe ?_ ?_ ⟨rfl, rfl, rfl, rfl⟩ rfl rfl rfl ?_
    (List.Subset.refl _) mem_cons_self ?_
  · intro segId mem
    rw [mem_singleton.mp mem, atHead, itemRep.atHead]
    exact .head _ _ rfl rfl rfl (prefix_append _ _)
  · intro _ outside _
    exact update_of_ne (by simpa using outside) _ _
  · refine { itemRep with atHead := atHead, headCount := ?_, segsIn := nofun, content := ?_ }
    · have count := itemRep.headCount
      simp only [grown, length_append, length_singleton]
      omega
    · have content := itemRep.content
      simp only [reverse_nil, flatMap_nil, append_nil] at content ⊢
      simp [grown, content]
  · rw [segSuffixes, atHead]
    simp [grown]

theorem table_rep_append_seg
    (page : KnownPage hashKey freeHead table entries ghost info item (tail :: rest))
    (atTail : table.segment tail = .itemSeg seg) (room : seg.suffixLsn.length ≠ itemSegLsnNum) :
    TableRep hashKey freeHead
      (updateBounds (addOrder (setSegment table tail
        (.itemSeg { seg with suffixLsn := seg.suffixLsn ++ [suffixOf info.lsn] }))
        tail seg.suffixLsn.length) info.lsn)
      (entries ++ [info]) := by
  have itemRep := page.itemRep
  let grown : LogItemSeg := { seg with suffixLsn := seg.suffixLsn ++ [suffixOf info.lsn] }
  let after := setSegment table tail (.itemSeg grown)
  have newTail : after.segment tail = .itemSeg grown := update_self ..
  have kept : ∀ segId, segId ≠ tail → after.segment segId = table.segment segId :=
    fun segId apart => update_of_ne apart _ _
  obtain ⟨tailPos, tailLt, tailHead, tailFresh, owner, -, _⟩ := itemRep.tail_seg atTail
  have sameLink : ∀ segId, (logIndexItemSeg after segId).map LogItemSeg.nextSeg =
      (logIndexItemSeg table segId).map LogItemSeg.nextSeg ∧
      (logIndexItemSeg after segId).map LogItemSeg.prevSeg =
      (logIndexItemSeg table segId).map LogItemSeg.prevSeg := by
    intro segId
    by_cases same : segId = tail
    · rw [same, item_seg_of_segment tailPos atTail, item_seg_of_segment tailPos newTail]
      exact ⟨rfl, rfl⟩
    · simp only [logIndexItemSeg, kept segId same, and_self]
  refine page.insert item (tail :: rest) le_rfl page.rep.freeLe ?_ ?_ ⟨rfl, rfl, rfl, rfl⟩ rfl rfl
    rfl ?_ (List.Subset.refl _) (mem_cons_of_mem _ mem_cons_self) ?_
  · intro segId _
    by_cases same : segId = tail
    · rw [same, newTail, atTail]
      exact .seg _ _ rfl (prefix_append _ _)
    · rw [kept segId same]
      exact .same _
  · intro segId outside _
    exact kept segId (by rintro rfl; simp at outside)
  · refine
      { itemRep with
        atHead := (kept item.headSeg tailHead.symm).trans itemRep.atHead
        backward := path_congr itemRep.backward fun segId _ => ?_
        forward := path_congr itemRep.forward fun segId _ => ?_
        segsIn := ?_
        content := ?_ }
    · rw [prevSegOf, prevSegOf, (sameLink segId).2]
    · rw [nextSegOf, nextSegOf, (sameLink segId).1]
    · intro segId mem
      by_cases same : segId = tail
      · subst same
        refine ⟨tailPos, tailLt, grown, newTail, owner, by simp [grown], ?_⟩
        simp only [grown, length_append, length_singleton]
        omega
      · obtain ⟨positive, bound, other, content, facts⟩ := itemRep.segsIn segId mem
        exact ⟨positive, bound, other, (kept segId same).trans content, facts⟩
    · have content := itemRep.content
      have sameRest : ∀ segId ∈ rest, after.segment segId = table.segment segId :=
        fun segId mem => kept segId (ne_of_mem_of_not_mem mem tailFresh)
      have newSuffixes : segSuffixes after tail = segSuffixes table tail ++
        [suffixOf info.lsn] := by
        rw [segSuffixes, segSuffixes, newTail, atTail]
      simp only [reverse_cons, flatMap_append, flatMap_singleton] at content ⊢
      rw [suffixes_congr sameRest, newSuffixes, map_append, ← content]
      simp
  · rw [segSuffixes, newTail]
    simp [grown]

/-- The segment an insert adds behind the tail of an item. -/
def freshSeg (item : LogItemHead Tag) (lsn : Nat) : LogItemSeg :=
  { headSeg := item.headSeg, nextSeg := invalidSeg, prevSeg := item.tailSeg,
    suffixLsn := [suffixOf lsn] }

/-- A new segment becomes the tail of an item. What is left to show is how the old
tail, the head or a segment, is linked to it. -/
theorem KnownPage.new_seg {own : List Nat} {next : Nat}
    (page : KnownPage hashKey freeHead table entries ghost info item own)
    (room : freeHead < memTblSegNum)
    (atHead : after.segment item.headSeg = .itemHead { item with
        nextSeg := next, tailSeg := freeHead })
    (atFresh : after.segment freeHead = .itemSeg (freshSeg item info.lsn))
    (linked : ∀ segId ∈ own, ∃ old link, table.segment segId = .itemSeg old ∧
      after.segment segId = .itemSeg { old with nextSeg := link })
    (kept : ∀ segId ∉ item.headSeg :: own, segId ≠ freeHead →
      after.segment segId = table.segment segId)
    (outline : SameOutline table after) (sameHash : after.hash = table.hash)
    (forward : Path (nextSegOf after) invalidSeg next (own.reverse ++ [freeHead])) :
    TableRep hashKey (freeHead + 1) (updateBounds (addOrder after freeHead 0) info.lsn)
      (entries ++ [info]) := by
  have itemRep := page.itemRep
  have freePos := page.rep.freePos
  refine page.insert { item with nextSeg := next, tailSeg := freeHead } (freeHead :: own)
    (Nat.le_succ freeHead) room ?_ (fun segId outside bound => kept segId outside (by omega))
    outline sameHash rfl rfl ?_ (subset_cons_self _ _)
    (mem_cons_of_mem _ mem_cons_self) (by rw [segSuffixes, atFresh]; rfl)
  · intro segId mem
    rcases mem_cons.mp mem with rfl | inside
    · rw [atHead, itemRep.atHead]
      exact .head _ _ rfl rfl rfl prefix_rfl
    · obtain ⟨old, link, atOld, atNew⟩ := linked segId inside
      rw [atOld, atNew]
      exact .seg _ _ rfl prefix_rfl
  refine
    { atHead := atHead
      headPos := itemRep.headPos
      headLt := Nat.lt_succ_of_lt itemRep.headLt
      headCount := itemRep.headCount
      backward := ⟨rfl, ne_of_gt itemRep.headLt, ?_⟩
      forward := by rwa [reverse_cons]
      segsIn := ?_
      content := ?_ }
  · rw [prevSegOf, item_seg_of_segment freePos atFresh]
    apply path_congr itemRep.backward
    intro segId mem
    obtain ⟨old, link, atOld, atNew⟩ := linked segId mem
    simp only [prevSegOf, logIndexItemSeg, atOld, atNew]
    split_ifs <;> rfl
  · intro segId mem
    rcases mem_cons.mp mem with rfl | inside
    · exact ⟨freePos, Nat.lt_succ_self _, _, atFresh, rfl, Nat.one_pos, by simp [freshSeg,
        itemSegLsnNum]⟩
    · obtain ⟨old, link, atOld, atNew⟩ := linked segId inside
      obtain ⟨positive, bound, _, content, facts⟩ := itemRep.segsIn segId inside
      rw [atOld, LogTblSeg.itemSeg.injEq] at content
      subst content
      exact ⟨positive, Nat.lt_succ_of_lt bound, _, atNew, facts⟩
  · have freshSuffixes : segSuffixes after freeHead = [suffixOf info.lsn] := by
      rw [segSuffixes, atFresh, freshSeg]
    have sameContent : own.reverse.flatMap (segSuffixes after) = own.reverse.flatMap
      (segSuffixes table) := by
      apply flatMap_congr
      intro segId mem
      obtain ⟨_, _, atOld, atNew⟩ := linked segId (mem_reverse.mp mem)
      rw [segSuffixes, segSuffixes, atOld, atNew]
    rw [map_append, ← itemRep.content, reverse_cons, flatMap_append, sameContent, flatMap_singleton,
      freshSuffixes]
    simp

theorem table_rep_first_seg (page : KnownPage hashKey freeHead table entries ghost info item [])
    (room : freeHead < memTblSegNum) :
    TableRep hashKey (freeHead + 1)
      (updateBounds (addOrder
        (setSegment (setSegment table item.headSeg
          (.itemHead { item with nextSeg := freeHead, tailSeg := freeHead })) freeHead
          (.itemSeg (freshSeg item info.lsn))) freeHead 0) info.lsn)
      (entries ++ [info]) := by
  have headNe : item.headSeg ≠ freeHead := ne_of_lt page.itemRep.headLt
  refine page.new_seg room ((update_of_ne headNe _ _).trans (update_self ..)) (update_self ..)
    nofun ?_ ⟨rfl, rfl, rfl, rfl⟩ rfl ⟨rfl, ne_of_gt page.rep.freePos, ?_⟩
  · intro _ notHead notFresh
    exact (update_of_ne notFresh _ _).trans (update_of_ne (by simpa using notHead) _ _)
  · rw [nextSegOf, item_seg_of_segment page.rep.freePos (update_self ..)]
    rfl

theorem table_rep_next_seg
    (page : KnownPage hashKey freeHead table entries ghost info item (tail :: rest))
    (atTail : table.segment tail = .itemSeg seg) (room : freeHead < memTblSegNum) :
    TableRep hashKey (freeHead + 1)
      (updateBounds (addOrder
        (setSegment (setSegment (setSegment table tail (.itemSeg { seg with nextSeg := freeHead }))
          item.headSeg (.itemHead { item with tailSeg := freeHead })) freeHead
          (.itemSeg (freshSeg item info.lsn))) freeHead 0) info.lsn)
      (entries ++ [info]) := by
  have itemRep := page.itemRep
  let after :=
    setSegment (setSegment (setSegment table tail (.itemSeg { seg with nextSeg := freeHead }))
      item.headSeg (.itemHead { item with tailSeg := freeHead })) freeHead
      (.itemSeg (freshSeg item info.lsn))
  obtain ⟨tailPos, tailLt, tailHead, tailFresh, -⟩ := itemRep.tail_seg atTail
  have headNe : item.headSeg ≠ freeHead := ne_of_lt itemRep.headLt
  have atFresh : after.segment freeHead = .itemSeg (freshSeg item info.lsn) := update_self ..
  have newTail : after.segment tail = .itemSeg { seg with nextSeg := freeHead } :=
    (update_of_ne (ne_of_lt tailLt) _ _).trans
      ((update_of_ne tailHead _ _).trans (update_self ..))
  have kept : ∀ segId, segId ≠ freeHead → segId ≠ item.headSeg → segId ≠ tail →
      after.segment segId = table.segment segId := fun segId notFresh notHead notTail =>
    (update_of_ne notFresh _ _).trans ((update_of_ne notHead _ _).trans (update_of_ne notTail _ _))
  have inRest : ∀ segId ∈ rest, after.segment segId = table.segment segId := by
    intro segId mem
    have inside : segId ∈ tail :: rest := mem_cons_of_mem _ mem
    exact kept segId (ne_of_lt (itemRep.segsIn segId inside).2.1)
      (path_member_ne_stop itemRep.backward segId inside) (ne_of_mem_of_not_mem mem tailFresh)
  refine page.new_seg room ((update_of_ne headNe _ _).trans (update_self ..)) atFresh ?_ ?_
    ⟨rfl, rfl, rfl, rfl⟩ rfl ?_
  · intro segId mem
    rcases mem_cons.mp mem with rfl | later
    · exact ⟨seg, freeHead, atTail, newTail⟩
    · obtain ⟨-, -, old, content, -⟩ := itemRep.segsIn segId mem
      exact ⟨old, old.nextSeg, content, (inRest segId later).trans content⟩
  · intro segId outside notFresh
    simp only [mem_cons, not_or] at outside
    exact kept segId notFresh outside.1 outside.2.1
  · have oldForward := itemRep.forward
    simp only [reverse_cons, append_assoc, cons_append, nil_append]
      at oldForward ⊢
    apply path_snoc oldForward
    · intro segId mem
      change nextSegOf after segId = _
      simp only [nextSegOf, logIndexItemSeg, inRest segId (mem_reverse.mp mem)]
    · rw [nextSegOf, item_seg_of_segment tailPos newTail]
      rfl
    · exact ne_of_gt page.rep.freePos
    · rw [nextSegOf, item_seg_of_segment page.rep.freePos atFresh]
      rfl

theorem GhostRep.page_known (rep : GhostRep hashKey freeHead table entries ghost) {tag : Tag}
    (present : logIndexMemTblExistsPage tag table (hashKey tag) ≠ invalidSeg) :
    ∃ entry ∈ entries, entry.tag = tag := by
  by_contra none
  refine present (rep.missing_page ?_)
  intro entry mem same
  exact none ⟨entry, mem, same⟩

variable {head : Nat}

theorem GhostRep.known_page (rep : GhostRep hashKey freeHead table entries ghost)
    (fits : Appendable table entries info)
    (found : logIndexMemTblExistsPage info.tag table (hashKey info.tag) = head)
    (present : head ≠ invalidSeg) : ∃ item, logIndexItemHead table head = some item ∧
      item.headSeg = head ∧ KnownPage hashKey freeHead table entries ghost info item
      (ghost.segs info.tag) := by
  obtain ⟨entry, mem, tagEq⟩ := rep.page_known (by rw [found]; exact present)
  obtain ⟨item, atHead, itemTag, headEq, itemRep⟩ := rep.head_item mem
  have headIs := rep.exists_page mem
  rw [tagEq] at atHead itemTag headEq itemRep headIs
  rw [← headIs, found] at atHead
  exact ⟨item, atHead, headEq.trans (headIs.symm.trans found),
    rep, fits, ⟨entry, mem, tagEq⟩, itemTag, headEq, rfl, itemRep⟩

variable (rep : TableRep hashKey freeHead table entries) (fits : Appendable table entries info)
  (found : logIndexMemTblExistsPage info.tag table (hashKey info.tag) = head)
  (present : head ≠ invalidSeg)
include rep fits found present

theorem table_rep_into_tail (room : logIndexMemSegFull table head = false) :
    TableRep hashKey freeHead (insertIntoTail table head info) (entries ++ [info]) := by
  obtain ⟨ghost, rep⟩ := rep
  obtain ⟨item, atHead, rfl, page⟩ := rep.known_page fits found present
  have headNe : item.headSeg ≠ 0 := present
  cases segs : ghost.segs info.tag with
  | nil =>
    rw [segs] at page
    have tailIs : item.tailSeg = item.headSeg := page.itemRep.tail_eq_head.mpr rfl
    simp only [logIndexMemSegFull, atHead, if_pos tailIs, decide_eq_false_iff_not] at room
    have res := table_rep_append_head page room
    simp only [insertIntoTail, logIndexAppendLsn, atHead, if_pos tailIs]
    simpa [logIndexItemHead, setSegment, headNe, invalidSeg, tailIs] using res
  | cons tail =>
    rw [segs] at page
    obtain ⟨tailPos, -, _, atTail, -, -⟩ := page.itemRep.segsIn tail (by simp)
    have tailIs : item.tailSeg = tail := page.itemRep.backward.1
    have tailHead := (page.itemRep.tail_seg atTail).2.2.1
    simp only [logIndexMemSegFull, atHead, tailIs, if_neg tailHead, segSuffixes, atTail,
      decide_eq_false_iff_not] at room
    have res := table_rep_append_seg page atTail room
    have tailSeg := item_seg_of_segment tailPos atTail
    simp only [insertIntoTail, logIndexAppendLsn, atHead, tailIs, if_neg tailHead, tailSeg]
    simpa [logIndexItemHead, setSegment, headNe, invalidSeg, update_of_ne tailHead.symm,
      page.itemRep.atHead, tailIs] using res

theorem table_rep_new_seg (room : freeHead < memTblSegNum) : TableRep hashKey (freeHead + 1)
      (insertIntoSeg table (hashKey info.tag) head freeHead false info) (entries ++ [info]) := by
  obtain ⟨ghost, rep⟩ := rep
  obtain ⟨item, atHead, rfl, page⟩ := rep.known_page fits found present
  cases segs : ghost.segs info.tag with
  | nil =>
    rw [segs] at page
    have tailIs : item.tailSeg = item.headSeg := page.itemRep.tail_eq_head.mpr rfl
    simp only [insertIntoSeg, logIndexInsertNewSeg, atHead, linkTail, if_pos tailIs,
      Bool.false_eq_true, if_false]
    exact table_rep_first_seg page room
  | cons tail =>
    rw [segs] at page
    obtain ⟨tailPos, -, _, atTail, -, -⟩ := page.itemRep.segsIn tail (by simp)
    have tailIs : item.tailSeg = tail := page.itemRep.backward.1
    have tailHead := (page.itemRep.tail_seg atTail).2.2.1
    have res := table_rep_next_seg page atTail room
    rw [freshSeg, tailIs] at res
    simp only [insertIntoSeg, logIndexInsertNewSeg, atHead, linkTail, tailIs, if_neg tailHead,
      item_seg_of_segment tailPos atTail, Bool.false_eq_true, if_false]
    exact res

end KnownPage

end PolarDB.LogIndex
