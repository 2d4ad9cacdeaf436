import PolarDB.RelSize.Cache
import Mathlib.Data.List.Induction
import Mathlib.Data.List.GetD
import Mathlib.Data.List.Pairwise

/-!
# What the tables hold

Every table is filled with a segment of the recorded events, in memory or in its file.
`Holds` ties a cache to these segments; recording an event extends the last segment or
starts a new one, and a truncation gives up segments at the front.
-/

namespace PolarDB.RelSize.Cache

open Function List Storage Lib.Snoc

def Table.add (table : Table) : Event → Table
  | .db st => polarUpdateLsnRange { table with dbs := st :: table.dbs } st.lsn
  | .rel size => polarUpdateLsnRange { table with rels := table.rels ++ [size] } size.lsn

def fill (tid : Nat) (segment : List Event) : Table :=
  segment.foldl Table.add (polarInitRelSizeTable tid)

def Event.asDb : Event → Option DatabaseState
  | .db st => some st
  | .rel _ => none

def Event.asRel : Event → Option RelationSize
  | .db _ => none
  | .rel size => some size

def Event.size : Event → Nat
  | .db _ => sizeofDatabaseState
  | .rel _ => sizeofRelationSize

theorem fill_append_singleton (tid : Nat) (segment : List Event) (event : Event) :
    fill tid (segment ++ [event]) = (fill tid segment).add event := by
  rw [fill, foldl_append]
  rfl

theorem polarUpdateLsnRange_fields (table : Table) (lsn : Nat) :
    (polarUpdateLsnRange table lsn).tid = table.tid ∧ (polarUpdateLsnRange table lsn).rels =
      table.rels ∧ (polarUpdateLsnRange table lsn).dbs = table.dbs ∧
      (polarUpdateLsnRange table lsn).maxLsn = lsn := by
  unfold polarUpdateLsnRange
  split <;> exact ⟨rfl, rfl, rfl, rfl⟩

theorem fill_fields (tid : Nat) (segment : List Event) :
    (fill tid segment).tid = tid ∧ (fill tid segment).rels.reverse = segment.reverse.filterMap
      Event.asRel ∧ (fill tid segment).dbs = segment.reverse.filterMap Event.asDb := by
  induction segment using List.reverseRecOn with
  | nil => exact ⟨rfl, rfl, rfl⟩
  | append_singleton segment event known =>
    rw [fill_append_singleton, reverse_append]
    cases event with
    | db st =>
      have fields := polarUpdateLsnRange_fields
        { fill tid segment with dbs := st :: (fill tid segment).dbs } st.lsn
      unfold Table.add
      rw [fields.1, fields.2.1, fields.2.2.1, known.1, known.2.1, known.2.2]
      exact ⟨rfl, rfl, rfl⟩
    | rel size =>
      have fields := polarUpdateLsnRange_fields
        { fill tid segment with rels := (fill tid segment).rels ++ [size] } size.lsn
      unfold Table.add
      rw [fields.1, fields.2.1, fields.2.2.1, known.1, known.2.2, reverse_append, known.2.1]
      exact ⟨rfl, rfl, rfl⟩

theorem fill_maxLsn (tid : Nat) {segment : List Event} (someEvent : segment ≠ []) :
    (fill tid segment).maxLsn = (segment.getLast someEvent).lsn := by
  have split := dropLast_concat_getLast someEvent
  generalize segment.getLast someEvent = event at split ⊢
  rw [← split, fill_append_singleton]
  cases event with
  | db st => exact (polarUpdateLsnRange_fields _ st.lsn).2.2.2
  | rel size => exact (polarUpdateLsnRange_fields _ size.lsn).2.2.2

theorem record_eq (cache : RelSizeCache) (event : Event) : record cache event =
      (polarAllocateTableSpace cache event.size).setActive
        ((polarAllocateTableSpace cache event.size).active.add event) := by
  cases event <;> rfl

/-- The cache holds the segments of the tables with the numbers from `minTid` on, the last of which
is active. What was given up is not after `bound`. -/
structure Holds (cache : RelSizeCache) (older : List (List Event)) (segment : List Event)
    (bound : Nat) : Prop where
  positive : 0 < cache.tableSize
  first : 1 ≤ cache.minTid
  last : cache.minTid ≤ older.length + 1
  active : cache.activeMid = older.length % cache.tableSize
  current : cache.active = fill (older.length + 1) segment
  slots : ∀ mid, (cache.tables mid).tid ≠ 0 → ((cache.tables mid).tid - 1) % cache.tableSize = mid
  tables : ∀ tid, cache.minTid ≤ tid → tid ≤ older.length →
    polarGetRelSizeTable cache tid = some (fill tid (older.getD (tid - 1) []))
  nonempty : ∀ segment ∈ older, segment ≠ []
  removed : ∀ tid, tid + 1 < cache.minTid → ∀ event ∈ older.getD tid [], event.lsn ≤ bound

variable {cache : RelSizeCache} {older : List (List Event)} {segment : List Event} {bound : Nat}

theorem holds_init (blocks : Nat) (positive : 0 < blocks) : Holds (polarRelSizeShmemInit blocks) []
    [] 0 where
  positive := positive
  first := Nat.le_refl 1
  last := Nat.le_refl 1
  active := (Nat.zero_mod _).symm
  current := rfl
  slots := by
    intro mid used
    by_cases zero : mid = 0
    · rw [zero]
      exact Nat.zero_mod _
    · simp [polarRelSizeShmemInit, zero, polarInitRelSizeTable] at used
  tables := by
    intro tid low high
    have none : 1 ≤ tid := low
    have empty : tid ≤ 0 := high
    omega
  nonempty := fun _ => nofun
  removed := fun _ _ _ => nofun

theorem Holds.active_tid (holds : Holds cache older segment bound) :
    cache.active.tid = older.length + 1 := by
  rw [holds.current]
  exact (fill_fields _ _).1

theorem Holds.active_slot (holds : Holds cache older segment bound) :
    cache.tables (older.length % cache.tableSize) = fill (older.length + 1) segment := by
  rw [← holds.active]
  exact holds.current

theorem loopNextValue_mod {size count : Nat} (positive : 0 < size) :
    loopNextValue (count % size) size = (count + 1) % size := by
  have small := Nat.mod_lt count positive
  rw [← Nat.mod_add_mod]
  unfold loopNextValue
  split
  · have wrapped : count % size + 1 = size := by omega
    rw [wrapped, Nat.mod_self]
  · exact (Nat.mod_eq_of_lt (by omega)).symm

variable {tid : Nat}

theorem getTable_of_slot (cache : RelSizeCache)
    (here : (cache.tables ((tid - 1) % cache.tableSize)).tid = tid) :
    polarGetRelSizeTable cache tid = some (cache.tables ((tid - 1) % cache.tableSize)) := by
  unfold polarGetRelSizeTable
  rw [if_pos here]

theorem getTable_of_file (cache : RelSizeCache)
    (elsewhere : (cache.tables ((tid - 1) % cache.tableSize)).tid ≠ tid) :
    polarGetRelSizeTable cache tid = cache.files tid := by
  unfold polarGetRelSizeTable
  rw [if_neg elsewhere]

section
variable (holds : Holds cache older segment bound)
include holds

theorem Holds.tables_all (low : cache.minTid ≤ tid) (high : tid ≤ older.length + 1) :
    polarGetRelSizeTable cache tid = some (fill tid ((older ++ [segment]).getD (tid - 1) [])) := by
  have first := holds.first
  by_cases isLast : tid = older.length + 1
  · rw [isLast, Nat.add_sub_cancel, getD_append_right _ _ _ _ (Nat.le_refl _), Nat.sub_self]
    have slot : (cache.tables ((older.length + 1 - 1) % cache.tableSize)).tid =
      older.length + 1 := by
      rw [Nat.add_sub_cancel, holds.active_slot]
      exact (fill_fields _ _).1
    rw [getTable_of_slot _ slot, Nat.add_sub_cancel, holds.active_slot]
    rfl
  · rw [getD_append _ _ _ _ (by omega)]
    exact holds.tables tid low (by omega)

theorem Holds.removed_all (below : tid + 1 < cache.minTid) :
    ∀ event ∈ (older ++ [segment]).getD tid [], event.lsn ≤ bound := by
  have last := holds.last
  rw [getD_append _ _ _ _ (by omega)]
  exact holds.removed tid below

theorem Holds.add (event : Event) :
    Holds (cache.setActive (cache.active.add event)) older (segment ++ [event]) bound := by
  have added : cache.active.add event = fill (older.length + 1) (segment ++ [event]) := by
    rw [fill_append_singleton, holds.current]
  have sameTid : (cache.active.add event).tid = older.length + 1 := by
    rw [added]
    exact (fill_fields _ _).1
  have slotTid : ∀ mid, ((cache.setActive (cache.active.add event)).tables mid).tid =
    (cache.tables mid).tid := by
    intro mid
    unfold RelSizeCache.setActive
    dsimp only
    rw [update_apply]
    split_ifs with here
    · rw [here, sameTid]
      exact holds.active_tid.symm
    · rfl
  refine { holds with current := ?_, slots := ?_, tables := ?_ }
  · rw [← added]
    exact update_self ..
  · intro mid used
    rw [slotTid] at used ⊢
    exact holds.slots mid used
  · intro tid low high
    have before := holds.tables tid low high
    have apart : (tid - 1) % cache.tableSize = cache.activeMid →
        (cache.tables ((tid - 1) % cache.tableSize)).tid ≠ tid := by
      intro here
      rw [here]
      have tidActive := holds.active_tid
      unfold RelSizeCache.active at tidActive
      omega
    by_cases inMemory : (cache.tables ((tid - 1) % cache.tableSize)).tid = tid
    · have distinct : (tid - 1) % cache.tableSize ≠ cache.activeMid := fun here =>
        apart here inMemory
      rw [getTable_of_slot _ inMemory] at before
      rw [getTable_of_slot _ ((slotTid _).trans inMemory)]
      unfold RelSizeCache.setActive
      dsimp only
      rw [update_of_ne distinct]
      exact before
    · rw [getTable_of_file _ inMemory] at before
      rw [getTable_of_file _ (fun same => inMemory ((slotTid _).symm.trans same))]
      exact before

end

/-- The files after the table of a slot was saved, if there was one. -/
def savedFiles (cache : RelSizeCache) (mid : Nat) : Nat → Option Table :=
  if 0 < (cache.tables mid).tid then update cache.files (cache.tables mid).tid
    (some (cache.tables mid))
  else cache.files

theorem savedFiles_other {mid tid : Nat} (distinct : (cache.tables mid).tid ≠ tid) :
    savedFiles cache mid tid = cache.files tid := by
  unfold savedFiles
  split
  · exact update_of_ne distinct.symm ..
  · rfl

theorem savedFiles_self (cache : RelSizeCache) (mid : Nat) (used : (cache.tables mid).tid ≠ 0) :
    savedFiles cache mid (cache.tables mid).tid = some (cache.tables mid) := by
  unfold savedFiles
  rw [if_pos (Nat.pos_of_ne_zero used)]
  exact update_self ..

theorem allocate_full {size : Nat} (full : polarTableSpaceAvailable cache.active size = false) :
    polarAllocateTableSpace cache size = { cache with
        files := savedFiles cache (loopNextValue cache.activeMid cache.tableSize)
        activeMid := loopNextValue cache.activeMid cache.tableSize
        tables := update cache.tables (loopNextValue cache.activeMid cache.tableSize)
          (polarInitRelSizeTable (cache.active.tid + 1)) } := by
  unfold polarAllocateTableSpace savedFiles
  rw [if_neg (by rw [full]; nofun)]
  dsimp only
  split <;> rfl

theorem Holds.allocate (holds : Holds cache older segment bound) {size : Nat}
    (full : polarTableSpaceAvailable cache.active size = false) (someEvent : segment ≠ []) :
    Holds (polarAllocateTableSpace cache size) (older ++ [segment]) [] bound := by
  have nextSlot : loopNextValue cache.activeMid cache.tableSize = (older.length + 1) %
    cache.tableSize := by
    rw [holds.active]
    exact loopNextValue_mod holds.positive
  rw [allocate_full full, nextSlot, holds.active_tid]
  have length : (older ++ [segment]).length = older.length + 1 := length_append ..
  constructor
  · exact holds.positive
  · exact holds.first
  · rw [length]
    exact Nat.le_succ_of_le holds.last
  · rw [length]
  · rw [length]
    exact update_self ..
  · intro mid used
    dsimp only at used ⊢
    by_cases here : mid = (older.length + 1) % cache.tableSize
    · rw [here, update_self]
      rfl
    · rw [update_of_ne here] at used ⊢
      exact holds.slots mid used
  · intro tid low high
    rw [length] at high
    have positive : 1 ≤ tid := Nat.le_trans holds.first low
    rw [← holds.tables_all low high]
    have newTid : (polarInitRelSizeTable (older.length + 1 + 1)).tid = older.length + 2 := rfl
    by_cases here : (tid - 1) % cache.tableSize = (older.length + 1) % cache.tableSize
    · -- The table leaves its slot for its file.
      rw [getTable_of_file _ (by dsimp only; rw [here, update_self, newTid]; omega)]
      dsimp only
      by_cases inMemory : (cache.tables ((tid - 1) % cache.tableSize)).tid = tid
      · rw [getTable_of_slot _ inMemory]
        have saved := savedFiles_self cache ((tid - 1) % cache.tableSize) (by omega)
        rw [inMemory] at saved
        rw [← here]
        exact saved
      · rw [getTable_of_file _ inMemory, savedFiles_other (by rw [← here]; exact inMemory)]
    · by_cases inMemory : (cache.tables ((tid - 1) % cache.tableSize)).tid = tid
      · rw [getTable_of_slot _ inMemory,
          getTable_of_slot _ (by dsimp only; rw [update_of_ne here]; exact inMemory)]
        dsimp only
        rw [update_of_ne here]
      rw [getTable_of_file _ inMemory,
        getTable_of_file _ (by dsimp only; rw [update_of_ne here]; exact inMemory)]
      apply savedFiles_other
      intro same
      have slot := holds.slots ((older.length + 1) % cache.tableSize) (by omega)
      rw [same] at slot
      exact here slot
  · exact forall_mem_snoc.mpr ⟨holds.nonempty, someEvent⟩
  · exact fun tid below => holds.removed_all below

theorem record_available {event : Event}
    (fits : polarTableSpaceAvailable cache.active event.size = true) :
    record cache event = cache.setActive (cache.active.add event) := by
  have same : polarAllocateTableSpace cache event.size = cache := by
    unfold polarAllocateTableSpace
    rw [if_pos fits]
  rw [record_eq, same]

theorem Holds.record (holds : Holds cache older segment bound) (event : Event) :
    ∃ nextOlder nextSegment, Holds (record cache event) nextOlder nextSegment bound ∧
      nextOlder.flatten ++ nextSegment = older.flatten ++ segment ++ [event] ∧
      nextSegment ≠ [] := by
  by_cases fits : polarTableSpaceAvailable cache.active event.size = true
  · refine ⟨older, segment ++ [event], ?_, (append_assoc _ _ _).symm, by simp⟩
    rw [record_available fits]
    exact holds.add event
  have full := Bool.eq_false_iff.mpr fits
  have someEvent : segment ≠ [] := by
    intro empty
    have current := holds.current
    rw [empty] at current
    rw [current] at full
    cases event <;> contradiction
  refine ⟨older ++ [segment], [event], ?_, by simp, by simp⟩
  rw [record_eq]
  exact (holds.allocate full someEvent).add event

def Ordered (events : List Event) : Prop := events.Pairwise fun earlier later =>
    earlier.lsn ≤ later.lsn

section
variable (holds : Holds cache older segment bound)
include holds

theorem Holds.raise (lsn : Nat) : Holds cache older segment (max bound lsn) :=
  { holds with
    removed := fun tid below event among => Nat.le_trans (holds.removed tid below event among)
      (Nat.le_max_left _ _) }

theorem Holds.removeFirst {lsn : Nat} (inside : cache.minTid ≤ older.length)
    (old : (fill cache.minTid (older.getD (cache.minTid - 1) [])).maxLsn ≤ lsn)
    (below : ∀ event ∈ older.getD (cache.minTid - 1) [], event.lsn ≤ lsn) :
    ∃ next, truncateTable cache lsn cache.minTid = some next ∧ next.minTid = cache.minTid + 1 ∧
      Holds next older segment (max bound lsn) := by
  have slotTid := holds.active_tid
  unfold RelSizeCache.active at slotTid
  have given : ∀ tid, tid + 1 < cache.minTid + 1 → ∀ event ∈ older.getD tid [], event.lsn ≤
    max bound lsn := by
    intro tid _ event among
    by_cases isFirst : tid = cache.minTid - 1
    · rw [isFirst] at among
      exact Nat.le_trans (below event among) (Nat.le_max_right _ _)
    · exact (holds.raise lsn).removed tid (by omega) event among
  have taken := holds.tables cache.minTid (Nat.le_refl _) inside
  generalize isMid : (cache.minTid - 1) % cache.tableSize = mid
  by_cases inMemory : (cache.tables mid).tid = cache.minTid
  · have notActive : cache.activeMid ≠ mid := by
      intro same
      rw [same, inMemory] at slotTid
      omega
    refine ⟨{ cache with
      tables := update cache.tables mid (polarInitRelSizeTable 0), minTid := cache.minTid + 1 },
        ?_, rfl, ?_⟩
    · simp only [truncateTable, taken, bind, Option.bind, if_pos old, isMid, if_pos inMemory]
    constructor
    · exact holds.positive
    · exact Nat.le_add_left 1 _
    · exact Nat.succ_le_succ inside
    · exact holds.active
    · have same : update cache.tables mid (polarInitRelSizeTable 0) cache.activeMid =
          cache.tables cache.activeMid := update_of_ne notActive ..
      exact same.trans holds.current
    · intro other used
      dsimp only at used ⊢
      by_cases here : other = mid
      · rw [here, update_self] at used
        exact absurd rfl used
      · rw [update_of_ne here] at used ⊢
        exact holds.slots other used
    · intro tid low high
      dsimp only at low
      rw [← holds.tables tid (by omega) high]
      by_cases here : (tid - 1) % cache.tableSize = mid
      · rw [getTable_of_file cache (by rw [here, inMemory]; omega)]
        apply getTable_of_file
        dsimp only
        rw [here, update_self]
        exact (Nat.ne_of_gt (by omega : 0 < tid)).symm
      · have same : update cache.tables mid (polarInitRelSizeTable 0)
          ((tid - 1) % cache.tableSize) =
            cache.tables ((tid - 1) % cache.tableSize) := update_of_ne here ..
        unfold polarGetRelSizeTable
        dsimp only
        rw [same]
    · exact holds.nonempty
    · exact given
  · refine ⟨{ cache with
        files := update cache.files cache.minTid none, minTid := cache.minTid + 1 }, ?_, rfl, ?_⟩
    · simp only [truncateTable, taken, bind, Option.bind, if_pos old, isMid, if_neg inMemory]
    refine { holds with first := ?_, last := ?_, tables := ?_, removed := ?_ }
    · exact Nat.le_add_left 1 _
    · exact Nat.succ_le_succ inside
    · intro tid low high
      dsimp only at low
      rw [← holds.tables tid (by omega) high]
      have same : update cache.files cache.minTid none tid = cache.files tid :=
        update_of_ne (by omega) ..
      unfold polarGetRelSizeTable
      dsimp only
      rw [same]
    · exact given

theorem Holds.truncateTables_keep {lsn : Nat} (count tid : Nat)
    (low : cache.minTid ≤ tid) (high : tid + count ≤ older.length + 1)
    (newer : ∀ other, tid ≤ other → other ≤ older.length →
      lsn < (fill other (older.getD (other - 1) [])).maxLsn) : truncateTables cache lsn count tid =
    some cache := by
  induction count generalizing tid with
  | zero => rfl
  | succ _ known =>
    have kept : truncateTable cache lsn tid = some cache := by
      unfold truncateTable
      rw [holds.tables tid low (by omega)]
      exact if_neg (Nat.not_le.mpr (newer tid (Nat.le_refl _) (by omega)))
    unfold truncateTables
    rw [kept]
    exact known (tid + 1) (by omega) (by omega) fun other above => newer other (by omega)

end

theorem Ordered.maxLsn_mono (ordered : Ordered older.flatten)
    (nonempty : ∀ segment ∈ older, segment ≠ []) {tid other : Nat} (low : 1 ≤ tid)
    (between : tid ≤ other) (high : other ≤ older.length) :
    ∀ event ∈ older.getD (tid - 1) [],
    event.lsn ≤ (fill other (older.getD (other - 1) [])).maxLsn := by
  intro event among
  have laterInside : other - 1 < older.length := by omega
  have earlierInside : tid - 1 < older.length := by omega
  rw [getD_eq_getElem _ _ earlierInside] at among
  rw [getD_eq_getElem _ _ laterInside]
  have pieces := pairwise_flatten.mp ordered
  have someEvent := nonempty _ (getElem_mem laterInside)
  rw [fill_maxLsn other someEvent]
  have isLast : older[other - 1].getLast someEvent ∈ older[other - 1] := getLast_mem someEvent
  by_cases same : tid = other
  · have orderedPiece := pieces.1 _ (getElem_mem laterInside)
    subst same
    exact orderedPiece.rel_getLast_of_rel_getLast_getLast among (Nat.le_refl _)
  · have apart := pairwise_iff_getElem.mp pieces.2 (tid - 1) (other - 1) earlierInside laterInside
      (by omega)
    exact apart event among _ isLast

variable (holds : Holds cache older segment bound) (ordered : Ordered older.flatten)
include holds ordered

theorem Holds.truncateTables_holds {lsn : Nat} (count : Nat)
    (high : cache.minTid + count = older.length + 1) :
    ∃ next, truncateTables cache lsn count cache.minTid = some next ∧
    Holds next older segment (max bound lsn) := by
  induction count generalizing cache bound with
  | zero => exact ⟨cache, rfl, holds.raise lsn⟩
  | succ count known =>
    have first := holds.first
    by_cases old : (fill cache.minTid (older.getD (cache.minTid - 1) [])).maxLsn ≤ lsn
    · have below : ∀ event ∈ older.getD (cache.minTid - 1) [], event.lsn ≤ lsn := fun event among =>
        Nat.le_trans
          (ordered.maxLsn_mono holds.nonempty first (Nat.le_refl _) (by omega) event among) old
      obtain ⟨next, taken, nextTid, kept⟩ := holds.removeFirst (by omega) old below
      have after := known kept (by omega)
      rw [nextTid, Nat.max_assoc, Nat.max_self] at after
      unfold truncateTables
      rw [taken]
      exact after
    · -- The first table is needed, and so are the later ones.
      have someEvent := holds.nonempty (older.getD (cache.minTid - 1) []) (by
        rw [getD_eq_getElem _ _ (by omega)]
        exact getElem_mem _)
      have newer : ∀ other, cache.minTid ≤ other → other ≤ older.length →
          lsn < (fill other (older.getD (other - 1) [])).maxLsn := by
        intro _ above inside
        have lastLsn := fill_maxLsn cache.minTid someEvent
        have mono := ordered.maxLsn_mono holds.nonempty first above inside _ (getLast_mem someEvent)
        omega
      rw [holds.truncateTables_keep (count + 1) cache.minTid (Nat.le_refl _) (by omega) newer]
      exact ⟨cache, rfl, holds.raise lsn⟩

theorem Holds.truncate (lsn : Nat) :
    ∃ next, polarTruncateRelSizeCache cache lsn = some next ∧
    Holds next older segment (max bound lsn) := by
  apply holds.truncateTables_holds ordered
  have last := holds.last
  rw [holds.active_tid]
  omega

end PolarDB.RelSize.Cache
