import PolarDB.LogIndex.LsnIterExact
import PolarDB.LogIndex.RestartExact

/-!
# The memory tables and the iterators over whole runs

What every state of a run of adds, table switches, flushes and reads has in common.
-/

namespace PolarDB.LogIndex

open List

variable {Tag : Type} [DecidableEq Tag] {cfg : Config Tag} {st : RunState Tag}

/-- A table is kept in the slot of its id, flushed ones are those that are saved, every later one is
still in memory, none but the newest is active, and the saved ones are in the segment files. So a
slot is not used again before its table is saved. -/
def TableRing (cfg : Config Tag) (st : RunState Tag) : Prop :=
  (∀ slot < cfg.memTblSize, (st.snap.memTable slot).state ≠ .free →
      slotOf cfg (st.snap.memTable slot).data.idxTableId = slot ∧
      (st.snap.memTable slot).data.idxTableId ≤ st.snap.maxIdxTableId ∧
      ((st.snap.memTable slot).state = .flushed ↔
        (st.snap.memTable slot).data.idxTableId ≤ st.snap.indexMeta.maxIdxTableId) ∧
      ((st.snap.memTable slot).state = .active →
        (st.snap.memTable slot).data.idxTableId = st.snap.maxIdxTableId)) ∧
    (∀ tid, st.snap.indexMeta.maxIdxTableId < tid → tid ≤ st.snap.maxIdxTableId →
      (st.snap.memTable (slotOf cfg tid)).data.idxTableId = tid) ∧
    st.snap.maxIdxTableId ≤ st.snap.indexMeta.maxIdxTableId + cfg.memTblSize ∧
    ∀ tid, 0 < tid → tid ≤ st.snap.indexMeta.maxIdxTableId → ∃ data,
      (st.snap.storage.segFile (segmentNo tid))[segmentOffset tid]? = some data ∧
      data.idxTableId = tid

theorem table_ring_discipline (run : Run cfg RunState.start st) : TableRing cfg st := by
  obtain ⟨tabs, runRep, -⟩ := run_rep_of_run run
  have rep := runRep.rep
  rw [TableRing, rep.count]
  refine ⟨fun slot small used => ?_, rep.memory.unsaved, ?_, fun tid positive saved => ?_⟩
  · have slotRep := rep.memory.slots slot small
    have bound : ∀ tid data, Holds cfg tabs tid data → tid ≤ tabs.length := by
      rintro tid data ⟨positive, -, entries, -, found, -⟩
      have inside := (List.getElem?_eq_some_iff.mp found).1
      omega
    unfold SlotRep at slotRep
    cases state : (st.snap.memTable slot).state with
    | free => exact absurd state used
    | active =>
      rw [state] at slotRep
      obtain ⟨unsaved, isSlot, isId, -⟩ := slotRep
      simp [isId, isSlot, unsaved]
    | inactive =>
      rw [state] at slotRep
      obtain ⟨tid, unsaved, isSlot, holds⟩ := slotRep
      simp [holds.2.1, isSlot, unsaved, bound tid _ holds]
    | flushed =>
      rw [state] at slotRep
      obtain ⟨tid, saved, isSlot, holds⟩ := slotRep
      simp [holds.2.1, isSlot, saved, bound tid _ holds]
  · by_contra many
    have early := rep.memory.unsaved (st.snap.indexMeta.maxIdxTableId + 1) (by omega) (by omega)
    have late := rep.memory.unsaved (st.snap.indexMeta.maxIdxTableId + cfg.memTblSize + 1)
      (by omega) (by omega)
    rw [slot_of_succ, Nat.add_mod_right, ← slot_of_succ] at late
    have positive := mem_tbl_size_pos cfg
    omega
  · obtain ⟨data, found, -, isId, -⟩ := rep.store.files tid positive saved
    exact ⟨data, found, isId⟩

theorem table_ring_discipline_split : ∃ st, Run smallConfig RunState.start st ∧ st.log = splitLog ∧
    EndsTwice st.snap.storage ∧ TableRing smallConfig st := by
  obtain ⟨st, run, isLog, ends⟩ := split_log_crash
  exact ⟨st, run, isLog, ends, table_ring_discipline run⟩

/-- Both iterators can be created and drained, and the page iterator returns what the LSN iterator
returns for its page. -/
def IteratorsAgree (cfg : Config Tag) (st : RunState Tag) (pid : Nat) (tag : Tag)
    (minLsn maxLsn : Nat) : Prop :=
  ∃ after pageIter lsnIter,
    polarLogindexCreatePageIterator cfg st.snap pid tag minLsn maxLsn = .ok (after, pageIter) ∧
      polarLogindexCreateLsnIterator st.snap minLsn = .ok lsnIter ∧ ∀ fuel, st.log.length < fuel →
      ∃ page all,
        drainPageIterator fuel pageIter = some page ∧
        drainLsnIterator cfg pid fuel st.snap lsnIter = some all ∧
        page.map LogIndexLsn.lsn =
          (all.filter fun info => decide (info.tag = tag ∧ info.lsn ≤ maxLsn)).map LogIndexLsn.lsn

theorem iterators_agree (run : Run cfg RunState.start st) (linked : PrevLinked st.log) (pid : Nat)
    (tag : Tag) {minLsn maxLsn : Nat} (positive : 0 < minLsn) (interval : minLsn < maxLsn) :
    IteratorsAgree cfg st pid tag minLsn maxLsn := by
  obtain ⟨tabs, runRep, -⟩ := run_rep_of_run run
  have ordered := runRep.ordered
  rw [IteratorsAgree, ← runRep.content]
  rw [← runRep.content] at ordered linked
  obtain ⟨after, pageIter, createdPage, drainsPage⟩ :=
    drain_page_iterator runRep.rep runRep.activeRep ordered linked pid tag interval
  obtain ⟨lsnIter, createdLsn, drainsLsn⟩ :=
    drain_lsn_iterator runRep.rep runRep.activeRep pid positive
  refine ⟨after, pageIter, lsnIter, createdPage, createdLsn, fun fuel enough => ?_⟩
  obtain ⟨page, drainedPage, -, -, isPage⟩ := drainsPage fuel enough
  obtain ⟨all, drainedAll, isAll⟩ := drainsLsn fuel enough
  refine ⟨page, all, drainedPage, drainedAll, ?_⟩
  -- the right side only looks at the pairs that the LSN iterator returned
  have pairs : ∀ infos : List (LogIndexLsn Tag),
      ((infos.map pairOf).filter fun pair => decide (pair.1 = tag ∧ pair.2 ≤ maxLsn)).map Prod.snd =
        (infos.filter fun info => decide (info.tag = tag ∧ info.lsn ≤ maxLsn)).map
        LogIndexLsn.lsn := by
    intro infos
    rw [filter_map, map_map]
    rfl
  rw [isPage, ← pairs, isAll, wanted, pairs, lsnsOf, filter_map, filter_filter, filter_filter]
  congr 1
  apply filter_congr
  intro info _
  simp
  grind

theorem iterators_agree_split : ∃ st, Run smallConfig RunState.start st ∧ st.log = splitLog ∧
    PrevLinked st.log ∧ EndsTwice st.snap.storage ∧ IteratorsAgree smallConfig st 0 0 1 20 := by
  obtain ⟨st, run, isLog, ends⟩ := split_log_crash
  have linked : PrevLinked st.log := isLog.symm ▸ split_log_linked
  exact ⟨st, run, isLog, linked, ends, iterators_agree run linked 0 0 (by decide) (by decide)⟩

end PolarDB.LogIndex
