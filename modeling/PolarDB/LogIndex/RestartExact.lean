import Mathlib.Data.List.TakeWhile
import PolarDB.LogIndex.Restart
import PolarDB.LogIndex.LsnIterExact

/-!
# What a restart keeps

The restarted snapshot represents the saved tables. Pairs that are added again are
skipped up to the first one that the code does not find in the last saved table; from
there on everything is inserted. So the content is the saved pairs followed by the
rest of the list, and it is the log without a crash exactly if the last saved table is
not the second one that ends with its greatest lsn.
-/

namespace PolarDB.LogIndex

open Function List Lib.History

section Load
variable {Tag : Type} {cfg : Config Tag} {saved tabs : List (List (LogIndexLsn Tag))}
  {snap : Snapshot Tag}

theorem reopen_slot_other {slot other : Nat} (different : other ≠ slot) (lsn : Nat) :
    (reopenSlot snap slot lsn).memTable other = snap.memTable other := by
  simp only [reopenSlot, memTblNewActive]
  split_ifs <;> simp [different]

theorem reopen_slot_meta (slot lsn : Nat) : (reopenSlot snap slot lsn).indexMeta =
    snap.indexMeta := by
  simp only [reopenSlot, memTblNewActive]
  split_ifs <;> rfl

theorem LogRep.take (logOk : LogRep tabs) (filled : [] ∉ tabs) (count : Nat) :
    LogRep (tabs.take count) where
  sorted := by
    have sorted := logOk.sorted
    rw [← take_append_drop count tabs, flatten_append, pairwise_append] at sorted
    exact sorted.1
  nonempty := by
    intro _ _ found _ empty
    rw [empty] at found
    exact filled (mem_of_mem_take (mem_of_getElem? found))

variable [DecidableEq Tag]

structure LoadRep (cfg : Config Tag) (saved : List (List (LogIndexLsn Tag))) (snap : Snapshot Tag) :
    Prop where
  memory : MemRep cfg saved saved.length snap.memTable
  settled : ∀ slot < cfg.memTblSize, (snap.memTable slot).state = .free ∨
    (snap.memTable slot).state = .flushed
  store : StoreRep cfg saved saved.length snap.storage

theorem LoadRep.load (rep : LoadRep cfg saved snap) {tid : Nat} {data : LogIdxTableData Tag}
    (holds : Holds cfg saved tid data) :
    LoadRep cfg saved (setSlot snap (slotOf cfg tid) ⟨memTblSegNum, .flushed, data⟩) where
  memory := by
    apply rep.memory.set_slot
    · exact ⟨tid, holds.le_length, rfl, holds⟩
    · exact le_rfl
    · intro other _ _ same
      exact same
    · intro other above inside
      omega
    · intro _ _ inside
      omega
  settled := by
    intro slot inside
    rw [set_slot_mem_table]
    rw [update_apply]
    split_ifs
    · exact .inr rfl
    · exact rep.settled slot inside
  store := rep.store

/-- The snapshot after a restart with the tables `saved` on storage. -/
structure Restarted (cfg : Config Tag) (saved : List (List (LogIndexLsn Tag)))
    (snap : Snapshot Tag) : Prop where
  rep : SnapRep cfg (saved ++ if saved = [] then [] else [[]]) snap
  activeRep : ActiveRep cfg (saved ++ if saved = [] then [] else [[]]) snap none
  notAdding : snap.adding = false
  savedEq : snap.indexMeta.maxIdxTableId = saved.length
  -- the last saved table is where `log_index_exists_in_saved_table` looks
  newest : saved ≠ [] → (snap.memTable (prevSlot cfg snap.activeTable)).state = .flushed ∧
      Holds cfg saved saved.length (snap.memTable (prevSlot cfg snap.activeTable)).data

theorem Opened.is_new {slot : Nat} {before after : Snapshot Tag}
    (opened : Opened cfg saved before after slot invalidLsn)
    (slotEq : slot = slotOf cfg (saved.length + 1)) : memTblIsNew (after.memTable slot) := by
  rcases (opened.rep.set_active slot).active_table slotEq opened.active with ⟨-, _, tableRep⟩
  exact ⟨tableRep.maxLsn, tableRep.minLsn, opened.samePrefix, opened.room⟩

theorem Switching.restarted {switched : Snapshot Tag}
    (switching : Switching cfg saved switched switched.activeTable)
    (settled : (switched.memTable switched.activeTable).state ≠ .inactive) (nonempty : saved ≠ [])
    (notAdding : switched.adding = false)
    (savedEq : switched.indexMeta.maxIdxTableId = saved.length)
    (flushed : (switched.memTable (slotOf cfg saved.length)).state = .flushed)
    (newest : Holds cfg saved saved.length (switched.memTable (slotOf cfg saved.length)).data) :
    Restarted cfg saved (reopenSlot switched switched.activeTable invalidLsn) := by
  have opened := switching.reopened settled invalidLsn
  have positive : 0 < saved.length := List.length_pos_of_ne_nil nonempty
  have size := cfg.atLeastThree
  have prev : prevSlot cfg switched.activeTable = slotOf cfg saved.length := by
    rw [← switching.slotEq]
    exact prev_slot_of cfg positive
  have different : slotOf cfg saved.length ≠ switched.activeTable := by
    rw [← switching.slotEq]
    intro same
    have equal := slot_of_inj cfg positive (Nat.le_succ _) (by omega) same
    omega
  have kept := @reopen_slot_other Tag switched _ _ different invalidLsn
  constructor
  · rw [if_neg nonempty]
    exact opened.rep
  · rw [if_neg nonempty]
    refine .inr ⟨by simp, ?_, ?_, fun _ => ?_⟩
    · rw [opened.activeTable, List.length_append, length_singleton]
      exact switching.slotEq.symm
    · rw [opened.activeTable]
      exact opened.active
    · rw [opened.activeTable]
      exact opened.is_new switching.slotEq.symm
  · exact opened.adding.trans notAdding
  · rw [reopen_slot_meta]
    exact savedEq
  · intro _
    rw [opened.activeTable, prev, kept]
    exact ⟨flushed, newest⟩

end Load

section Skip
variable {Tag : Type} [DecidableEq Tag] {cfg : Config Tag}
  {saved : List (List (LogIndexLsn Tag))} {snap : Snapshot Tag} {info : LogIndexLsn Tag}

/-- The code's test for a pair that was saved before the crash. -/
def skips (cfg : Config Tag) (snap : Snapshot Tag) (info : LogIndexLsn Tag) : Bool :=
  decide (info.lsn < snap.indexMeta.maxLsn) ||
    (decide (snap.indexMeta.maxLsn = info.lsn) && logIndexExistsInSavedTable cfg snap info)

theorem Restarted.add_lsn (restarted : Restarted cfg saved snap) (prev : info.prevLsn < info.lsn) :
    polarLogindexAddLsn cfg snap info =
      if skips cfg snap info then .ok (snap, .ignored)
      else logIndexInsertLsn cfg { snap with adding := true } info := by
  have notAdding : ¬ snap.adding = true := by
    rw [restarted.notAdding]
    decide
  rw [polarLogindexAddLsn, if_neg (not_not.mpr prev), if_neg notAdding,
    restarted.rep.metaOk.startLsn, skips]
  by_cases below : info.lsn < snap.indexMeta.maxLsn
  · simp [below]
  · simp [below]

end Skip

section Recover
variable {Tag : Type} {cfg : Config Tag}
  {saved newTabs : List (List (LogIndexLsn Tag))} {snap start : Snapshot Tag}
  {goal todo : List (LogIndexLsn Tag)} {info : LogIndexLsn Tag} {st next : Recovery Tag}

structure GoalOk (saved : List (List (LogIndexLsn Tag))) (goal : List (LogIndexLsn Tag)) :
    Prop where
  sorted : (saved.flatten ++ goal).Pairwise fun earlier later => earlier.lsn ≤ later.lsn
  newer : goal.Pairwise fun earlier later => earlier.tag = later.tag → earlier.lsn < later.lsn
  valid : ∀ entry ∈ goal, entry.prevLsn < entry.lsn ∧ entry.lsn < uint64Max

theorem GoalOk.fits (goalOk : GoalOk saved goal) (content : newTabs.flatten ++ info :: todo = goal)
    (opened : saved ≠ [] → newTabs ≠ []) : Fits (saved ++ newTabs) info := by
  have inGoal : info ∈ goal := content ▸ mem_append_right _ mem_cons_self
  have sorted := goalOk.sorted
  have newer := goalOk.newer
  rw [← content] at newer
  rw [← content, ← append_assoc, pairwise_append] at sorted
  refine ⟨(goalOk.valid info inGoal).1, (goalOk.valid info inGoal).2, ?_, ?_⟩
  · intro entry mem
    rw [flatten_append] at mem
    exact sorted.2.2 entry mem info mem_cons_self
  intro newest found entry mem sameTag
  -- the newest table was filled after the restart
  have inNew : newest ∈ newTabs := by
    by_cases empty : newTabs = []
    · have noTables : saved = [] := by
        by_contra some
        exact opened some empty
      rw [empty, noTables] at found
      cases found
    · have last := List.length_pos_of_ne_nil empty
      rw [List.length_append, List.getElem?_append_right (by omega)] at found
      exact mem_of_getElem? found
  rw [pairwise_append] at newer
  exact newer.2.2 entry (mem_flatten.mpr ⟨newest, inNew, mem⟩) info mem_cons_self sameTag

theorem AddTo.beyond {waiting : Bool} {grown : List (List (LogIndexLsn Tag))}
    (added : AddTo info waiting (saved ++ newTabs) grown) (opened : saved ≠ [] → newTabs ≠ []) :
    ∃ newGrown, grown = saved ++ newGrown ∧ newGrown ≠ [] ∧ newGrown.flatten = newTabs.flatten ++
    [info] := by
  generalize whole : saved ++ newTabs = tabs at added
  cases added with
  | sameTable _ newest =>
    rcases eq_nil_or_concat newTabs with empty | ⟨before, last, split⟩
    · have noTables : saved = [] := by
        by_contra some
        exact opened some empty
      rw [empty, noTables] at whole
      exact absurd whole.symm (by simp)
    · rw [concat_eq_append] at split
      rw [split, ← append_assoc] at whole
      rcases append_inj' whole rfl with ⟨frontEq, lastEq⟩
      refine ⟨before ++ [newest ++ [info]], ?_, by simp, ?_⟩
      · rw [← frontEq, append_assoc]
      · rw [split, lastEq]
        simp
  | newTable =>
    refine ⟨newTabs ++ [[info]], ?_, by simp, by simp⟩
    rw [← whole, append_assoc]

variable [DecidableEq Tag]

/-- The restarted snapshot until the first insert, and the tables filled after it. -/
inductive RecoveryRep (cfg : Config Tag) (saved : List (List (LogIndexLsn Tag)))
    (start : Snapshot Tag) (goal : List (LogIndexLsn Tag)) : Recovery Tag → Prop where
  | skipping (todo : List (LogIndexLsn Tag)) (valid : ∀ entry ∈ todo, entry.prevLsn < entry.lsn)
      (rest : todo.dropWhile (skips cfg start) = goal) :
      RecoveryRep cfg saved start goal ⟨start, none, todo⟩
  | inserting (st : Recovery Tag) (newTabs : List (List (LogIndexLsn Tag)))
      (rep : SnapRep cfg (saved ++ newTabs) st.snap)
      (activeRep : ActiveRep cfg (saved ++ newTabs) st.snap st.pending)
      (adding : st.snap.adding = true)
      (content : newTabs.flatten ++ ((st.pending.map PendingAdd.info).toList ++ st.todo) = goal)
      (opened : saved ≠ [] → newTabs ≠ []) :
      RecoveryRep cfg saved start goal st

theorem RecoveryRep.inserted {after : Snapshot Tag} {waited : Bool}
    (added : Added cfg waited (saved ++ newTabs) info after)
    (content : newTabs.flatten ++ info :: todo = goal) (opened : saved ≠ [] → newTabs ≠ [])
    (adding : after.adding = true) : RecoveryRep cfg saved start goal ⟨after, none, todo⟩ := by
  rcases added with ⟨_, addTo, rep, activeRep⟩
  rcases addTo.beyond opened with ⟨newGrown, whole, nonempty, flat⟩
  subst whole
  refine .inserting _ newGrown rep activeRep adding ?_ (fun _ => nonempty)
  rw [flat, ← content]
  simp

theorem RecoveryRep.after_insert {after : Snapshot Tag} {res : AddResult Tag}
    (outcome : InsertOutcome cfg (saved ++ newTabs) info after res)
    (content : newTabs.flatten ++ info :: todo = goal) (opened : saved ≠ [] → newTabs ≠ [])
    (adding : after.adding = true) :
    RecoveryRep cfg saved start goal ⟨after, res.pending, todo⟩ := by
  cases res with
  | ignored => exact absurd outcome id
  | inserted => exact .inserted outcome content opened adding
  | waiting =>
    rcases outcome with ⟨infoEq, rep, activeRep⟩
    refine .inserting _ newTabs rep activeRep adding ?_ opened
    rw [← content, ← infoEq]
    rfl

theorem RecoveryRep.add (restarted : Restarted cfg saved start) (goalOk : GoalOk saved goal)
    (rep : RecoveryRep cfg saved start goal ⟨snap, none, info :: todo⟩) :
    ∃ after res, polarLogindexAddLsn cfg snap info = .ok (after, res) ∧
      RecoveryRep cfg saved start goal ⟨after, res.pending, todo⟩ := by
  generalize whole : (⟨snap, none, info :: todo⟩ : Recovery Tag) = st at rep
  cases rep with
  | skipping _ valid rest =>
    cases whole
    have valid := forall_mem_cons.mp valid
    rw [restarted.add_lsn valid.1]
    split_ifs with skip
    · rw [dropWhile_cons_of_pos skip] at rest
      exact ⟨snap, .ignored, rfl, .skipping todo valid.2 rest⟩
    rw [dropWhile_cons_of_neg skip] at rest
    have opened : saved ≠ [] → (if saved = [] then [] else [[]] : List (List (LogIndexLsn Tag))) ≠
      [] := by
      intro some
      rw [if_neg some]
      exact cons_ne_nil _ _
    have content : (if saved = [] then [] else [[]] : List (List (LogIndexLsn Tag))).flatten ++
        info :: todo = goal := by
      rw [← rest]
      split_ifs <;> rfl
    have old := restarted.rep
    have started : SnapRep cfg (saved ++ if saved = [] then [] else [[]])
      { snap with adding := true } := { old with }
    rcases insert_lsn_spec started restarted.activeRep (goalOk.fits content opened) with
      ⟨after, res, call, outcome, kept⟩
    exact ⟨after, res, call, .after_insert outcome content opened kept⟩
  | inserting st _ snapRep activeRep adding content opened =>
    subst whole
    have fits := goalOk.fits content opened
    rcases insert_lsn_spec snapRep activeRep fits with ⟨after, res, call, outcome, kept⟩
    refine ⟨after, res, ?_, .after_insert outcome content opened (kept.trans adding)⟩
    rw [polarLogindexAddLsn, if_neg (not_not.mpr fits.prev), if_pos adding, call]

theorem RecoveryRep.resume {pending : PendingAdd Tag} (goalOk : GoalOk saved goal)
    (rep : RecoveryRep cfg saved start goal ⟨snap, some pending, todo⟩) (flushable : Bool) :
    ∃ after res, resumeInsertLsn cfg snap pending flushable = .ok (after, res) ∧
      RecoveryRep cfg saved start goal ⟨after, res.pending, todo⟩ ∧
      (flushable = true → res.pending = none) := by
  generalize whole : (⟨snap, some pending, todo⟩ : Recovery Tag) = st at rep
  cases rep with
  | skipping => cases whole
  | inserting st newTabs snapRep activeRep adding content opened =>
    subst whole
    have split : newTabs.flatten ++ pending.info :: todo = goal := content
    rcases resume_insert_spec snapRep activeRep (goalOk.fits split opened) flushable with
      ⟨after, res, call, kept, ⟨notFlushable, sameSnap, waits⟩ | ⟨isInserted, added⟩⟩
    · subst sameSnap waits
      refine ⟨after, _, call, .inserting _ newTabs snapRep activeRep adding content opened, ?_⟩
      intro canFlush
      rw [notFlushable] at canFlush
      cases canFlush
    · subst isInserted
      exact ⟨after, _, call, .inserted added split opened (kept.trans adding), fun _ => rfl⟩

variable (restarted : Restarted cfg saved start)
include restarted

theorem Restarted.flush_idle (flushActive flushable : Bool) :
    logIndexFlushTable cfg start flushActive flushable = start := by
  have unwanted : ¬ ((start.memTable (saved.length % cfg.memTblSize)).state = .inactive ∨
      (flushActive = true ∧ (start.memTable (saved.length % cfg.memTblSize)).state = .active ∧
        ¬ memTblIsNew (start.memTable (saved.length % cfg.memTblSize)))) := by
    rcases restarted.activeRep with ⟨empty, -⟩ | ⟨nonempty, activeEq, active, isNew⟩
    · have noTables := (append_eq_nil_iff.mp empty).1
      subst noTables
      have isFree := (restarted.rep.memory.slots 0 (mem_tbl_size_pos cfg)).free_of_nil
      simp [isFree]
    have some : saved ≠ [] := by
      intro noTables
      rw [noTables] at nonempty
      exact nonempty rfl
    rw [if_neg some, List.length_append, length_singleton] at activeEq isNew
    rw [slot_of_succ] at activeEq
    rw [← activeEq, active]
    simp [isNew (by simp)]
  simp only [logIndexFlushTable, restarted.savedEq, if_neg (fun all => unwanted (And.left all))]

section
variable (goalOk : GoalOk saved goal) (rep : RecoveryRep cfg saved start goal st)
include goalOk rep

theorem RecoveryRep.step (step : RecoveryStep cfg st next) :
    RecoveryRep cfg saved start goal next := by
  cases step with
  | add snap _ todo after res call =>
    rcases rep.add restarted goalOk with ⟨after', result', call', later⟩
    cases call.symm.trans call'
    exact later
  | resume _ _ todo flushable _ _ call =>
    rcases rep.resume goalOk flushable with ⟨_, _, call', later, -⟩
    cases call.symm.trans call'
    exact later
  | flush _ flushActive flushable =>
    cases rep with
    | skipping todo valid rest =>
      rw [restarted.flush_idle]
      exact .skipping todo valid rest
    | inserting _ newTabs snapRep activeRep adding content opened =>
      rcases flush_table_spec snapRep flushActive flushable with ⟨flushed, keeps⟩
      exact .inserting _ newTabs flushed (keeps.active_rep activeRep) (keeps.adding.trans adding)
        content opened

theorem RecoveryRep.run (run : RecoveryRun cfg st next) :
    RecoveryRep cfg saved start goal next := by
  induction run with
  | refl => exact rep
  | tail _ step reached => exact reached.step restarted goalOk step

end

theorem RecoveryRep.completes (goalOk : GoalOk saved goal) (todo : List (LogIndexLsn Tag)) :
    ∀ snap, RecoveryRep cfg saved start goal ⟨snap, none, todo⟩ →
      ∃ after, RecoveryRun cfg ⟨snap, none, todo⟩ ⟨after, none, []⟩ := by
  induction todo with
  | nil => exact fun snap _ => ⟨snap, .refl⟩
  | cons info todo ih =>
    intro snap rep
    rcases rep.add restarted goalOk with ⟨added, res, call, later⟩
    have first := RecoveryStep.add snap info todo added res call
    cases waits : res.pending with
    | none =>
      rw [waits] at first later
      rcases ih added later with ⟨after, rest⟩
      exact ⟨after, .head first rest⟩
    | some pending =>
      rw [waits] at first later
      rcases later.resume goalOk true with ⟨resumed, res, call, done, noWait⟩
      have second := RecoveryStep.resume added pending todo true resumed res call
      rw [noWait rfl] at second done
      rcases ih resumed done with ⟨after, rest⟩
      exact ⟨after, .head first (.head second rest)⟩

end Recover

section Exact
variable {Tag : Type} {cfg : Config Tag} {tabs saved : List (List (LogIndexLsn Tag))}
  {snap start : Snapshot Tag}
  {log unsaved : List (LogIndexLsn Tag)}

variable [DecidableEq Tag]

def savedMaxLsn (storage : Storage Tag) (tid : Nat) : Nat :=
  ((logIndexReadTableData storage tid).map LogIdxTableData.maxLsn).getD invalidLsn

def EndsTwice (storage : Storage Tag) : Prop :=
  2 ≤ storage.metaFile.maxIdxTableId ∧ savedMaxLsn storage (storage.metaFile.maxIdxTableId - 1) =
      savedMaxLsn storage storage.metaFile.maxIdxTableId

theorem SnapRep.saved_max (rep : SnapRep cfg tabs snap) (filled : [] ∉ tabs) {tid : Nat}
    (positive : 0 < tid) (saved : tid ≤ snap.indexMeta.maxIdxTableId) :
    (∀ entry ∈ (tabs.take tid).flatten, entry.lsn ≤ savedMaxLsn snap.storage tid) ∧
      ∃ entry ∈ entriesAt tabs tid, entry.lsn = savedMaxLsn snap.storage tid := by
  rcases rep.store.files tid positive saved with ⟨data, inFile, holds⟩
  have maxEq : savedMaxLsn snap.storage tid = data.maxLsn := by
    rw [savedMaxLsn, logIndexReadTableData, inFile]
    rfl
  rcases Nat.exists_eq_succ_of_ne_zero (ne_of_gt positive) with ⟨below, rfl⟩
  rcases holds.bounds with ⟨-, within, attained⟩
  have nonempty : entriesAt tabs below.succ ≠ [] := fun empty =>
    filled (empty ▸ mem_of_getElem? holds.entries_at.1)
  rcases (attained nonempty).2 with ⟨last, lastIn, lastEq⟩
  rw [maxEq]
  refine ⟨?_, last, lastIn, lastEq⟩
  rw [take_entries positive]
  intro entry mem
  rcases mem_append.mp mem with early | here
  · exact (holds.earlier rep.logOk entry early last lastIn).trans lastEq.le
  · exact (within entry here).2

theorem ends_twice_iff (rep : SnapRep cfg tabs snap) (filled : [] ∉ tabs) : EndsTwice snap.storage ↔
      ∃ entry ∈ (tabs.take (snap.indexMeta.maxIdxTableId - 1)).flatten,
      entry.lsn = snap.indexMeta.maxLsn := by
  rw [EndsTwice, rep.metaFile]
  by_cases none : snap.indexMeta.maxIdxTableId = 0
  · simp [none]
  have positive := Nat.pos_of_ne_zero none
  rcases rep.saved_max filled positive le_rfl with ⟨allBelow, last, lastIn, lastEq⟩
  have whole : entriesAt tabs snap.indexMeta.maxIdxTableId ⊆
      (tabs.take snap.indexMeta.maxIdxTableId).flatten := by
    rw [take_entries positive]
    exact subset_append_right _ _
  have savedLe := rep.metaOk.saved_le rep.logOk le_rfl
  have maxEq : savedMaxLsn snap.storage snap.indexMeta.maxIdxTableId = snap.indexMeta.maxLsn := by
    apply le_antisymm
    · rw [← lastEq]
      exact savedLe last (whole lastIn)
    · have nonempty : ((tabs.take snap.indexMeta.maxIdxTableId).flatten.map LogIndexLsn.lsn) ≠ [] :=
        ne_nil_of_mem (mem_map_of_mem (whole lastIn))
      rcases mem_map.mp (getLastD_mem nonempty) with ⟨entry, mem, same⟩
      rw [rep.metaOk.maxLsn]
      exact same ▸ allBelow entry mem
  rw [maxEq]
  constructor
  · rintro ⟨two, same⟩
    rcases rep.saved_max filled (by omega) (Nat.sub_le snap.indexMeta.maxIdxTableId 1) with
      ⟨-, entry, mem, entryEq⟩
    refine ⟨entry, ?_, entryEq.trans same⟩
    rw [take_entries (by omega)]
    exact mem_append_right _ mem
  rintro ⟨entry, mem, entryEq⟩
  have two : 2 ≤ snap.indexMeta.maxIdxTableId := by
    by_contra few
    rw [show snap.indexMeta.maxIdxTableId - 1 = 0 by omega] at mem
    cases mem
  rcases rep.saved_max filled (by omega) (Nat.sub_le snap.indexMeta.maxIdxTableId 1) with
    ⟨below, other, otherIn, otherEq⟩
  refine ⟨two, le_antisymm ?_ (entryEq ▸ below entry mem)⟩
  rw [← otherEq]
  apply savedLe other
  rw [take_entries positive, take_entries (by omega)]
  exact mem_append_left _ (mem_append_right _ otherIn)

/-- A log cut into its saved and its unsaved part, at a crash. -/
structure Cut (cfg : Config Tag) (saved : List (List (LogIndexLsn Tag)))
    (unsaved : List (LogIndexLsn Tag)) (start : Snapshot Tag) : Prop where
  restarted : Restarted cfg saved start
  ordered : Admitted InOrder (saved.flatten ++ unsaved)
  savedLe : ∀ entry ∈ saved.flatten, entry.lsn ≤ start.indexMeta.maxLsn
  unsavedGe : ∀ entry ∈ unsaved, start.indexMeta.maxLsn ≤ entry.lsn

variable {fromLsn : Nat}

variable {entry : LogIndexLsn Tag}

theorem Cut.positive (cut : Cut cfg saved unsaved start)
    (mem : entry ∈ saved.flatten ++ unsaved) : 0 < entry.lsn :=
  (lsn_bounded cut.ordered mem).1

section
variable (cut : Cut cfg saved unsaved start)
include cut

end

section
variable (cut : Cut cfg saved unsaved start) (low : fromLsn ≤ start.indexMeta.maxLsn)
include cut low

end

end Exact

section Split
variable {Tag : Type} [DecidableEq Tag] {cfg : Config Tag}
  {tabs : List (List (LogIndexLsn Tag))} {st : RunState Tag}

theorem RunRep.flush_saves (run : RunRep cfg tabs st)
    (closed : st.snap.indexMeta.maxIdxTableId + 1 < tabs.length) :
    st.snap.indexMeta.maxIdxTableId <
    (logIndexFlushTable cfg st.snap false true).indexMeta.maxIdxTableId := by
  obtain ⟨slot, isSlot⟩ : ∃ slot, slotOf cfg (st.snap.indexMeta.maxIdxTableId + 1) = slot :=
    ⟨_, rfl⟩
  have inactive : (st.snap.memTable slot).state = .inactive := by
    rw [← isSlot]
    rcases run.rep.memory.unsaved_state (Nat.lt_succ_self _) closed.le with inactive | ⟨-, last⟩
    · exact inactive
    · omega
  have idEq := run.rep.memory.unsaved _ (Nat.lt_succ_self _) closed.le
  rcases write_table_inactive run.rep rfl isSlot (by omega) inactive with
    ⟨after, written, rep, memEq, -, -⟩
  have flushed : logIndexFlushTable cfg st.snap false true = after := by
    rw [← isSlot, slot_of_succ] at inactive written
    simp [logIndexFlushTable, inactive, written]
  have inSlot : after.memTable slot = setState (st.snap.memTable slot) .flushed := by
    rw [memEq, update_self]
  have isFlushed : (after.memTable slot).state = .flushed := by
    rw [inSlot]
    rfl
  rcases (rep.memory.slots slot (isSlot ▸ slot_of_lt cfg _)).cases (by rw [isFlushed]; decide) with
    ⟨tid, tidEq, -, -, isSaved, -⟩
  have below := isSaved.mp isFlushed
  rw [inSlot, ← isSlot] at tidEq
  have same : tid = st.snap.indexMeta.maxIdxTableId + 1 := tidEq.symm.trans idEq
  rw [flushed]
  omega

theorem RunRep.saves_all (left : Nat) : ∀ st, RunRep cfg tabs st →
    tabs.length ≤ st.snap.indexMeta.maxIdxTableId + 1 + left →
    ∃ next, Run cfg st next ∧ RunRep cfg tabs next ∧ next.log = st.log ∧
      next.pending = st.pending ∧ tabs.length ≤ next.snap.indexMeta.maxIdxTableId + 1 := by
  induction left with
  | zero => exact fun st run enough => ⟨st, .refl, run, rfl, rfl, enough⟩
  | succ _ ih =>
    intro st run _
    by_cases closed : st.snap.indexMeta.maxIdxTableId + 1 < tabs.length
    · have more := run.flush_saves closed
      rcases flush_table_spec run.rep false true with ⟨rep, keeps⟩
      rcases ih _ (run.beside rep keeps) (by dsimp only; omega) with
        ⟨next, steps, nextRep, sameLog, samePending, all⟩
      exact ⟨next, .head (.flush st false true) steps, nextRep, sameLog, samePending, all⟩
    · exact ⟨st, .refl, run, rfl, rfl, by omega⟩

theorem SnapRep.holds_all {snap : Snapshot Tag} (rep : SnapRep cfg tabs snap)
    {entries : List (LogIndexLsn Tag)} (mem : entries ∈ tabs) :
    ∃ freeHead data, TableRep (hashKey cfg) freeHead data entries := by
  rcases getElem_of_mem mem with ⟨idx, inside, found⟩
  have positive : 0 < idx + 1 := Nat.succ_pos idx
  have holds : ∃ data, Holds cfg tabs (idx + 1) data := by
    by_cases saved : idx + 1 ≤ snap.indexMeta.maxIdxTableId
    · rcases rep.store.files (idx + 1) positive saved with ⟨data, -, holds⟩
      exact ⟨data, holds⟩
    · have idEq := rep.memory.unsaved (idx + 1) (not_le.mp saved) inside
      have slotRep := rep.memory.slots _ (slot_of_lt cfg (idx + 1))
      have used := slotRep.used_of_id (by rw [idEq]; exact positive)
      exact ⟨_, rep.memory.held (slot_of_lt cfg (idx + 1)) used idEq⟩
  rcases holds with ⟨data, -, -, _, freeHead, atIndex, tableRep⟩
  rw [Nat.add_sub_cancel, List.getElem?_eq_getElem inside, found] at atIndex
  cases atIndex
  exact ⟨freeHead, data, tableRep⟩

def wideRecord (count : Nat) : List (LogIndexLsn Nat) := (List.range count).map fun page =>
    ⟨page, 5, 0⟩

/-- A record too wide for one table, and a page of a later record, in a table of its own. -/
def splitLog : List (LogIndexLsn Nat) := wideRecord memTblSegNum ++ [⟨memTblSegNum, 2 ^ 32, 0⟩]

theorem wide_record_mem {count : Nat} {entry : LogIndexLsn Nat} (mem : entry ∈ wideRecord count) :
    entry.tag < count ∧ entry.lsn = 5 := by
  rcases mem_map.mp mem with ⟨_, inRange, same⟩
  rw [← same]
  exact ⟨mem_range.mp inRange, rfl⟩

theorem wide_record_succ (count : Nat) : wideRecord (count + 1) = wideRecord count ++
    [⟨count, 5, 0⟩] := by
  rw [wideRecord, wideRecord, range_succ, map_append]
  rfl

theorem wide_record_ordered (count : Nat) : Admitted InOrder (wideRecord count) := by
  induction count with
  | zero => exact admitted_nil
  | succ _ ih =>
    rw [wide_record_succ, admitted_snoc]
    refine ⟨ih, Nat.succ_pos 4, show 5 < uint64Max by decide, ?_, ?_⟩
    · intro entry mem
      exact (wide_record_mem mem).2.le
    · intro _ mem sameTag
      exact absurd sameTag (ne_of_lt (wide_record_mem mem).1)

theorem split_log_ordered : Admitted InOrder splitLog := by
  rw [splitLog, admitted_snoc]
  refine ⟨wide_record_ordered _, by decide, by decide, ?_, ?_⟩
  · intro entry mem
    rw [(wide_record_mem mem).2]
    decide
  · intro _ mem sameTag
    exact absurd sameTag (ne_of_lt (wide_record_mem mem).1)

theorem wide_record_unlinked {count : Nat} : lsnsOf count (wideRecord count) = [] := by
  rw [eq_nil_iff_forall_not_mem]
  intro _ mem
  rcases mem_lsns_of.mp mem with ⟨_, inRecord, sameTag, -⟩
  exact absurd sameTag (ne_of_lt (wide_record_mem inRecord).1)

theorem split_log_linked : PrevLinked splitLog := by
  have wide : ∀ count, PrevLinked (wideRecord count) := by
    intro count
    induction count with
    | zero => exact admitted_nil
    | succ _ ih =>
      rw [wide_record_succ, PrevLinked, admitted_snoc]
      refine ⟨ih, ?_⟩
      rw [wide_record_unlinked]
      rfl
  rw [splitLog, PrevLinked, admitted_snoc]
  refine ⟨wide _, ?_⟩
  rw [wide_record_unlinked]
  rfl

/-- However the tables were filled, the wide record takes more than one, and the later
pair has a table of its own. -/
theorem split_log_tables {cfg : Config Nat} {tabs : List (List (LogIndexLsn Nat))}
    {snap : Snapshot Nat} (rep : SnapRep cfg tabs snap) (filled : [] ∉ tabs)
    (content : tabs.flatten = splitLog) :
    ∃ front last, tabs = front ++ [last] ∧ front.flatten = wideRecord memTblSegNum ∧
    2 ≤ front.length := by
  rcases eq_nil_or_concat tabs with empty | ⟨front, last, whole⟩
  · rw [empty] at content
    exact absurd (congrArg List.length content) (by simp [splitLog])
  rw [concat_eq_append] at whole
  subst whole
  have lastIn : last ∈ front ++ [last] := mem_concat_self
  rcases eq_nil_or_concat last with empty | ⟨init, final, split⟩
  · exact absurd (empty ▸ lastIn) filled
  rw [concat_eq_append] at split
  rw [flatten_append, flatten_singleton, split, splitLog, ← append_assoc] at content
  rcases append_inj' content rfl with ⟨early, finalEq⟩
  rw [singleton_inj] at finalEq
  rcases rep.holds_all lastIn with ⟨freeHead, data, ghost, tableRep⟩
  have samePrefix : ∀ entry ∈ last, prefixOf entry.lsn = prefixOf final.lsn := by
    intro entry mem
    rw [← tableRep.samePrefix entry mem]
    exact tableRep.samePrefix final (split ▸ mem_concat_self)
  have alone : init = [] := by
    rw [eq_nil_iff_forall_not_mem]
    intro entry mem
    have inRecord : entry ∈ wideRecord memTblSegNum := early ▸ mem_append_right _ mem
    have same := samePrefix entry (split ▸ mem_append_left _ mem)
    rw [(wide_record_mem inRecord).2, finalEq] at same
    cases same
  rw [alone, append_nil] at early
  refine ⟨front, last, rfl, early, ?_⟩
  match front, early with
  | [], early => exact absurd (congrArg List.length early) (by simp [wideRecord, memTblSegNum])
  | [only], early =>
    rw [flatten_singleton] at early
    rcases rep.holds_all (show only ∈ [only] ++ [last] from mem_cons_self) with
      ⟨freeHead, data, ghost, onlyRep⟩
    have distinct : (only.map LogIndexLsn.tag).Nodup := by
      rw [early, wideRecord, map_map]
      exact nodup_range.map injective_id
    have short := onlyRep.tags_short distinct
    rw [early, wideRecord, length_map, length_range] at short
    exact absurd short (lt_irrefl _)
  | _ :: _ :: rest, _ => exact Nat.le_add_left 2 rest.length

theorem split_log_crash : ∃ crashed : RunState Nat, Run smallConfig .start crashed ∧
    crashed.log = splitLog ∧ EndsTwice crashed.snap.storage := by
  rcases run_exists smallConfig split_log_ordered with ⟨st, run, idle, logEq⟩
  rcases run_rep_of_run run with ⟨tabs, runRep, filled⟩
  rcases RunRep.saves_all tabs.length st runRep (by omega) with
    ⟨crashed, flushes, crashedRep, sameLog, samePending, all⟩
  rcases split_log_tables runRep.rep filled (runRep.content.trans logEq) with
    ⟨front, last, whole, frontEq, two⟩
  refine ⟨crashed, run.trans flushes, sameLog.trans logEq, ?_⟩
  have savedEq : crashed.snap.indexMeta.maxIdxTableId = front.length := by
    have length : tabs.length = front.length + 1 := by rw [whole]; simp
    have activeRep := crashedRep.activeRep
    rw [samePending, idle] at activeRep
    rcases activeRep with ⟨empty, -⟩ | ⟨-, activeEq, active, -⟩
    · rw [empty] at length
      exact absurd length (Nat.succ_ne_zero _).symm
    · have slotRep := crashedRep.rep.memory.slots _ (slot_of_lt smallConfig tabs.length)
      unfold SlotRep at slotRep
      rw [← activeEq, active] at slotRep
      omega
  rw [ends_twice_iff crashedRep.rep filled, savedEq]
  have maxLsn : crashed.snap.indexMeta.maxLsn = 5 := by
    rw [crashedRep.rep.metaOk.maxLsn, savedEq, whole, take_left, frontEq,
      show memTblSegNum = 4095 + 1 from rfl, wide_record_succ, map_append, map_singleton,
      getLastD_concat]
  have firstIn : front[0] ∈ tabs.take (front.length - 1) := by
    rw [whole, take_append_of_le_length (Nat.sub_le _ _)]
    exact mem_take_iff_getElem.mpr ⟨0, by omega, rfl⟩
  have nonempty : front[0] ≠ [] := fun empty => filled (empty ▸ mem_of_mem_take firstIn)
  rcases exists_mem_of_ne_nil _ nonempty with ⟨entry, mem⟩
  refine ⟨entry, mem_flatten.mpr ⟨_, firstIn, mem⟩, ?_⟩
  have inRecord : entry ∈ wideRecord memTblSegNum := by
    rw [← frontEq]
    exact mem_flatten.mpr ⟨_, getElem_mem _, mem⟩
  rw [maxLsn]
  exact (wide_record_mem inRecord).2

end Split

end PolarDB.LogIndex
