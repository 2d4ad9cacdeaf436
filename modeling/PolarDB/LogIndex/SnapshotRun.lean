import PolarDB.Lib.History
import PolarDB.LogIndex.SnapshotStep

/-!
# Adds, flushes and reads, and every run of them

The specs of `polar_logindex_add_lsn` and of the steps that run beside it, in terms
of the tables `tabs` a snapshot represents. An add appends its pair to the newest
table or opens a table for it; nothing else changes `tabs`.
-/

namespace PolarDB.LogIndex

open Function List Lib.Linked Lib.Bloom Lib.History Lib.Snoc

variable {Tag : Type} {cfg : Config Tag} {tabs front : List (List (LogIndexLsn Tag))}
  {entries : List (LogIndexLsn Tag)} {info : LogIndexLsn Tag} {snap after : Snapshot Tag}
  {data : LogIdxTableData Tag}

/-- What the WAL order promises about the next pair. `UINT64_MAX` is the source's own
mark for no lsn. -/
structure Fits (tabs : List (List (LogIndexLsn Tag))) (info : LogIndexLsn Tag) : Prop where
  prev : info.prevLsn < info.lsn
  bounded : info.lsn < uint64Max
  latest : ∀ entry ∈ tabs.flatten, entry.lsn ≤ info.lsn
  newer : ∀ newest, tabs[tabs.length - 1]? = some newest → ∀ entry ∈ newest, entry.tag = info.tag →
    entry.lsn < info.lsn

/-- Where an add puts its pair. An add that had to wait gets a table of its own. -/
inductive AddTo (info : LogIndexLsn Tag) :
    Bool → List (List (LogIndexLsn Tag)) → List (List (LogIndexLsn Tag)) → Prop where
  | sameTable (front : List (List (LogIndexLsn Tag))) (newest : List (LogIndexLsn Tag)) :
      AddTo info false (front ++ [newest]) (front ++ [newest ++ [info]])
  | newTable (waited : Bool) (tabs : List (List (LogIndexLsn Tag))) :
      AddTo info waited tabs (tabs ++ [[info]])

theorem AddTo.flatten {before after : List (List (LogIndexLsn Tag))} {waited : Bool}
    (added : AddTo info waited before after) : after.flatten = before.flatten ++ [info] := by
  cases added <;> simp

theorem insert_into_seg_id (table : LogIdxTableData Tag) (key head dst : Nat) (newItem : Bool)
    (info : LogIndexLsn Tag) :
    (insertIntoSeg table key head dst newItem info).idxTableId = table.idxTableId := by
  cases newItem with
  | true => rfl
  | false =>
    simp only [insertIntoSeg, updateBounds, addOrder, logIndexInsertNewSeg, linkTail, setSegment,
      Bool.false_eq_true, if_false]
    split
    · rfl
    · split_ifs
      · rfl
      · split <;> rfl

theorem insert_into_tail_id (table : LogIdxTableData Tag) (head : Nat) (info : LogIndexLsn Tag) :
    (insertIntoTail table head info).idxTableId = table.idxTableId := by
  have appended : (logIndexAppendLsn table head info).1.idxTableId = table.idxTableId := by
    unfold logIndexAppendLsn setSegment
    split
    · rfl
    · split_ifs
      · rfl
      · split <;> rfl
  exact appended

theorem insert_into_fresh_eq (cfg : Config Tag) (snap : Snapshot Tag) (info : LogIndexLsn Tag)
    (table : LogMemTable Tag) (head : Nat) {dst : Nat} (newItem : Bool) (positive : 0 < dst)
    (room : dst < memTblSegNum) :
    insertIntoFresh cfg (setSlot snap snap.activeTable table) info head dst newItem =
      .ok { setSlot snap snap.activeTable
              { table with
                data := insertIntoSeg table.data (hashKey cfg info.tag) head dst newItem info } with
            maxLsn := (insertIntoSeg table.data (hashKey cfg info.tag) head dst newItem info).maxLsn
          } := by
  have valid : dst ≠ invalidSeg ∧ dst < memTblSegNum := ⟨ne_of_gt positive, room⟩
  simp only [insertIntoFresh, if_pos valid, putActiveData, setSlot, update_self, update_idem]

theorem Fits.appendable (fits : Fits (front ++ [entries]) info)
    (samePrefix : data.prefixLsn = prefixOf info.lsn) : Appendable data entries info where
  positive := lt_of_le_of_lt (Nat.zero_le _) fits.prev
  bounded := le_of_lt fits.bounded
  samePrefix := samePrefix
  latest := by
    intro _ mem
    apply fits.latest
    simp only [flatten_append, flatten_cons, flatten_nil, append_nil, mem_append]
    exact .inr mem

/-- A waiting insert from where its table is open. -/
def insertAfterWait (cfg : Config Tag) (waited : Snapshot Tag) (pending : PendingAdd Tag) :
    Except LogIndexError (Snapshot Tag × AddResult Tag) :=
  let switched :=
    if pending.switching then { waited with activeTable := pending.slot } else waited
  match logIndexNextFreeSeg cfg switched pending.info.lsn with
  | (advanced, .found dst) => do
      let inserted ← insertIntoFresh cfg advanced pending.info invalidSeg dst pending.newItem
      .ok (inserted, .inserted)
  | (again, .wait slot switching) =>
    .ok (again, .waiting { pending with
        slot := if switching then slot else pending.slot
        switching := pending.switching || switching
        newItem := pending.newItem || switching })

theorem resume_insert_eq (cfg : Config Tag) (snap : Snapshot Tag) (pending : PendingAdd Tag)
    (flushable : Bool) : resumeInsertLsn cfg snap pending flushable =
      (logIndexWaitActive cfg snap pending.slot pending.info.lsn flushable).bind
        fun (waited, done) =>
          if done then insertAfterWait cfg waited pending else .ok (waited, .waiting pending) := rfl

/-- The part of the loop body of `log_index_flush_table` under the lock of the table.
The slot was chosen, and its state looked at, before. -/
def flushLocked (cfg : Config Tag) (snap : Snapshot Tag) (slot : Nat)
    (flushActive flushable : Bool) : Snapshot Tag :=
  let table := snap.memTable slot
  let unchanged := flushActive = true ∧ table.state = .active ∧
    snap.lastFlushMaxLsn = table.data.maxLsn ∧ ¬memTblIsNew table
  if ¬unchanged ∧ (table.state = .inactive ∨ table.state = .active) ∧ flushable = true then
    match logIndexWriteTable cfg snap slot with
    | (saved, true) =>
      if flushActive then { saved with lastFlushMaxLsn := (saved.memTable slot).data.maxLsn }
      else saved
    | (saved, false) => saved
  else snap

/-- Without a process in between, the first look decides what is done under the lock. -/
theorem flush_table_eq (cfg : Config Tag) (snap : Snapshot Tag) (flushActive flushable : Bool) :
    logIndexFlushTable cfg snap flushActive flushable = snap ∨
        logIndexFlushTable cfg snap flushActive flushable = flushLocked cfg snap
          (snap.indexMeta.maxIdxTableId % cfg.memTblSize) flushActive flushable := by
  unfold logIndexFlushTable flushLocked
  dsimp only
  split
  · rename_i wanted
    right
    have used := wanted.1.imp_right fun active => active.2.1
    exact (if_pos ⟨fun same => wanted.2.1 ⟨same.1, same.2.1, same.2.2.1⟩, used, wanted.2.2⟩).symm
  · exact .inl rfl

theorem covered_last {file : List (LogIdxTableData Tag)} {base limit offset : Nat}
    (ids : ∀ (pos : Nat) (table : LogIdxTableData Tag),
      file[pos]? = some table → table.idxTableId = base + pos + 1)
    (inFile : file[offset]? = some data) (inside : data.idxTableId ≤ limit) :
    ∃ last ∈ file,
      (file.filter fun table =>
        decide (base + 1 ≤ table.idxTableId ∧ table.idxTableId ≤ limit)).getLast? = some last ∧
      data.idxTableId ≤ last.idxTableId ∧ last.idxTableId ≤ limit := by
  have sorted : file.Pairwise fun low high => low.idxTableId ≤ high.idxTableId := by
    rw [pairwise_iff_getElem]
    intro low high lowBound highBound _
    rw [ids low _ (List.getElem?_eq_getElem lowBound),
      ids high _ (List.getElem?_eq_getElem highBound)]
    omega
  have dataId := ids offset data inFile
  generalize coveredEq : (file.filter fun table =>
    decide (base + 1 ≤ table.idxTableId ∧ table.idxTableId ≤ limit)) = covered
  have mem : ∀ table, table ∈ covered ↔ table ∈ file ∧ base + 1 ≤ table.idxTableId ∧
    table.idxTableId ≤ limit := by
    intro _
    rw [← coveredEq, mem_filter, decide_eq_true_eq]
  have dataIn : data ∈ covered := (mem data).mpr ⟨mem_of_getElem? inFile, by omega, inside⟩
  have coveredSorted : covered.Pairwise fun low high => low.idxTableId ≤ high.idxTableId := by
    rw [← coveredEq]
    exact sorted.sublist filter_sublist
  rcases eq_nil_or_concat covered with empty | ⟨init, last, whole⟩
  · rw [empty] at dataIn
    cases dataIn
  rw [concat_eq_append] at whole
  subst whole
  have lastIn := (mem last).mp (by simp)
  refine ⟨last, lastIn.1, by simp, ?_, lastIn.2.2⟩
  exact forall_mem_snoc.mpr ⟨(pairwise_snoc.mp coveredSorted).2, le_rfl⟩ data dataIn

/-- Steps beside the adds never touch an active table and never make one. -/
structure KeepsActive (before after : Snapshot Tag) : Prop where
  activeTable : after.activeTable = before.activeTable
  adding : after.adding = before.adding
  kept : ∀ slot, (before.memTable slot).state = .active → after.memTable slot = before.memTable slot
  noNew : ∀ slot, (after.memTable slot).state = .active → (before.memTable slot).state = .active

theorem KeepsActive.refl : KeepsActive snap snap :=
  ⟨rfl, rfl, fun _ _ => rfl, fun _ active => active⟩

theorem KeepsActive.active_rep {pending : Option (PendingAdd Tag)} (keeps : KeepsActive snap after)
    (activeRep : ActiveRep cfg tabs snap pending) : ActiveRep cfg tabs after pending := by
  cases pending with
  | none =>
    rcases activeRep with ⟨empty, activeEq⟩ | ⟨nonempty, activeEq, active, isNew⟩
    · exact .inl ⟨empty, keeps.activeTable.trans activeEq⟩
    · right
      rw [keeps.activeTable, keeps.kept _ active]
      exact ⟨nonempty, activeEq, active, isNew⟩
  | some =>
    rcases activeRep with ⟨newItem, ⟨noSwitch, empty, activeEq, slotEq⟩ |
      ⟨isSwitch, nonempty, filled, activeEq, slotEq, idle⟩⟩
    · exact ⟨newItem, .inl ⟨noSwitch, empty, keeps.activeTable.trans activeEq, slotEq⟩⟩
    · exact ⟨newItem, .inr ⟨isSwitch, nonempty, filled, keeps.activeTable.trans activeEq, slotEq,
        fun slot inside active => idle slot inside (keeps.noNew slot active)⟩⟩

variable {table : LogMemTable Tag}

theorem keeps_active_update {slot : Nat}
    (memEq : after.memTable = update snap.memTable slot table)
    (wasNot : (snap.memTable slot).state ≠ .active) (isNot : table.state ≠ .active)
    (activeEq : after.activeTable = snap.activeTable) (adding : after.adding = snap.adding) :
    KeepsActive snap after where
  activeTable := activeEq
  adding := adding
  kept := by
    intro other active
    have apart : other ≠ slot := by
      intro same
      rw [same] at active
      exact wasNot active
    rw [memEq, update_of_ne apart]
  noNew := by
    intro other active
    rw [memEq] at active
    by_cases same : other = slot
    · rw [same, update_self] at active
      exact absurd active isNot
    · rwa [update_of_ne same] at active

variable [DecidableEq Tag]

section Insert

theorem next_free_seg_cases {lsn : Nat} (shape : snap.memTable snap.activeTable = table)
    (active : table.state = .active)
    (rep : TableRep (hashKey cfg) table.freeHead table.data entries) :
    (∃ data, logIndexNextFreeSeg cfg snap lsn =
        (setSlot snap snap.activeTable ⟨table.freeHead + 1, .active, data⟩,
          .found table.freeHead) ∧
      data.idxTableId = table.data.idxTableId ∧ data.prefixLsn = prefixOf lsn ∧
      0 < table.freeHead ∧ table.freeHead < memTblSegNum ∧
      TableRep (hashKey cfg) table.freeHead data entries ∧ (entries = [] ∨ data = table.data)) ∨
    (¬memTblIsNew table ∧ (memTblFull table ∨ ¬sameTableLsnPrefix table.data lsn) ∧
      logIndexNextFreeSeg cfg snap lsn =
        (setSlot snap snap.activeTable (setState table .inactive),
          .wait (nextSlot cfg snap.activeTable) true)) := by
  rcases table with ⟨tableFree, st, data⟩
  subst active
  rcases rep with ⟨ghost, ghostRep⟩
  have freePos := ghostRep.freePos
  simp only [logIndexNextFreeSeg, shape, if_true]
  by_cases isNew : memTblIsNew ⟨tableFree, .active, data⟩
  · have empty : entries = [] := ghostRep.max_lsn_eq_zero.mp isNew.1
    have one : tableFree = 1 := isNew.2.2.2
    subst empty
    left
    refine ⟨{ data with prefixLsn := prefixOf lsn }, ?_, rfl, rfl, freePos, ?_, ?_, .inl rfl⟩
    · rw [if_pos isNew]
      rfl
    · rw [one]
      decide
    · exact table_rep_set_prefix ⟨ghost, ghostRep⟩ _
  · by_cases switch : memTblFull ⟨tableFree, .active, data⟩ ∨ ¬sameTableLsnPrefix data lsn
    · right
      rw [if_neg isNew, if_pos switch]
      exact ⟨isNew, switch, rfl⟩
    left
    rw [not_or, not_not] at switch
    refine ⟨data, ?_, rfl, switch.2, freePos, ?_, ⟨ghost, ghostRep⟩, .inr rfl⟩
    · rw [if_neg isNew, if_neg (by rw [not_or, not_not]; exact switch)]
      rfl
    · exact lt_of_le_of_ne ghostRep.freeLe switch.1

theorem active_head_known {active : LogMemTable Tag}
    (present : activeHead cfg active info ≠ invalidSeg) :
    sameTableLsnPrefix active.data info.lsn ∧ logIndexMemTblExistsPage info.tag active.data
        (hashKey cfg info.tag) = activeHead cfg active info := by
  unfold activeHead at present ⊢
  split_ifs at present ⊢ with samePrefix
  · exact ⟨samePrefix.2, rfl⟩
  · exact absurd rfl present

section
variable (rep : SnapRep cfg (front ++ [entries]) snap)
  (activeEq : snap.activeTable = slotOf cfg (front.length + 1))
  (active : (snap.memTable snap.activeTable).state = .active)
include rep activeEq active

theorem SnapRep.active_table : (snap.memTable snap.activeTable).data.idxTableId = front.length + 1 ∧
    TableRep (hashKey cfg) (snap.memTable snap.activeTable).freeHead
      (snap.memTable snap.activeTable).data entries := by
  have own := rep.memory.slots snap.activeTable (activeEq ▸ slot_of_lt cfg _)
  unfold SlotRep at own
  rw [active] at own
  rcases own with ⟨-, -, idEq, _, found, tableRep⟩
  simp only [length_append, length_singleton, Nat.add_sub_cancel,
    List.getElem?_concat_length, Option.some.injEq] at idEq found
  rw [found]
  exact ⟨idEq, tableRep⟩

def Added (cfg : Config Tag) (waited : Bool) (tabs : List (List (LogIndexLsn Tag)))
    (info : LogIndexLsn Tag) (after : Snapshot Tag) : Prop :=
  ∃ grown, AddTo info waited tabs grown ∧ SnapRep cfg grown after ∧ ActiveRep cfg grown after none

theorem insert_found (fits : Fits (front ++ [entries]) info) {freeHead head : Nat}
    (idEq : data.idxTableId = front.length + 1) (samePrefix : data.prefixLsn = prefixOf info.lsn)
    (positive : 0 < freeHead) (room : freeHead < memTblSegNum)
    (tableRep : TableRep (hashKey cfg) freeHead data entries) {newItem : Bool}
    (absent : newItem = true → ∀ entry ∈ entries, entry.tag ≠ info.tag)
    (present : newItem = false → head ≠ invalidSeg ∧
      logIndexMemTblExistsPage info.tag data (hashKey cfg info.tag) = head) :
    ∃ after, insertIntoFresh cfg (setSlot snap snap.activeTable ⟨freeHead + 1, .active, data⟩) info
        head freeHead newItem = .ok after ∧
      SnapRep cfg (front ++ [entries ++ [info]]) after ∧
      ActiveRep cfg (front ++ [entries ++ [info]]) after none ∧ after.adding = snap.adding := by
  have appendable := fits.appendable samePrefix
  rw [insert_into_fresh_eq cfg snap info _ head newItem positive room]
  have stored : TableRep (hashKey cfg) (freeHead + 1)
      (insertIntoSeg data (hashKey cfg info.tag) head freeHead newItem info)
      (entries ++ [info]) := by
    cases newItem with
    | true => exact table_rep_new_item tableRep appendable room (absent rfl) head
    | false => exact table_rep_new_seg tableRep appendable (present rfl).2 (present rfl).1 room
  have extended := rep.extend activeEq active
    (show (LogMemTable.mk (freeHead + 1) .active _).state = .active from rfl)
    ((insert_into_seg_id _ _ _ _ _ _).trans idEq) stored fits.latest
    (insertIntoSeg data (hashKey cfg info.tag) head freeHead newItem info).maxLsn
  exact ⟨_, rfl, extended.1, extended.2, rfl⟩

/-- How an add that did not fail ends its first part. -/
def InsertOutcome (cfg : Config Tag) (tabs : List (List (LogIndexLsn Tag)))
    (info : LogIndexLsn Tag) (after : Snapshot Tag) : AddResult Tag → Prop
  | .ignored => False
  | .inserted => Added cfg false tabs info after
  | .waiting pending => pending.info = info ∧ SnapRep cfg tabs after ∧
      ActiveRep cfg tabs after (some pending)

theorem switch_table : SnapRep cfg (front ++ [entries]) (setSlot snap snap.activeTable
        (setState (snap.memTable snap.activeTable) .inactive)) ∧
    ∀ slot < cfg.memTblSize, ((setSlot snap snap.activeTable
      (setState (snap.memTable snap.activeTable) .inactive)).memTable slot).state ≠ .active := by
  have bound : snap.activeTable < cfg.memTblSize := activeEq ▸ slot_of_lt cfg _
  constructor
  · refine { rep with memory := ?_ }
    exact rep.memory.mark_inactive bound active
  · intro slot inside
    by_cases same : slot = snap.activeTable
    · rw [same]
      simp [setSlot, setState]
    intro stillActive
    rw [set_slot_mem_table, update_of_ne same] at stillActive
    have other := rep.memory.slots slot inside
    unfold SlotRep at other
    rw [stillActive] at other
    have slotEq := other.2.1
    rw [length_append, length_singleton, ← activeEq] at slotEq
    exact same slotEq.symm

theorem insert_lsn_active (newIfEmpty : entries = [] → memTblIsNew (snap.memTable snap.activeTable))
    (fits : Fits (front ++ [entries]) info) :
    ∃ after res, logIndexInsertLsn cfg snap info = .ok (after, res) ∧
      InsertOutcome cfg (front ++ [entries]) info after res ∧
      after.adding = snap.adding := by
  rcases rep.active_table activeEq active with ⟨idEq, tableRep⟩
  have newer := fits.newer entries (by simp)
  have known (present) := @active_head_known _ cfg info _ (snap.memTable snap.activeTable) present
  generalize isHead : activeHead cfg (snap.memTable snap.activeTable) info = head at known
  by_cases room : head ≠ invalidSeg ∧ logIndexMemSegFull (snap.memTable snap.activeTable).data
    head = false
  · rcases known room.1 with ⟨samePrefix, headEq⟩
    have asserts : tailAsserts (snap.memTable snap.activeTable).data head info = true := by
      rcases tableRep with ⟨ghost, ghostRep⟩
      rw [← headEq]
      exact ghostRep.tail_asserts samePrefix newer (by rw [headEq]; exact room.1)
    have stored := table_rep_into_tail tableRep (fits.appendable samePrefix) headEq room.1 room.2
    have extended := rep.extend activeEq active (show ({ snap.memTable snap.activeTable with
        data := insertIntoTail (snap.memTable snap.activeTable).data head info } :
          LogMemTable Tag).state = .active
          from active) ((insert_into_tail_id _ _ _).trans idEq) stored fits.latest
      (insertIntoTail (snap.memTable snap.activeTable).data head info).maxLsn
    simp only [logIndexInsertLsn, isHead, if_pos room, if_pos asserts]
    exact ⟨_, _, rfl, ⟨_, .sameTable front entries, extended.1, extended.2⟩, rfl⟩
  simp only [logIndexInsertLsn, isHead, if_neg room]
  rcases next_free_seg_cases rfl active tableRep with
    ⟨data, found, dataId, samePrefix, positive, bound, dataRep, fresh⟩ | ⟨notNew, -, waits⟩
  · have absent : decide (head = invalidSeg) = true → ∀ entry ∈ entries, entry.tag ≠ info.tag := by
      intro noHead _ mem sameTag
      rcases fresh with empty | dataEq
      · rw [empty] at mem
        cases mem
      rw [dataEq] at samePrefix dataRep
      rcases dataRep with ⟨ghost, ghostRep⟩
      have headPos := (ghostRep.head_bounds mem).1
      rw [← ghostRep.exists_page mem, sameTag] at headPos
      rw [decide_eq_true_eq, ← isHead, activeHead, if_pos ⟨active, samePrefix⟩] at noHead
      exact absurd noHead (ne_of_gt headPos)
    have present : decide (head = invalidSeg) = false →
        head ≠ invalidSeg ∧ logIndexMemTblExistsPage info.tag data (hashKey cfg info.tag) =
        head := by
      intro someHead
      rw [decide_eq_false_iff_not] at someHead
      refine ⟨someHead, ?_⟩
      have known := (known someHead).2
      rcases fresh with empty | dataEq
      · rw [empty] at tableRep
        rcases tableRep with ⟨_, ghostRep⟩
        rw [ghostRep.missing_page nofun] at known
        exact absurd known.symm someHead
      · rw [dataEq]
        exact known
    rcases insert_found rep activeEq active fits (dataId.trans idEq) samePrefix positive
      bound dataRep absent present with ⟨after, done, afterRep, afterActive, adding⟩
    rw [found]
    dsimp only
    rw [done]
    exact ⟨after, .inserted, rfl, ⟨_, .sameTable front entries, afterRep, afterActive⟩, adding⟩
  · rw [waits]
    have filled : entries ≠ [] := fun empty => notNew (newIfEmpty empty)
    rcases switch_table rep activeEq active with ⟨afterRep, idle⟩
    refine ⟨_, _, rfl, ⟨rfl, afterRep, Bool.or_true _, .inr ?_⟩, rfl⟩
    have nextEq : nextSlot cfg snap.activeTable = slotOf cfg (front.length + 1 + 1) := by
      rw [activeEq]
      exact next_slot_of cfg (Nat.succ_pos _)
    refine ⟨rfl, by simp, by simpa using filled, by simpa [setSlot] using activeEq, ?_, idle⟩
    simpa using nextEq

end

theorem SlotRep.free_of_nil {saved slot : Nat}
    (rep : SlotRep cfg [] saved slot table) : table.state = .free := by
  by_contra used
  rcases rep.cases used with ⟨_, -, -, holds, -⟩
  exact absurd holds.le_length (Nat.not_le_of_gt holds.1)

theorem insert_lsn_spec (rep : SnapRep cfg tabs snap)
    (activeRep : ActiveRep cfg tabs snap none) (fits : Fits tabs info) :
    ∃ after res, logIndexInsertLsn cfg snap info = .ok (after, res) ∧
      InsertOutcome cfg tabs info after res ∧ after.adding = snap.adding := by
  rcases activeRep with ⟨empty, activeEq⟩ | ⟨nonempty, activeEq, active, isNew⟩
  · subst empty
    have isFree := (rep.memory.slots 0 (mem_tbl_size_pos cfg)).free_of_nil
    rw [← activeEq] at isFree
    have notActive : ¬(snap.memTable snap.activeTable).state = .active := by
      rw [isFree]
      decide
    have noHead : activeHead cfg (snap.memTable snap.activeTable) info = invalidSeg := by
      rw [activeHead, if_neg (fun both => notActive both.1)]
    simp only [logIndexInsertLsn, noHead, logIndexNextFreeSeg, if_neg notActive, ne_eq,
      not_true_eq_false, false_and, if_false]
    exact ⟨_, _, rfl, ⟨rfl, rep, rfl, .inl ⟨rfl, rfl, activeEq, activeEq⟩⟩, rfl⟩
  · rcases eq_nil_or_concat tabs with empty | ⟨front, entries, whole⟩
    · exact absurd empty nonempty
    rw [concat_eq_append] at whole
    subst whole
    rw [length_append, length_singleton] at activeEq isNew
    apply insert_lsn_active rep activeEq active _ fits
    intro empty
    apply isNew
    rw [empty]
    simp

end Insert

section Wait
variable {slot lsn : Nat}

/-- No table is active, and the next one will live in `slot`. -/
structure Switching (cfg : Config Tag) (tabs : List (List (LogIndexLsn Tag)))
    (snap : Snapshot Tag) (slot : Nat) : Prop where
  rep : SnapRep cfg tabs snap
  slotEq : slotOf cfg (tabs.length + 1) = slot
  idle : ∀ other < cfg.memTblSize, (snap.memTable other).state ≠ .active
  filled : tabs[tabs.length - 1]? ≠ some []

section
variable (switching : Switching cfg tabs snap slot)
include switching

theorem Switching.slot_lt : slot < cfg.memTblSize := switching.slotEq ▸ slot_of_lt cfg _

/-- The table in the awaited slot is the oldest unsaved one: the ring has no room for
another, so `log_index_force_save_table` never meets a table out of order. -/
theorem Switching.oldest (inactive : (snap.memTable slot).state = .inactive) :
    snap.indexMeta.maxIdxTableId < tabs.length ∧ slotOf cfg (snap.indexMeta.maxIdxTableId + 1) =
    slot := by
  have window := switching.rep.memory.window
  have own := switching.rep.memory.slots slot switching.slot_lt
  unfold SlotRep at own
  rw [inactive] at own
  rcases own with ⟨tid, _, slotEq, holds⟩
  have inside := holds.le_length
  have far : tid + cfg.memTblSize ≤ tabs.length + 1 := by
    by_contra near
    have same := slot_of_inj cfg holds.1 (by omega : tid ≤ tabs.length + 1) (by omega)
      (slotEq.trans switching.slotEq.symm)
    omega
  have oldest : tid = snap.indexMeta.maxIdxTableId + 1 := by omega
  rw [← oldest]
  exact ⟨by omega, slotEq⟩

theorem Switching.force_save (inactive : (snap.memTable slot).state = .inactive) :
    ∃ after, logIndexForceSaveTable cfg snap slot true = .ok after ∧
      Switching cfg tabs after slot ∧ (after.memTable slot).state = .flushed ∧
      after.activeTable = snap.activeTable ∧ after.adding = snap.adding := by
  rcases switching.oldest inactive with ⟨bound, slotEq⟩
  rcases write_table_inactive switching.rep rfl slotEq bound inactive with
    ⟨after, written, rep, memEq, activeEq, adding⟩
  refine ⟨after, ?_, ⟨rep, switching.slotEq, ?_, switching.filled⟩, ?_, activeEq, adding⟩
  · simp only [logIndexForceSaveTable, written, if_true]
  · intro other inside
    rw [memEq]
    rw [update_apply]
    split_ifs
    · simp [setState]
    · exact switching.idle other inside
  · rw [memEq, update_self]
    rfl

theorem Switching.clear (flushed : (snap.memTable slot).state = .flushed) :
    Switching cfg tabs (setSlot snap slot zeroMemTable) slot where
  rep := { switching.rep with memory := switching.rep.memory.clear flushed }
  slotEq := switching.slotEq
  idle := by
    intro other inside
    rw [set_slot_mem_table]
    rw [update_apply]
    split_ifs
    · simp [zeroMemTable]
    · exact switching.idle other inside
  filled := switching.filled

theorem Switching.open_table (isFree : (snap.memTable slot).state = .free) (lsn : Nat) :
    SnapRep cfg (tabs ++ [[]]) (memTblNewActive snap slot lsn) := by
  have own := switching.rep.memory.slots slot switching.slot_lt
  unfold SlotRep at own
  rw [isFree] at own
  have fresh : TableRep (hashKey cfg) 1 { (snap.memTable slot).data with
        idxTableId := snap.maxIdxTableId + 1, maxLsn := invalidLsn, minLsn := uint64Max,
        prefixLsn := prefixOf lsn } [] := by
    rw [own]
    exact table_rep_fresh _ _
  have savedLe := switching.rep.metaOk.savedLe
  have count := switching.rep.count
  have memory := switching.rep.memory.open_table switching.slotEq savedLe isFree switching.idle
    (show (LogMemTable.mk 1 .active _).state = .active from rfl) (congrArg (· + 1) count) fresh
  have grown := switching.rep.grow (tabs ++ [[]])
    (fun idx inside => List.getElem?_append_left (by omega)) memory
    (switching.rep.logOk.open_table switching.filled) (by simp; omega) snap.activeTable
    snap.maxLsn
  simpa only [memTblNewActive, setSlot, count, length_append, length_singleton] using grown

end

/-- The state a round of `log_index_wait_active` leaves when it opened the table. -/
structure Opened (cfg : Config Tag) (tabs : List (List (LogIndexLsn Tag)))
    (before after : Snapshot Tag) (slot lsn : Nat) : Prop where
  rep : SnapRep cfg (tabs ++ [[]]) after
  active : (after.memTable slot).state = .active
  room : (after.memTable slot).freeHead = 1
  samePrefix : (after.memTable slot).data.prefixLsn = prefixOf lsn
  activeTable : after.activeTable = before.activeTable
  adding : after.adding = before.adding

theorem Switching.opened (switching : Switching cfg tabs snap slot)
    (isFree : (snap.memTable slot).state = .free) (lsn : Nat) :
    Opened cfg tabs snap (memTblNewActive snap slot lsn) slot lsn := by
  have rep := switching.open_table isFree lsn
  constructor
  · exact rep
  all_goals simp [memTblNewActive]
  all_goals rfl

theorem Opened.done {before after : Snapshot Tag} (opened : Opened cfg tabs before after slot lsn) :
    (decide ((after.memTable slot).state = .active) && !decide (memTblFull (after.memTable slot))) =
      true := by
  have notFull : ¬memTblFull (after.memTable slot) := by
    rw [memTblFull, opened.room]
    decide
  simp [opened.active, notFull]

section
variable (switching : Switching cfg tabs snap slot)
  (notInactive : (snap.memTable slot).state ≠ .inactive) (lsn : Nat)
include switching notInactive

theorem Switching.reopened : Opened cfg tabs snap (reopenSlot snap slot lsn) slot lsn := by
  unfold reopenSlot
  cases st : (snap.memTable slot).state with
  | free =>
    simp only [reduceCtorEq, if_false, st, if_true]
    exact switching.opened st lsn
  | active => exact absurd st (switching.idle slot switching.slot_lt)
  | inactive => exact absurd st notInactive
  | flushed =>
    have isFree : ((setSlot snap slot zeroMemTable).memTable slot).state = .free := by
      rw [set_slot_mem_table, update_self]
      rfl
    have opened := (switching.clear st).opened isFree lsn
    simp only [if_true, isFree]
    exact { opened with }

theorem Switching.wait_active_settled (flushable : Bool) :
      logIndexWaitActive cfg snap slot lsn flushable = .ok (reopenSlot snap slot lsn, true) := by
  have opened := switching.reopened notInactive lsn
  simp only [logIndexWaitActive, if_neg notInactive, Bind.bind, Except.bind, opened.done]

end

theorem Switching.wait_active (switching : Switching cfg tabs snap slot) (lsn : Nat)
    (flushable : Bool) :
    (flushable = false ∧ logIndexWaitActive cfg snap slot lsn flushable = .ok (snap, false)) ∨
    ∃ after, logIndexWaitActive cfg snap slot lsn flushable = .ok (after, true) ∧
      Opened cfg tabs snap after slot lsn := by
  by_cases inactive : (snap.memTable slot).state = .inactive
  · cases flushable with
    | false =>
      left
      refine ⟨rfl, ?_⟩
      simp [logIndexWaitActive, logIndexForceSaveTable, reopenSlot, inactive, Bind.bind,
        Except.bind]
    | true =>
      right
      rcases switching.force_save inactive with ⟨saved, done, again, flushed, activeEq, adding⟩
      have opened := again.reopened (by rw [flushed]; decide) lsn
      refine ⟨reopenSlot saved slot lsn, ?_, opened.rep, opened.active, opened.room,
        opened.samePrefix, opened.activeTable.trans activeEq, opened.adding.trans adding⟩
      simp only [logIndexWaitActive, if_pos inactive, done, Bind.bind, Except.bind, opened.done]
  · right
    exact ⟨_, switching.wait_active_settled inactive lsn flushable, switching.reopened inactive lsn⟩

theorem SnapRep.set_active (rep : SnapRep cfg tabs snap) (activeTable : Nat) :
    SnapRep cfg tabs { snap with activeTable := activeTable } :=
  { rep with }

variable {pending : PendingAdd Tag}

theorem ActiveRep.switching (rep : SnapRep cfg tabs snap)
    (activeRep : ActiveRep cfg tabs snap (some pending)) :
    Switching cfg tabs snap pending.slot ∧
    (pending.switching = false → snap.activeTable = pending.slot) := by
  rcases activeRep with ⟨-, ⟨noSwitch, empty, activeEq, slotEq⟩ |
    ⟨isSwitch, nonempty, filled, activeEq, slotEq, idle⟩⟩
  · subst empty
    have idle : ∀ other < cfg.memTblSize, (snap.memTable other).state ≠ .active := by
      intro other inside
      rw [(rep.memory.slots other inside).free_of_nil]
      decide
    refine ⟨⟨rep, ?_, idle, by simp⟩, fun _ => activeEq.trans slotEq.symm⟩
    rw [slotEq, length_nil, slot_of_succ, Nat.zero_mod]
  · refine ⟨⟨rep, slotEq.symm, idle, filled⟩, ?_⟩
    intro noSwitch
    rw [isSwitch] at noSwitch
    cases noSwitch

theorem Opened.insert {waited : Snapshot Tag}
    (opened : Opened cfg tabs snap waited pending.slot pending.info.lsn)
    (slotEq : slotOf cfg (tabs.length + 1) = pending.slot) (newItem : pending.newItem = true)
    (sameSlot : pending.switching = false → snap.activeTable = pending.slot)
    (fits : Fits tabs pending.info) :
    ∃ after, insertAfterWait cfg waited pending = .ok (after, .inserted) ∧
      after.adding = snap.adding ∧ Added cfg true tabs pending.info after := by
  have switched : (if pending.switching then { waited with activeTable := pending.slot }
      else waited) = { waited with activeTable := pending.slot } := by
    cases isSwitch : pending.switching with
    | true => rfl
    | false =>
      have same := opened.activeTable.trans (sameSlot isSwitch)
      rw [← same]
      rfl
  have ready := opened.rep.set_active pending.slot
  have active : (({ waited with activeTable := pending.slot } : Snapshot Tag).memTable
      pending.slot).state = .active := opened.active
  have fitsFresh : Fits (tabs ++ [[]]) pending.info :=
    ⟨fits.prev, fits.bounded, by simpa using fits.latest, by simp⟩
  rcases ready.active_table slotEq.symm active with ⟨idEq, tableRep⟩
  rcases next_free_seg_cases rfl active tableRep with
    ⟨data, found, dataId, samePrefix, positive, bound, dataRep, -⟩ | ⟨-, switch, -⟩
  · rcases insert_found ready slotEq.symm active fitsFresh (dataId.trans idEq) samePrefix
      positive bound dataRep (fun (_ : true = true) => nofun)
      nofun with ⟨after, inserted, afterRep, afterActive, adding⟩
    refine ⟨after, ?_, adding.trans opened.adding, _, .newTable true tabs, afterRep, afterActive⟩
    simp only [insertAfterWait, switched, found, newItem, Bind.bind, Except.bind]
    rw [inserted]
  · exfalso
    rcases switch with full | other
    · rw [memTblFull] at full
      exact absurd (opened.room.symm.trans full) (by decide)
    · exact other opened.samePrefix

/-- A waiting insert either keeps waiting or ends in a table of its own. -/
theorem resume_insert_spec (rep : SnapRep cfg tabs snap)
    (activeRep : ActiveRep cfg tabs snap (some pending)) (fits : Fits tabs pending.info)
    (flushable : Bool) :
    ∃ after res, resumeInsertLsn cfg snap pending flushable = .ok (after, res) ∧
      after.adding = snap.adding ∧ ((flushable = false ∧ after = snap ∧ res = .waiting pending) ∨
        (res = .inserted ∧ Added cfg true tabs pending.info after)) := by
  rw [resume_insert_eq]
  rcases ActiveRep.switching rep activeRep with ⟨switching, sameSlot⟩
  rcases switching.wait_active pending.info.lsn flushable with
    ⟨notFlushable, waits⟩ | ⟨waited, done, opened⟩
  · rw [waits]
    exact ⟨snap, .waiting pending, rfl, rfl, .inl ⟨notFlushable, rfl, rfl⟩⟩
  · rw [done]
    rcases opened.insert switching.slotEq activeRep.1 sameSlot fits with
      ⟨after, inserted, adding, added⟩
    exact ⟨after, .inserted, inserted, adding, .inr ⟨rfl, added⟩⟩

theorem ActiveRep.resumes (activeRep : ActiveRep cfg tabs snap (some pending))
    (rep : SnapRep cfg tabs snap) (fits : Fits tabs pending.info) :
    ∃ after, resumeInsertLsn cfg snap pending true = .ok (after, .inserted) := by
  rcases resume_insert_spec rep activeRep fits true with
    ⟨after, res, call, -, ⟨impossible, -⟩ | ⟨inserted, -⟩⟩
  · cases impossible
  · rw [inserted] at call
    exact ⟨after, call⟩

end Wait

section Beside

variable {pending : Option (PendingAdd Tag)}

theorem write_table_spec {slot : Nat} (rep : SnapRep cfg tabs snap) (inside : slot < cfg.memTblSize)
    (used : (snap.memTable slot).state = .inactive ∨ (snap.memTable slot).state = .active) :
    SnapRep cfg tabs (logIndexWriteTable cfg snap slot).1 ∧
    KeepsActive snap (logIndexWriteTable cfg snap slot).1 := by
  by_cases next : (snap.memTable slot).data.idxTableId = snap.indexMeta.maxIdxTableId + 1
  · have notFree : (snap.memTable slot).state ≠ .free := by
      rcases used with st | st <;> rw [st] <;> decide
    rcases (rep.memory.slots slot inside).cases notFree with ⟨_, tidEq, slotEq, holds, -⟩
    have bound := holds.le_length
    rw [← tidEq, next] at slotEq bound
    rcases used with inactive | active
    · rcases write_table_inactive rep rfl slotEq bound inactive with
        ⟨after, written, afterRep, memEq, activeEq, adding⟩
      rw [written]
      exact ⟨afterRep,
        keeps_active_update memEq (by rw [inactive]; decide) (by simp [setState]) activeEq adding⟩
    · rcases write_table_active rep rfl slotEq bound active with ⟨_, written, afterRep⟩
      rw [written]
      exact ⟨afterRep, rfl, rfl, fun _ _ => rfl, fun _ active => active⟩
  · rw [logIndexWriteTable, if_neg next]
    exact ⟨rep, .refl⟩

theorem flush_locked_spec {slot : Nat} (rep : SnapRep cfg tabs snap)
    (inside : slot < cfg.memTblSize) (flushActive flushable : Bool) :
    SnapRep cfg tabs (flushLocked cfg snap slot flushActive flushable) ∧
      KeepsActive snap (flushLocked cfg snap slot flushActive flushable) := by
  unfold flushLocked
  dsimp only
  split
  · rename_i wanted
    rcases write_table_spec rep inside wanted.2.1 with ⟨afterRep, keeps⟩
    rcases written : logIndexWriteTable cfg snap slot with ⟨_, flag⟩
    rw [written] at afterRep keeps
    cases flag with
    | false => exact ⟨afterRep, keeps⟩
    | true =>
      cases flushActive with
      | false => exact ⟨afterRep, keeps⟩
      | true =>
        exact ⟨{ afterRep with }, keeps.activeTable, keeps.adding, keeps.kept, keeps.noNew⟩
  · exact ⟨rep, .refl⟩

theorem flush_table_spec (rep : SnapRep cfg tabs snap) (flushActive flushable : Bool) :
    SnapRep cfg tabs (logIndexFlushTable cfg snap flushActive flushable) ∧
      KeepsActive snap (logIndexFlushTable cfg snap flushActive flushable) := by
  rcases flush_table_eq cfg snap flushActive flushable with same | same <;> rw [same]
  · exact ⟨rep, .refl⟩
  · exact flush_locked_spec rep (Nat.mod_lt _ (mem_tbl_size_pos cfg)) flushActive flushable

section Read
variable {tid pid : Nat}

variable (rep : SnapRep cfg tabs snap) (positive : 0 < tid)
  (below : tid ≤ snap.indexMeta.maxIdxTableId)
include rep positive below

/-- The tables of a segment file that the meta covers form a valid cache. -/
theorem read_seg_file_spec : ∃ cache, logIndexReadSegFile snap (segmentNo tid) = some cache ∧
      CacheRep cfg tabs snap.indexMeta.maxIdxTableId cache ∧
      cache.minIdxTableId ≤ tid ∧ tid ≤ cache.maxIdxTableId := by
  rcases rep.store.files tid positive below with ⟨data, inFile, holds⟩
  have here := segment_position positive
  have ids := rep.store.ids (segmentNo tid)
  have covered : data.idxTableId ≤ snap.indexMeta.maxIdxTableId := by
    rw [holds.2.1]
    exact below
  rcases covered_last (fun pos table found => (ids pos table found).1) inFile covered with
    ⟨last, lastIn, lastEq, tidLe, lastLe⟩
  rw [holds.2.1] at tidLe
  rcases mem_iff_getElem?.mp lastIn with ⟨lastOffset, lastAt⟩
  have lastId := ids lastOffset last lastAt
  have valid : ∀ other, segmentNo tid * tableNumPerFile + 1 ≤ other → other ≤ last.idxTableId →
      ∃ table, (snap.storage.segFile (segmentNo tid))[other -
        (segmentNo tid * tableNumPerFile + 1)]? = some table ∧ Holds cfg tabs other table := by
    intro other _ high
    have otherPos : 0 < other := by omega
    have there := segment_position otherPos
    have offsetLt : segmentOffset other < tableNumPerFile := Nat.mod_lt _ (by decide)
    rcases rep.store.files other otherPos (high.trans lastLe) with ⟨table, found, otherHolds⟩
    simp only [tableNumPerFile] at *
    have sameFile : segmentNo other = segmentNo tid := by omega
    rw [sameFile] at found there
    have offsetEq : other - (segmentNo tid * 64 + 1) = segmentOffset other := by omega
    rw [offsetEq]
    exact ⟨table, found, otherHolds⟩
  have fileShape : ∃ first rest, snap.storage.segFile (segmentNo tid) = first :: rest := by
    cases file : snap.storage.segFile (segmentNo tid) with
    | nil =>
      rw [file] at inFile
      simp at inFile
    | cons first rest => exact ⟨first, rest, rfl⟩
  rcases fileShape with ⟨first, _, fileEq⟩
  have firstId := (ids 0 first (by rw [fileEq]; rfl)).1
  have usable : ¬(first.idxTableId ≠ segmentNo tid * tableNumPerFile + 1 ∨
      snap.indexMeta.maxIdxTableId < segmentNo tid * tableNumPerFile + 1) := by
    omega
  refine ⟨⟨segmentNo tid * tableNumPerFile + 1, last.idxTableId,
    snap.storage.segFile (segmentNo tid)⟩, ?_, ⟨Nat.succ_pos _, lastLe, valid⟩, ?_, tidLe⟩
  · simp only [logIndexReadSegFile]
    rw [fileEq] at lastEq ⊢
    dsimp only
    rw [if_neg usable, lastEq]
    rfl
  · dsimp only
    omega

theorem cache_segment_spec (pid : Nat) : ∃ cache, cacheSegment snap pid tid =
        .ok { snap with tableCache := update snap.tableCache pid (some cache) } ∧
      CacheRep cfg tabs snap.indexMeta.maxIdxTableId cache ∧
      cache.minIdxTableId ≤ tid ∧ tid ≤ cache.maxIdxTableId := by
  by_cases covers : cacheCovers (snap.tableCache pid) tid
  · cases cached : snap.tableCache pid with
    | none =>
      rw [cached] at covers
      exact absurd covers (by simp [cacheCovers])
    | some cache =>
      have bounds : cache.minIdxTableId ≤ tid ∧ tid ≤ cache.maxIdxTableId := by
        rw [cached] at covers
        simpa [cacheCovers] using covers
      refine ⟨cache, ?_, rep.caches pid cache cached, bounds⟩
      rw [cacheSegment, if_pos covers, ← cached, update_eq_self]
  · rcases read_seg_file_spec rep positive below with ⟨cache, read, cacheRep, bounds⟩
    refine ⟨cache, ?_, cacheRep, bounds⟩
    rw [cacheSegment, if_neg covers, read]

/-- `log_index_read_table` delivers every saved table and may only replace the content
of a flushed slot or of the process's own cache. -/
theorem read_table_spec (pid : Nat) : ∃ after data fromMemory,
      logIndexReadTable cfg snap pid tid = .ok (after, data, fromMemory) ∧
      SnapRep cfg tabs after ∧ KeepsActive snap after ∧ Holds cfg tabs tid data ∧
      after.indexMeta = snap.indexMeta := by
  by_cases inMemory : (snap.memTable (slotOf cfg tid)).state = .flushed ∧
      (snap.memTable (slotOf cfg tid)).data.idxTableId = tid
  · have slotRep := rep.memory.slots _ (slot_of_lt cfg tid)
    rcases slotRep.cases (by rw [inMemory.1]; decide) with ⟨other, otherEq, -, holds, -⟩
    have same : other = tid := otherEq.symm.trans inMemory.2
    rw [same] at holds
    refine ⟨snap, _, true, ?_, rep, .refl, holds, rfl⟩
    simp only [logIndexReadTable, if_pos inMemory]
  rcases cache_segment_spec rep positive below pid with ⟨cache, cached, cacheRep, low, high⟩
  rcases cacheRep.2.2 tid low high with ⟨data, found, holds⟩
  have getData : cache.data.getD (tid - cache.minIdxTableId) zeroTableData = data := by
    rw [getD_eq_getElem?_getD, found, Option.getD_some]
  have covered : ¬(tid < cache.minIdxTableId ∨ cache.maxIdxTableId < tid) := by omega
  have caches : ∀ other entry, update snap.tableCache pid (some cache) other = some entry →
      CacheRep cfg tabs snap.indexMeta.maxIdxTableId entry := by
    intro other entry isEntry
    rw [update_apply] at isEntry
    split_ifs at isEntry
    · rw [← Option.some.inj isEntry]
      exact cacheRep
    · exact rep.caches other entry isEntry
  by_cases flushed : (snap.memTable (slotOf cfg tid)).state = .flushed
  · refine ⟨setSlot { snap with
          tableCache := update snap.tableCache pid (some cache) } (slotOf cfg tid)
        { snap.memTable (slotOf cfg tid) with data := data }, data, false, ?_, ?_, ?_, holds, rfl⟩
    · simp only [logIndexReadTable, if_neg inMemory, cached, Bind.bind, Except.bind,
        update_self, if_neg covered, getData, if_pos flushed]
    · exact { rep with memory := rep.memory.replace flushed below rfl holds, caches := caches }
    · exact keeps_active_update rfl (by rw [flushed]; decide) (by rw [flushed]; decide) rfl rfl
  · refine ⟨{ snap with tableCache := update snap.tableCache pid (some cache) },
      data, false, ?_, ?_, ⟨rfl, rfl, fun _ _ => rfl, fun _ active => active⟩, holds, rfl⟩
    · simp only [logIndexReadTable, if_neg inMemory, cached, Bind.bind, Except.bind,
        update_self, if_neg covered, getData, if_neg flushed]
    · exact { rep with caches := caches }

end Read

end Beside

section Run

/-- A snapshot, the add that waits if there is one, and the pairs whose add returned. -/
structure RunState (Tag : Type) where
  snap : Snapshot Tag
  pending : Option (PendingAdd Tag)
  log : List (LogIndexLsn Tag)

def RunState.start : RunState Tag := ⟨emptySnapshot, none, []⟩

/-- The order in which replay adds pairs: lsns never decrease and increase on a page. -/
structure InOrder (log : List (LogIndexLsn Tag)) (info : LogIndexLsn Tag) : Prop where
  prev : info.prevLsn < info.lsn
  bounded : info.lsn < uint64Max
  latest : ∀ entry ∈ log, entry.lsn ≤ info.lsn
  newer : ∀ entry ∈ log, entry.tag = info.tag → entry.lsn < info.lsn

/-- The state after an add of `info` got as far as `res`. -/
def RunState.advance (st : RunState Tag) (info : LogIndexLsn Tag) (after : Snapshot Tag) :
    AddResult Tag → RunState Tag
  | .ignored => ⟨after, none, st.log ++ [info]⟩
  | .inserted => ⟨after, none, st.log ++ [info]⟩
  | .waiting pending => ⟨after, some pending, st.log⟩

/-- One process adds; flushes and table reads of any process happen in between. -/
inductive Step (cfg : Config Tag) : RunState Tag → RunState Tag → Prop where
  | add (st : RunState Tag) (info : LogIndexLsn Tag) (after : Snapshot Tag)
      (res : AddResult Tag) (idle : st.pending = none) (inOrder : InOrder st.log info)
      (call : polarLogindexAddLsn cfg st.snap info = .ok (after, res)) :
      Step cfg st (st.advance info after res)
  | resume (st : RunState Tag) (pending : PendingAdd Tag) (flushable : Bool)
      (after : Snapshot Tag) (res : AddResult Tag) (waits : st.pending = some pending)
      (call : resumeInsertLsn cfg st.snap pending flushable = .ok (after, res)) :
      Step cfg st (st.advance pending.info after res)
  | flush (st : RunState Tag) (flushActive flushable : Bool) : Step cfg st
        { st with snap := logIndexFlushTable cfg st.snap flushActive flushable }
  | read (st : RunState Tag) (pid tid : Nat) (after : Snapshot Tag) (data : LogIdxTableData Tag)
      (fromMemory : Bool) (positive : 0 < tid) (saved : tid ≤ st.snap.indexMeta.maxIdxTableId)
      (call : logIndexReadTable cfg st.snap pid tid = .ok (after, data, fromMemory)) :
      Step cfg st { st with snap := after }
  /-- Bloom pages are read into the buffer and leave it. -/
  | buffer (st : RunState Tag) (held : Nat → Option BloomPage)
      (read : ∀ pageno page, held pageno = some page → page = st.snap.storage.bloomPage pageno) :
      Step cfg st { st with snap :=
        { st.snap with storage := { st.snap.storage with bloomBuffer := held } } }

def Run (cfg : Config Tag) : RunState Tag → RunState Tag → Prop := Relation.ReflTransGen (Step cfg)

structure RunRep (cfg : Config Tag) (tabs : List (List (LogIndexLsn Tag))) (st : RunState Tag) :
    Prop where
  rep : SnapRep cfg tabs st.snap
  activeRep : ActiveRep cfg tabs st.snap st.pending
  content : tabs.flatten = st.log
  ordered : Admitted InOrder st.log
  waiting : ∀ pending, st.pending = some pending → InOrder st.log pending.info
  unused : st.snap.adding = false → st.log = [] ∧ st.pending = none

omit [DecidableEq Tag] in
theorem InOrder.fits (inOrder : InOrder tabs.flatten info) : Fits tabs info where
  prev := inOrder.prev
  bounded := inOrder.bounded
  latest := inOrder.latest
  newer := by
    intro newest found entry mem
    exact inOrder.newer entry (mem_flatten.mpr ⟨newest, mem_of_getElem? found, mem⟩)

/-- `polar_logindex_add_lsn` on a snapshot without restart: nothing is skipped. -/
theorem add_lsn_spec (rep : SnapRep cfg tabs snap) (activeRep : ActiveRep cfg tabs snap none)
    (fits : Fits tabs info) (unused : snap.adding = false → tabs.flatten = []) :
    ∃ after res, polarLogindexAddLsn cfg snap info = .ok (after, res) ∧
      InsertOutcome cfg tabs info after res ∧ after.adding = true := by
  have prev := fits.prev
  by_cases adding : snap.adding = true
  · rcases insert_lsn_spec rep activeRep fits with ⟨after, res, call, outcome, kept⟩
    refine ⟨after, res, ?_, outcome, kept.trans adding⟩
    simp only [polarLogindexAddLsn, not_true_eq_false, if_false, adding, if_true, prev, call]
  have noTabs := unused (Bool.not_eq_true _ ▸ adding)
  have noLsn : snap.indexMeta.maxLsn = 0 := by
    rw [rep.metaOk.maxLsn]
    have empty : (tabs.take snap.indexMeta.maxIdxTableId).flatten = [] := by
      rw [flatten_eq_nil_iff] at noTabs ⊢
      exact fun table mem => noTabs table (mem_of_mem_take mem)
    rw [empty]
    rfl
  have noStart : snap.indexMeta.startLsn = 0 := rep.metaOk.startLsn.trans noLsn
  have first : ¬(0 = info.lsn ∧ logIndexExistsInSavedTable cfg snap info = true) := by
    intro _
    omega
  have started : SnapRep cfg tabs { snap with adding := true } := { rep with }
  have startedActive : ActiveRep cfg tabs { snap with adding := true } none := activeRep
  rcases insert_lsn_spec started startedActive fits with ⟨after, res, call, outcome, kept⟩
  refine ⟨after, res, ?_, outcome, kept⟩
  simp only [polarLogindexAddLsn, not_true_eq_false, if_false, adding, prev, noStart, noLsn,
    Nat.not_lt_zero, if_neg first, call, Bool.false_eq_true]

theorem snap_rep_empty (cfg : Config Tag) : SnapRep cfg [] emptySnapshot where
  count := rfl
  memory :=
    { slots := fun _ _ => rfl
      unsaved := fun _ above bound => absurd (above.trans_le bound) (Nat.not_lt_zero _)
      freeLe := fun _ => Nat.zero_le _ }
  store :=
    { files := fun _ positive bound => absurd (positive.trans_le bound) (Nat.not_lt_zero _)
      blooms := fun _ positive bound => absurd (positive.trans_le bound) (Nat.not_lt_zero _)
      buffer := fun _ _ held => by cases held
      ids := fun _ _ _ found => by simp [emptySnapshot, emptyStorage] at found }
  caches := fun _ _ cached => by cases cached
  metaOk := ⟨Nat.zero_le _, rfl, rfl, rfl, rfl⟩
  metaFile := rfl
  logOk := ⟨List.Pairwise.nil, fun _ _ found => by simp at found⟩

theorem run_rep_start (cfg : Config Tag) : RunRep cfg [] .start where
  rep := snap_rep_empty cfg
  activeRep := .inl ⟨rfl, rfl⟩
  content := rfl
  ordered := admitted_nil
  waiting := fun _ waits => by cases waits
  unused := fun _ => ⟨rfl, rfl⟩

/-- What a step does to the tables and to the flag that an add waits. -/
inductive TabStep : Bool → List (List (LogIndexLsn Tag)) → Bool → List (List (LogIndexLsn Tag)) →
    Prop where
  | keep (waiting later : Bool) (tabs : List (List (LogIndexLsn Tag)))
      (kept : waiting = true → later = true) : TabStep waiting tabs later tabs
  | added (info : LogIndexLsn Tag) (waiting : Bool) (tabs grown : List (List (LogIndexLsn Tag)))
      (addTo : AddTo info waiting tabs grown) : TabStep waiting tabs false grown

variable {st : RunState Tag} {log : List (LogIndexLsn Tag)}

theorem RunRep.beside {after : Snapshot Tag} (run : RunRep cfg tabs st)
    (rep : SnapRep cfg tabs after) (keeps : KeepsActive st.snap after) :
    RunRep cfg tabs { st with snap := after } :=
  { run with
    rep := rep
    activeRep := keeps.active_rep run.activeRep
    unused := fun notAdding => run.unused (keeps.adding.symm.trans notAdding) }

theorem RunRep.added {after : Snapshot Tag} (run : RunRep cfg tabs st)
    (inOrder : InOrder st.log info) {waited : Bool} (added : Added cfg waited tabs info after)
    (adding : after.adding = true) :
    ∃ grown, TabStep waited tabs false grown ∧
      RunRep cfg grown ⟨after, none, st.log ++ [info]⟩ := by
  rcases added with ⟨grown, addTo, rep, activeRep⟩
  refine ⟨grown, .added info waited tabs grown addTo, rep, activeRep, ?_, ?_, ?_, ?_⟩
  · rw [addTo.flatten, run.content]
  · exact admitted_snoc.mpr ⟨run.ordered, inOrder⟩
  · exact nofun
  · intro notAdding
    rw [adding] at notAdding
    cases notAdding

theorem RunRep.step {st next : RunState Tag} (run : RunRep cfg tabs st) (step : Step cfg st next) :
    ∃ grown, TabStep st.pending.isSome tabs next.pending.isSome grown ∧ RunRep cfg grown next := by
  cases step with
  | add info after res idle inOrder call =>
    have activeRep := run.activeRep
    rw [idle] at activeRep ⊢
    have fits : Fits tabs info := InOrder.fits (run.content ▸ inOrder)
    rcases add_lsn_spec run.rep activeRep fits
      (fun unused => run.content.trans (run.unused unused).1)
      with ⟨other, outcome, otherCall, spec, adding⟩
    cases call.symm.trans otherCall
    cases res with
    | ignored => exact absurd spec id
    | inserted => exact run.added inOrder spec adding
    | waiting pending =>
      rcases spec with ⟨infoEq, rep, waitRep⟩
      refine ⟨tabs, .keep _ _ _ (fun _ => rfl), rep, waitRep, run.content, run.ordered, ?_, ?_⟩
      · intro other isOther
        cases isOther
        rw [infoEq]
        exact inOrder
      · intro notAdding
        dsimp only [RunState.advance] at notAdding
        rw [adding] at notAdding
        cases notAdding
  | resume pending flushable after _ waits call =>
    have activeRep := run.activeRep
    rw [waits] at activeRep ⊢
    have fits : Fits tabs pending.info := InOrder.fits (run.content ▸ run.waiting pending waits)
    rcases resume_insert_spec run.rep activeRep fits flushable with
      ⟨other, outcome, otherCall, adding, spec⟩
    cases call.symm.trans otherCall
    have wasAdding : st.snap.adding = true := by
      by_contra notAdding
      have none := (run.unused (Bool.not_eq_true _ ▸ notAdding)).2
      rw [waits] at none
      cases none
    rcases spec with ⟨-, sameSnap, isWaiting⟩ | ⟨isInserted, added⟩
    · subst sameSnap isWaiting
      refine ⟨tabs, .keep _ _ _ (fun _ => rfl), ?_⟩
      have same : st.advance pending.info st.snap (.waiting pending) = st := by
        rw [RunState.advance, ← waits]
      rw [same]
      exact run
    · subst isInserted
      exact run.added (run.waiting pending waits) added (adding.trans wasAdding)
  | flush flushActive flushable =>
    rcases flush_table_spec run.rep flushActive flushable with ⟨rep, keeps⟩
    exact ⟨tabs, .keep _ _ _ id, run.beside rep keeps⟩
  | read pid _ _ _ _ positive saved call =>
    rcases read_table_spec run.rep positive saved pid with
      ⟨other, otherData, flag, otherCall, rep, keeps, -⟩
    cases call.symm.trans otherCall
    exact ⟨tabs, .keep _ _ _ id, run.beside rep keeps⟩
  | buffer held read =>
    have rep := run.rep
    exact ⟨tabs, .keep _ _ _ id,
      { run with rep := { rep with store := { rep.store with buffer := read } } }⟩

/-- An add in WAL order is never refused and, once the awaited slot may be flushed,
ends with its pair in the log. -/
theorem add_completes (run : RunRep cfg tabs st) (idle : st.pending = none)
    (inOrder : InOrder st.log info) : ∃ next, Run cfg st next ∧ next.pending = none ∧
    next.log = st.log ++ [info] := by
  have activeRep := run.activeRep
  rw [idle] at activeRep
  have fits : Fits tabs info := InOrder.fits (run.content ▸ inOrder)
  rcases add_lsn_spec run.rep activeRep fits (fun unused => run.content.trans (run.unused unused).1)
    with ⟨after, res, call, outcome, -⟩
  have added := Step.add st info after res idle inOrder call
  cases res with
  | ignored => exact absurd outcome id
  | inserted => exact ⟨_, Relation.ReflTransGen.single added, rfl, rfl⟩
  | waiting pending =>
    rcases outcome with ⟨infoEq, rep, waitRep⟩
    rcases waitRep.resumes rep (infoEq ▸ fits) with ⟨resumed, again⟩
    have resume := Step.resume (st.advance info after (.waiting pending)) pending true resumed
      .inserted rfl again
    refine ⟨_, Relation.ReflTransGen.tail (Relation.ReflTransGen.single added) resume, rfl, ?_⟩
    simp only [RunState.advance, infoEq]

theorem lsns_of_increasing (ordered : Admitted InOrder log) (tag : Tag) :
    (lsnsOf tag log).Pairwise (· < ·) := by
  induction log using List.reverseRecOn with
  | nil => exact List.Pairwise.nil
  | append_singleton front last ih =>
    rcases admitted_snoc.mp ordered with ⟨early, inOrder⟩
    by_cases same : last.tag = tag
    · subst same
      rw [lsns_of_append_same]
      refine pairwise_snoc.mpr ⟨ih early, fun _ mem => ?_⟩
      rcases mem_lsns_of.mp mem with ⟨entry, entryIn, sameTag, rfl⟩
      exact inOrder.newer entry entryIn sameTag
    · rw [lsns_of_append_other front same]
      exact ih early

omit [DecidableEq Tag] in
theorem lsn_bounded (ordered : Admitted InOrder log)
    {entry : LogIndexLsn Tag} (mem : entry ∈ log) : 0 < entry.lsn ∧ entry.lsn < uint64Max := by
  rcases append_of_mem mem with ⟨before, after, split⟩
  have inOrder := ordered before entry after split
  exact ⟨(Nat.zero_le _).trans_lt inOrder.prev, inOrder.bounded⟩

omit [DecidableEq Tag] in
theorem TabStep.filled {waiting later : Bool} {tabs grown : List (List (LogIndexLsn Tag))}
    (step : TabStep waiting tabs later grown) (filled : [] ∉ tabs) : [] ∉ grown := by
  cases step with
  | keep => exact filled
  | added _ _ _ _ addTo =>
    cases addTo with
    | sameTable =>
      apply not_mem_append
      · exact fun old => filled (mem_append_left _ old)
      · simp
    | newTable =>
      apply not_mem_append filled
      simp

/-- Every state that a run from an empty snapshot reaches is represented, without an
empty table. -/
theorem run_rep_of_run {cfg : Config Tag} (run : Run cfg .start st) : ∃ tabs, RunRep cfg tabs st ∧
    [] ∉ tabs := by
  induction run with
  | refl => exact ⟨[], run_rep_start cfg, not_mem_nil⟩
  | tail _ step reached =>
    rcases reached with ⟨_, run, filled⟩
    rcases run.step step with ⟨grown, tabStep, next⟩
    exact ⟨grown, next, tabStep.filled filled⟩

theorem run_exists (cfg : Config Tag) (ordered : Admitted InOrder log) :
    ∃ st, Run cfg .start st ∧ st.pending = none ∧ st.log = log := by
  induction log using List.reverseRecOn with
  | nil => exact ⟨.start, Relation.ReflTransGen.refl, rfl, rfl⟩
  | append_singleton _ _ ih =>
    rcases admitted_snoc.mp ordered with ⟨early, inOrder⟩
    rcases ih early with ⟨st, run, idle, logEq⟩
    rcases run_rep_of_run run with ⟨_, runRep, -⟩
    rcases add_completes runRep idle (logEq.symm ▸ inOrder) with ⟨next, more, nextIdle, nextLog⟩
    refine ⟨next, run.trans more, nextIdle, ?_⟩
    rw [nextLog, logEq]

end Run

end PolarDB.LogIndex
