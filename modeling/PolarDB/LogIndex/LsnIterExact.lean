import PolarDB.LogIndex.LsnIter
import PolarDB.LogIndex.PageIterExact

/-!
# The lsn iterator returns exactly the pairs from its start on

A position of the iterator splits the log: what lies before it was returned as far as
it was wanted, and everything from it on is wanted. `Located` is this invariant, kept
by `next` and by every step that runs between two calls.
-/

namespace PolarDB.LogIndex

open Option List Lib.History

section Position
variable {Tag : Type} {tabs : List (List (LogIndexLsn Tag))} {tid idx start : Nat}

/-- What a caller of `next` sees of an entry. -/
def pairOf (entry : LogIndexLsn Tag) : Tag × Nat := (entry.tag, entry.lsn)

def wanted (start : Nat) (log : List (LogIndexLsn Tag)) : List (Tag × Nat) :=
  (log.filter fun entry => decide (start ≤ entry.lsn)).map pairOf

def entriesAt (tabs : List (List (LogIndexLsn Tag))) (tid : Nat) : List (LogIndexLsn Tag) :=
  (tabs[tid - 1]?).getD []

def beforeAt (tabs : List (List (LogIndexLsn Tag))) (tid idx : Nat) : List (LogIndexLsn Tag) :=
  (tabs.take (tid - 1)).flatten ++ (entriesAt tabs tid).take idx

def fromAt (tabs : List (List (LogIndexLsn Tag))) (tid idx : Nat) : List (LogIndexLsn Tag) :=
  (entriesAt tabs tid).drop idx ++ (tabs.drop tid).flatten

theorem wanted_append (left right : List (LogIndexLsn Tag)) :
    wanted start (left ++ right) = wanted start left ++ wanted start right := by
  simp [wanted]

variable {entries : List (LogIndexLsn Tag)} {entry : LogIndexLsn Tag}

theorem wanted_all (above : ∀ entry ∈ entries, start ≤ entry.lsn) :
    wanted start entries = entries.map pairOf := by
  rw [wanted, filter_eq_self.mpr (by simpa using above)]

theorem wanted_none (below : ∀ entry ∈ entries, entry.lsn < start) : wanted start entries = [] := by
  rw [wanted, map_eq_nil_iff, filter_eq_nil_iff]
  intro entry mem
  have less := below entry mem
  simp only [decide_eq_true_eq]
  omega

theorem take_entries (positive : 0 < tid) :
    (tabs.take tid).flatten = (tabs.take (tid - 1)).flatten ++ entriesAt tabs tid := by
  rcases Nat.exists_eq_succ_of_ne_zero (ne_of_gt positive) with ⟨below, rfl⟩
  rw [entriesAt, Nat.succ_eq_add_one, Nat.add_sub_cancel, take_add_one]
  cases tabs[below]? <;> simp

theorem before_from (positive : 0 < tid) (idx : Nat) :
    beforeAt tabs tid idx ++ fromAt tabs tid idx = tabs.flatten := by
  have whole : tabs.flatten = (tabs.take tid).flatten ++ (tabs.drop tid).flatten := by
    rw [← flatten_append, take_append_drop]
  rw [whole, take_entries positive, beforeAt, fromAt]
  simp only [append_assoc]
  rw [← append_assoc ((entriesAt tabs tid).take idx), take_append_drop]

theorem before_next (positive : 0 < tid) :
    beforeAt tabs (tid + 1) 0 = beforeAt tabs tid (entriesAt tabs tid).length := by
  rw [beforeAt, beforeAt, take_length, Nat.add_sub_cancel, take_entries positive]
  simp

theorem from_next (positive : 0 < tid) : fromAt tabs (tid + 1) 0 = fromAt tabs tid
    (entriesAt tabs tid).length := by
  have same : beforeAt tabs (tid + 1) 0 ++ fromAt tabs (tid + 1) 0 =
      beforeAt tabs (tid + 1) 0 ++ fromAt tabs tid (entriesAt tabs tid).length := by
    rw [before_from (Nat.succ_pos tid), before_next positive, before_from positive]
  exact append_cancel_left same

theorem before_succ (found : (entriesAt tabs tid)[idx]? = some entry) :
    beforeAt tabs tid (idx + 1) = beforeAt tabs tid idx ++ [entry] := by
  rw [beforeAt, beforeAt, take_add_one, found]
  simp

theorem from_head (found : (entriesAt tabs tid)[idx]? = some entry) :
    fromAt tabs tid idx = entry :: fromAt tabs tid (idx + 1) := by
  have inside := (List.getElem?_eq_some_iff.mp found).1
  rw [fromAt, fromAt, drop_eq_getElem_cons inside, (List.getElem?_eq_some_iff.mp found).2]
  rfl

end Position

section Read
variable {Tag : Type} {tabs : List (List (LogIndexLsn Tag))} {iter : LsnIter}
  {out : List (Tag × Nat)} {waiting : Bool}

structure Located (tabs : List (List (LogIndexLsn Tag))) (waiting : Bool) (iter : LsnIter)
    (out : List (Tag × Nat)) : Prop where
  state : iter.state = .backward
  positive : 0 < iter.idxTableId
  inRange : iter.idxTableId ≤ tabs.length + 1
  idxLe : iter.idx ≤ (entriesAt tabs iter.idxTableId).length
  -- the iterator leaves the newest table only after it was closed
  closed : iter.idxTableId = tabs.length + 1 → tabs = [] ∨ waiting = true
  returned : out = wanted iter.startLsn (beforeAt tabs iter.idxTableId iter.idx)
  above : ∀ entry ∈ fromAt tabs iter.idxTableId iter.idx, iter.startLsn ≤ entry.lsn

variable (located : Located tabs waiting iter out)
include located

theorem Located.wanted_eq : wanted iter.startLsn tabs.flatten =
      out ++ (fromAt tabs iter.idxTableId iter.idx).map pairOf := by
  rw [← before_from located.positive iter.idx, wanted_append, ← located.returned,
    wanted_all located.above]

theorem Located.advance {entry : LogIndexLsn Tag}
    (found : (entriesAt tabs iter.idxTableId)[iter.idx]? = some entry) :
    Located tabs waiting { iter with idx := iter.idx + 1 } (out ++ [pairOf entry]) := by
  have inside := (List.getElem?_eq_some_iff.mp found).1
  have split := from_head found
  have above := located.above
  rw [split] at above
  refine { located with idxLe := ?_, returned := ?_, above := ?_ }
  · exact inside
  · rw [before_succ found, wanted_append, ← located.returned,
      wanted_all (fun other mem => mem_singleton.mp mem ▸ above entry mem_cons_self)]
    rfl
  · exact fun other mem => above other (mem_cons_of_mem _ mem)

theorem Located.next_table
    (atEnd : iter.idx = (entriesAt tabs iter.idxTableId).length)
    (inside : iter.idxTableId ≤ tabs.length)
    (shut : iter.idxTableId = tabs.length → waiting = true) :
    Located tabs waiting { iter with idx := 0, idxTableId := iter.idxTableId + 1 } out := by
  have returned := located.returned
  have above := located.above
  rw [atEnd] at returned above
  constructor
  · exact located.state
  · exact Nat.succ_pos _
  · exact Nat.succ_le_succ inside
  · exact Nat.zero_le _
  · intro last
    exact .inr (shut (Nat.succ.inj last))
  · rw [before_next located.positive]
    exact returned
  · rw [from_next located.positive]
    exact above

end Read

section Table
variable {Tag : Type} {cfg : Config Tag} {snap before between after : Snapshot Tag}
  {tabs : List (List (LogIndexLsn Tag))} {iter : LsnIter} {pending : Option (PendingAdd Tag)}

theorem KeepsActive.trans (first : KeepsActive before between)
    (second : KeepsActive between after) : KeepsActive before after where
  activeTable := second.activeTable.trans first.activeTable
  adding := second.adding.trans first.adding
  kept := fun slot active => by
    have same := first.kept slot active
    exact (second.kept slot (by rw [same]; exact active)).trans same
  noNew := fun slot active => first.noNew slot (second.noNew slot active)

theorem update_start_lsn (memState : Option MemTblState) (data : LogIdxTableData Tag) :
    (logIndexLsnIteratorUpdate iter memState data).1.startLsn = iter.startLsn := by
  rw [logIndexLsnIteratorUpdate]
  split_ifs <;> rfl

theorem from_end {tid idx : Nat} (past : tabs.length ≤ tid)
    (atEnd : (entriesAt tabs tid).length ≤ idx) : fromAt tabs tid idx = [] := by
  rw [fromAt, drop_eq_nil_of_le past, drop_eq_nil_of_le atEnd]
  rfl

variable [DecidableEq Tag]

theorem SlotRep.used_of_id {saved slot : Nat} {table : LogMemTable Tag}
    (rep : SlotRep cfg tabs saved slot table) (positive : 0 < table.data.idxTableId) :
    table.state ≠ .free := by
  intro isFree
  unfold SlotRep at rep
  rw [isFree] at rep
  rw [rep] at positive
  exact lt_irrefl 0 positive

variable {data : LogIdxTableData Tag}

section
variable {tid : Nat} (holds : Holds cfg tabs tid data)
include holds

theorem Holds.entries_at : tabs[tid - 1]? = some (entriesAt tabs tid) ∧
      ∃ freeHead, TableRep (hashKey cfg) freeHead data (entriesAt tabs tid) := by
  rcases holds with ⟨-, -, _, freeHead, found, rep⟩
  rw [entriesAt, found]
  exact ⟨rfl, freeHead, rep⟩

theorem Holds.order_length : data.idxOrder.length = (entriesAt tabs tid).length := by
  rcases holds.entries_at with ⟨-, _, _, rep⟩
  exact rep.orderLength

theorem Holds.order_lsn (idx : Nat) :
    (logIndexGetOrderLsn data idx).map pairOf = ((entriesAt tabs tid)[idx]?).map pairOf := by
  rcases holds.entries_at with ⟨-, _, _, rep⟩
  cases found : (entriesAt tabs tid)[idx]? with
  | none =>
    rw [rep.get_order_lsn_end (List.getElem?_eq_none_iff.mp found), map_none]
  | some =>
    rcases rep.get_order_lsn found with ⟨_, gotten, tagEq, lsnEq⟩
    rw [gotten, map_some, map_some, pairOf, pairOf, tagEq, lsnEq]

end

/-- What `log_index_get_table_data` leaves of the snapshot. -/
structure ReadKeeps (cfg : Config Tag) (tabs : List (List (LogIndexLsn Tag)))
    (pending : Option (PendingAdd Tag)) (before after : Snapshot Tag) : Prop where
  rep : SnapRep cfg tabs after
  activeRep : ActiveRep cfg tabs after pending
  keeps : KeepsActive before after
  sameMeta : after.indexMeta = before.indexMeta

theorem ReadKeeps.trans (first : ReadKeeps cfg tabs pending before between)
    (second : ReadKeeps cfg tabs pending between after) :
    ReadKeeps cfg tabs pending before after where
  rep := second.rep
  activeRep := second.activeRep
  keeps := first.keeps.trans second.keeps
  sameMeta := second.sameMeta.trans first.sameMeta

section
variable (rep : SnapRep cfg tabs snap) (activeRep : ActiveRep cfg tabs snap pending)
include rep activeRep

theorem ReadKeeps.refl : ReadKeeps cfg tabs pending snap snap :=
  ⟨rep, activeRep, .refl, rfl⟩

theorem get_table_data_spec (positive : 0 < iter.idxTableId)
    (inside : iter.idxTableId ≤ tabs.length) (pid : Nat) :
    ∃ after data memState, logIndexGetTableData cfg snap pid iter = .ok (after,
      some (data, memState)) ∧ ReadKeeps cfg tabs pending snap after ∧
      Holds cfg tabs iter.idxTableId data ∧
      (iter.idxTableId = tabs.length → memState ≠ some .active → pending.isSome = true) ∧
      (memState = some .active → iter.idxTableId = tabs.length) := by
  have newest : iter.idxTableId = tabs.length → pending.isSome = false →
      (snap.memTable (slotOf cfg iter.idxTableId)).state = .active := by
    intro last idle
    rw [isSome_eq_false_iff, isNone_iff_eq_none] at idle
    subst idle
    rcases activeRep with ⟨empty, -⟩ | ⟨-, activeEq, active, -⟩
    · rw [empty] at inside
      exact absurd (positive.trans_le inside) (lt_irrefl _)
    · rwa [activeEq, ← last] at active
  by_cases inMemory : (snap.memTable (slotOf cfg iter.idxTableId)).data.idxTableId = iter.idxTableId
  · have slotRep := rep.memory.slots _ (slot_of_lt cfg iter.idxTableId)
    have used := slotRep.used_of_id (by rw [inMemory]; exact positive)
    have holds := rep.memory.held (slot_of_lt cfg iter.idxTableId) used inMemory
    refine ⟨snap, _, _, by rw [logIndexGetTableData, if_pos inMemory], .refl rep activeRep,
      holds, ?_, ?_⟩
    · intro last other
      by_contra idle
      exact other (congrArg some (newest last (Bool.eq_false_of_not_eq_true idle)))
    · intro active
      rcases slotRep.cases used with ⟨tid, idEq, -, -, -, isLast⟩
      rw [← inMemory, idEq]
      exact isLast (Option.some.inj active)
  · have saved : iter.idxTableId ≤ snap.indexMeta.maxIdxTableId := by
      by_contra unsaved
      exact inMemory (rep.memory.unsaved _ (not_le.mp unsaved) inside)
    rcases read_table_spec rep positive saved pid with
      ⟨after, data, fromMemory, read, afterRep, keeps, holds, sameMeta⟩
    refine ⟨after, data, if fromMemory then some .flushed else none, ?_,
      ⟨afterRep, keeps.active_rep activeRep, keeps, sameMeta⟩, holds, ?_, ?_⟩
    · rw [logIndexGetTableData, if_neg inMemory, if_neg (not_lt.mpr saved), read]
      rfl
    · intro last _
      by_contra idle
      have active := newest last (Bool.eq_false_of_not_eq_true idle)
      have slotRep := rep.memory.slots _ (slot_of_lt cfg iter.idxTableId)
      rcases slotRep.cases (by rw [active]; decide) with ⟨_, idEq, -, -, -, isLast⟩
      exact inMemory (idEq.trans ((isLast active).trans last.symm))
    · intro active
      cases fromMemory <;> cases active

end

theorem get_table_data_end (rep : SnapRep cfg tabs snap) (past : iter.idxTableId = tabs.length + 1)
    (pid : Nat) : logIndexGetTableData cfg snap pid iter = .ok (snap, none) := by
  have slotRep := rep.memory.slots _ (slot_of_lt cfg iter.idxTableId)
  have other : (snap.memTable (slotOf cfg iter.idxTableId)).data.idxTableId ≠ iter.idxTableId := by
    intro inMemory
    have used := slotRep.used_of_id (by omega)
    have inside := (rep.memory.held (slot_of_lt cfg iter.idxTableId) used inMemory).le_length
    omega
  have savedLe := rep.metaOk.savedLe
  have unsaved : snap.indexMeta.maxIdxTableId < iter.idxTableId := by omega
  rw [logIndexGetTableData, if_neg other, if_pos unsaved]

theorem Located.update {out : List (Tag × Nat)} {waiting : Bool} {memState : Option MemTblState}
    (located : Located tabs waiting iter out)
    (holds : Holds cfg tabs iter.idxTableId data)
    (shut : iter.idxTableId = tabs.length → memState ≠ some .active → waiting = true) :
    Located tabs waiting (logIndexLsnIteratorUpdate iter memState data).1 out := by
  rw [logIndexLsnIteratorUpdate]
  split_ifs with moves
  · exact located.next_table (moves.2.trans holds.order_length) holds.le_length
      (fun last => shut last moves.1)
  · exact located

/-- The loop of `next` returns the entry at the iterator's position, if there is one. -/
theorem next_loop_spec (pid fuel : Nat) : ∀ (snap : Snapshot Tag) (iter : LsnIter)
    (out : List (Tag × Nat)), SnapRep cfg tabs snap → ActiveRep cfg tabs snap pending →
    Located tabs pending.isSome iter out → tabs.length + 2 ≤ iter.idxTableId + fuel →
    ∃ after placed info, nextLoop cfg pid fuel snap iter = .ok (after, placed, info) ∧
      ReadKeeps cfg tabs pending snap after ∧ placed.startLsn = iter.startLsn ∧
      info.map pairOf = ((fromAt tabs iter.idxTableId iter.idx).head?).map pairOf ∧
      Located tabs pending.isSome placed (out ++ (info.map pairOf).toList) := by
  induction fuel with
  | zero =>
    intro snap iter out rep activeRep located enough
    have inRange := located.inRange
    omega
  | succ _ ih =>
    intro snap iter out rep activeRep located _
    by_cases past : iter.idxTableId = tabs.length + 1
    · refine ⟨snap, iter, none, ?_, .refl rep activeRep, rfl, ?_, ?_⟩
      · rw [nextLoop, get_table_data_end rep past pid]
      · have noEntries : entriesAt tabs iter.idxTableId = [] := by
          rw [entriesAt, List.getElem?_eq_none (by omega)]
          rfl
        rw [from_end (by omega) (by rw [noEntries]; exact Nat.zero_le _)]
        rfl
      · simpa using located
    have inside : iter.idxTableId ≤ tabs.length := by
      have inRange := located.inRange
      omega
    rcases get_table_data_spec rep activeRep located.positive inside pid with
      ⟨after, data, memState, gotten, keeps, holds, shut, isLast⟩
    have orderLsn := holds.order_lsn iter.idx
    cases found : (entriesAt tabs iter.idxTableId)[iter.idx]? with
    | some =>
      rw [found, map_some, map_eq_some_iff] at orderLsn
      rcases orderLsn with ⟨info, infoEq, samePair⟩
      have advanced := (located.advance found).update holds shut
      refine ⟨after, (logIndexLsnIteratorUpdate { iter with idx := iter.idx + 1 } memState data).1,
        some info, ?_, keeps, update_start_lsn memState data, ?_, ?_⟩
      · rw [nextLoop, gotten]
        simp only [infoEq]
      · rw [from_head found, List.head?_cons, map_some, map_some, samePair]
      · rw [map_some, samePair]
        exact advanced
    | none =>
      rw [found, map_none, map_eq_none_iff] at orderLsn
      have atEnd : iter.idx = (entriesAt tabs iter.idxTableId).length :=
        le_antisymm located.idxLe (List.getElem?_eq_none_iff.mp found)
      by_cases active : memState = some .active
      · have stays : logIndexLsnIteratorUpdate iter memState data = (iter, false) := by
          rw [logIndexLsnIteratorUpdate, if_neg (fun moves => moves.1 active)]
        refine ⟨after, iter, none, ?_, keeps, rfl, ?_, by simpa using located⟩
        · rw [nextLoop, gotten]
          simp [orderLsn, stays]
        · rw [from_end (isLast active).ge atEnd.ge]
          rfl
      have moves : logIndexLsnIteratorUpdate iter memState data =
          ({ iter with idx := 0, idxTableId := iter.idxTableId + 1 }, true) := by
        rw [logIndexLsnIteratorUpdate, if_pos ⟨active, atEnd.trans holds.order_length.symm⟩]
      have moved := located.update holds shut
      rw [moves] at moved
      rcases ih after _ out keeps.rep keeps.activeRep moved
        (by dsimp only; omega) with
        ⟨later, placed, info, called, laterKeeps, sameStart, isHead, laterLocated⟩
      refine ⟨later, placed, info, ?_, keeps.trans laterKeeps, sameStart, ?_, laterLocated⟩
      · rw [nextLoop, gotten]
        simp only [orderLsn, moves]
        exact called
      · rw [isHead]
        rw [from_next located.positive, atEnd]

end Table

section Search
variable {Tag : Type} {cfg : Config Tag} {snap : Snapshot Tag}
  {tabs : List (List (LogIndexLsn Tag))} {iter : LsnIter} {pending : Option (PendingAdd Tag)}
  {tid : Nat} {data : LogIdxTableData Tag}

/-- The tables above `tid` were searched and hold only wanted pairs. -/
structure Hunting (tabs : List (List (LogIndexLsn Tag))) (tid : Nat) (iter : LsnIter) : Prop where
  state : iter.state = .forward
  idx : iter.idx = 0
  inside : tid ≤ tabs.length
  above : ∀ entry ∈ (tabs.drop tid).flatten, iter.startLsn ≤ entry.lsn
  last : (iter.lastSearchTid = 0 ∧ (iter.startLsn = 0 ∨ tid = tabs.length ∧ iter.idxTableId = 0)) ∨
    (iter.lastSearchTid = tid + 1 ∧ tid < tabs.length)

/-- The search ended at the table that holds the first wanted pair. -/
structure Aimed (tabs : List (List (LogIndexLsn Tag))) (iter : LsnIter) : Prop where
  state : iter.state = .backward
  idx : iter.idx = 0
  positive : 0 < iter.idxTableId
  inside : iter.idxTableId ≤ tabs.length
  below : ∀ entry ∈ (tabs.take (iter.idxTableId - 1)).flatten, entry.lsn < iter.startLsn
  above : ∀ entry ∈ (tabs.drop iter.idxTableId).flatten, iter.startLsn ≤ entry.lsn
  hit : (∃ entry ∈ entriesAt tabs iter.idxTableId, iter.startLsn ≤ entry.lsn) ∨
    entriesAt tabs iter.idxTableId = []

/-- The search found nothing, and will be repeated by the next call. -/
structure Missed (tabs : List (List (LogIndexLsn Tag))) (iter : LsnIter) : Prop where
  state : iter.state = .finished
  positive : 0 < iter.startLsn
  idx : iter.idx = 0
  unset : iter.idxTableId = 0
  nothing : ∀ entry ∈ tabs.flatten, entry.lsn < iter.startLsn

def Searched (tabs : List (List (LogIndexLsn Tag))) (tid : Nat) (iter : LsnIter) : Prop :=
  Hunting tabs tid iter ∨ Missed tabs iter ∨ Aimed tabs iter

theorem ended_not_forward (ended : Missed tabs iter ∨ Aimed tabs iter) : iter.state ≠ .forward := by
  rcases ended with missed | aimed
  · rw [missed.state]
    decide
  · rw [aimed.state]
    decide

theorem entries_at_drop (inside : tid < tabs.length) :
    (tabs.drop tid).flatten = entriesAt tabs (tid + 1) ++ (tabs.drop (tid + 1)).flatten := by
  rw [drop_eq_getElem_cons inside, entriesAt, Nat.add_sub_cancel, List.getElem?_eq_getElem inside]
  rfl

/-- Everything from the table behind `tid` on is wanted, and nothing before it. -/
theorem Aimed.first (st : iter.state = .backward) (idx : iter.idx = 0)
    (here : iter.idxTableId = tid + 1) (inside : tid < tabs.length)
    (below : ∀ entry ∈ (tabs.take tid).flatten, entry.lsn < iter.startLsn)
    (above : ∀ entry ∈ (tabs.drop tid).flatten, iter.startLsn ≤ entry.lsn) : Aimed tabs iter := by
  rw [entries_at_drop inside] at above
  refine ⟨st, idx, by omega, by omega, ?_, ?_, ?_⟩ <;> rw [here]
  · exact below
  · exact fun entry mem => above entry (mem_append_right _ mem)
  · by_cases none : entriesAt tabs (tid + 1) = []
    · exact .inr none
    · rcases exists_mem_of_ne_nil _ none with ⟨entry, mem⟩
      exact .inl ⟨entry, mem, above entry (mem_append_left _ mem)⟩

theorem Aimed.located (aimed : Aimed tabs iter) {waiting : Bool} {idx : Nat}
    (bound : idx ≤ (entriesAt tabs iter.idxTableId).length)
    (before : ∀ entry ∈ (entriesAt tabs iter.idxTableId).take idx, entry.lsn < iter.startLsn)
    (behind : ∀ entry ∈ (entriesAt tabs iter.idxTableId).drop idx, iter.startLsn ≤ entry.lsn) :
    Located tabs waiting { iter with idx := idx } [] := by
  have inside := aimed.inside
  refine ⟨aimed.state, aimed.positive, by dsimp only; omega, bound, ?_, (wanted_none ?_).symm, ?_⟩
  · intro past
    dsimp only at past
    omega
  · intro entry mem
    exact (mem_append.mp mem).elim (aimed.below entry) (before entry)
  · intro entry mem
    exact (mem_append.mp mem).elim (behind entry) (aimed.above entry)

theorem set_start_order_idle (notFound : iter.state ≠ .backward) (pid : Nat) :
    logIndexSetStartOrder cfg snap pid iter = .ok (snap, iter) := by
  rw [logIndexSetStartOrder, if_neg notFound]

theorem mem_flatten_of_entries_at {entry : LogIndexLsn Tag} (mem : entry ∈ entriesAt tabs tid) :
    entry ∈ tabs.flatten := by
  rw [entriesAt] at mem
  cases found : tabs[tid - 1]? with
  | none =>
    rw [found] at mem
    cases mem
  | some entries =>
    rw [found] at mem
    exact mem_flatten.mpr ⟨entries, mem_of_getElem? found, mem⟩

theorem entries_at_mem (positive : 0 < tid) (inside : tid ≤ tabs.length) :
    entriesAt tabs tid ∈ tabs := by
  have index : tid - 1 < tabs.length := by omega
  rw [entriesAt, List.getElem?_eq_getElem index]
  exact getElem_mem index

/-- Everything added later is wanted, unless the table aimed at is empty. -/
def Reached (tabs : List (List (LogIndexLsn Tag))) (start : Nat) : Prop :=
  start = 0 ∨ (∃ entry ∈ tabs.flatten, start ≤ entry.lsn) ∨ [] ∈ tabs

theorem Aimed.reached (aimed : Aimed tabs iter) : Reached tabs iter.startLsn := by
  rcases aimed.hit with ⟨entry, mem, isHigh⟩ | empty
  · exact .inr (.inl ⟨entry, mem_flatten_of_entries_at mem, isHigh⟩)
  · exact .inr (.inr (empty ▸ entries_at_mem aimed.positive aimed.inside))

theorem MetaRep.saved_le {indexMeta : LogIndexMeta} (rep : MetaRep tabs indexMeta)
    (logOk : LogRep tabs) {saved : Nat} (bound : saved ≤ indexMeta.maxIdxTableId) :
    ∀ entry ∈ (tabs.take saved).flatten, entry.lsn ≤ indexMeta.maxLsn := by
  intro entry mem
  rcases mem_flatten.mp mem with ⟨entries, inTabs, inEntries⟩
  have inSaved : entry ∈ (tabs.take indexMeta.maxIdxTableId).flatten :=
    mem_flatten.mpr ⟨entries, take_subset_take_left tabs bound inTabs, inEntries⟩
  have sorted := logOk.sorted
  rw [← take_append_drop indexMeta.maxIdxTableId tabs, flatten_append, pairwise_append] at sorted
  rw [rep.maxLsn]
  exact le_getLastD_of_sorted (pairwise_map.mpr sorted.1) _ (mem_map_of_mem inSaved)

variable [DecidableEq Tag]

theorem Holds.bounds (holds : Holds cfg tabs tid data) :
      (data.maxLsn = invalidLsn ↔ entriesAt tabs tid = []) ∧
      (∀ entry ∈ entriesAt tabs tid, data.minLsn ≤ entry.lsn ∧ entry.lsn ≤ data.maxLsn) ∧
      (entriesAt tabs tid ≠ [] → (∃ entry ∈ entriesAt tabs tid, entry.lsn = data.minLsn) ∧
        ∃ entry ∈ entriesAt tabs tid, entry.lsn = data.maxLsn) := by
  rcases holds.entries_at with ⟨-, _, _, rep⟩
  refine ⟨rep.max_lsn_eq_zero, fun entry mem => ⟨rep.min_le_lsn mem, rep.lsn_le_max mem⟩, ?_⟩
  intro nonempty
  have mapped : (entriesAt tabs tid).map LogIndexLsn.lsn ≠ [] := by simpa using nonempty
  constructor
  · rcases exists_cons_of_ne_nil nonempty with ⟨first, _, whole⟩
    refine ⟨first, by rw [whole]; exact mem_cons_self, ?_⟩
    rw [rep.minLsn, whole]
    rfl
  · rw [rep.maxLsn]
    exact mem_map.mp (getLastD_mem mapped)

theorem Holds.earlier (holds : Holds cfg tabs (tid + 1) data) (logOk : LogRep tabs) :
    ∀ earlier ∈ (tabs.take tid).flatten, ∀ later ∈ entriesAt tabs (tid + 1),
    earlier.lsn ≤ later.lsn :=
  logOk.take_sorted holds.entries_at.1

theorem Hunting.set_search_table (hunting : Hunting tabs (tid + 1) iter)
    (holds : Holds cfg tabs (tid + 1) data) (logOk : LogRep tabs) :
    Searched tabs tid (logIndexSetSearchTable iter data) ∧
      (logIndexSetSearchTable iter data).startLsn = iter.startLsn := by
  rcases holds.bounds with ⟨isEmpty, within, attained⟩
  have earlier := holds.earlier logOk
  have idEq := holds.2.1
  have inside := hunting.inside
  have st := hunting.state
  -- no entry of this table lies below the start
  have goOn : ∀ tableId, (∀ entry ∈ entriesAt tabs (tid + 1), iter.startLsn ≤ entry.lsn) →
      Hunting tabs tid { iter with idxTableId := tableId, lastSearchTid := data.idxTableId } := by
    intro _ reached
    refine ⟨st, hunting.idx, by omega, ?_, .inr ⟨idEq, inside⟩⟩
    rw [entries_at_drop inside]
    exact forall_mem_append.mpr ⟨reached, hunting.above⟩
  by_cases empty : data.maxLsn = invalidLsn
  · rw [logIndexSetSearchTable, if_neg (not_not.mpr empty)]
    refine ⟨.inl (goOn iter.idxTableId ?_), rfl⟩
    rw [isEmpty.mp empty]
    exact nofun
  rcases attained (fun none => empty (isEmpty.mpr none)) with
    ⟨⟨first, firstIn, firstEq⟩, lastEntry, lastIn, lastEq⟩
  rw [logIndexSetSearchTable, if_pos empty]
  by_cases below : data.maxLsn < iter.startLsn
  · have upTo : ∀ entry ∈ (tabs.take (tid + 1)).flatten, entry.lsn < iter.startLsn := by
      rw [take_entries (Nat.succ_pos tid)]
      intro entry mem
      rcases mem_append.mp mem with before | here
      · have ordered := earlier entry before lastEntry lastIn
        omega
      · have ordered := (within entry here).2
        omega
    split_ifs with newest
    · rcases hunting.last with ⟨-, zero | ⟨isLast, unset⟩⟩ | ⟨other, -⟩
      · omega
      · refine ⟨.inr (.inl ⟨rfl, Nat.zero_lt_of_lt below, hunting.idx, unset, ?_⟩), rfl⟩
        rwa [isLast, take_length] at upTo
      · omega
    · rcases hunting.last with ⟨zero, -⟩ | ⟨-, notLast⟩
      · exact absurd zero newest
      · exact ⟨.inr (.inr
          (.first rfl hunting.idx (congrArg (· + 1) idEq) notLast upTo hunting.above)), rfl⟩
  · rw [if_neg below]
    have reached : ∀ entry ∈ entriesAt tabs (tid + 1), data.minLsn ≤ entry.lsn := fun entry mem =>
      (within entry mem).1
    split
    · by_cases atMin : iter.startLsn = data.minLsn
      · rw [if_neg (not_not.mpr atMin)]
        refine ⟨.inl (goOn _ ?_), rfl⟩
        rw [atMin]
        exact reached
      rw [if_pos atMin]
      refine ⟨.inr (.inr ⟨rfl, hunting.idx, ?_, ?_, ?_, ?_, .inl ?_⟩), rfl⟩
      · rw [idEq]
        exact Nat.succ_pos tid
      · rw [idEq]
        exact inside
      · dsimp only
        rw [idEq]
        intro entry mem
        have ordered := earlier entry mem first firstIn
        omega
      · rw [idEq]
        exact hunting.above
      · dsimp only
        rw [idEq]
        exact ⟨lastEntry, lastIn, by omega⟩
    · refine ⟨.inl (goOn iter.idxTableId ?_), rfl⟩
      intro entry mem
      have ordered := reached entry mem
      omega

theorem start_order_loop_spec (holds : Holds cfg tabs tid data) (start left : Nat) :
    ∀ order, left + order = (entriesAt tabs tid).length →
    ∃ found, startOrderLoop data start left order = .ok found ∧
        ((∃ pos entry, found = some pos ∧ order ≤ pos ∧ (entriesAt tabs tid)[pos]? = some entry ∧
            start ≤ entry.lsn ∧ ∀ other ∈ ((entriesAt tabs tid).take pos).drop order,
          other.lsn < start) ∨
          (found = none ∧ ∀ other ∈ (entriesAt tabs tid).drop order, other.lsn < start)) := by
  induction left with
  | zero =>
    intro order _
    refine ⟨none, rfl, .inr ⟨rfl, ?_⟩⟩
    rw [drop_eq_nil_of_le (by omega)]
    exact nofun
  | succ _ ih =>
    intro order _
    have inside : order < (entriesAt tabs tid).length := by omega
    have atOrder := List.getElem?_eq_getElem inside
    have orderLsn := holds.order_lsn order
    rw [atOrder, map_some, map_eq_some_iff] at orderLsn
    rcases orderLsn with ⟨info, infoEq, samePair⟩
    have sameLsn : info.lsn = (entriesAt tabs tid)[order].lsn := congrArg Prod.snd samePair
    by_cases reached : start ≤ info.lsn
    · refine ⟨some order, ?_, .inl ⟨order, _, rfl, le_rfl, atOrder, sameLsn ▸ reached, ?_⟩⟩
      · simp only [startOrderLoop, infoEq, if_pos reached]
      · rw [drop_eq_nil_of_le (by simp)]
        exact nofun
    have low : (entriesAt tabs tid)[order].lsn < start := by omega
    rcases ih (order + 1) (by omega) with ⟨found, loop, outcome⟩
    refine ⟨found, ?_, ?_⟩
    · simp only [startOrderLoop, infoEq, if_neg reached, loop]
    rcases outcome with ⟨pos, entry, foundEq, _, atPosition, isHigh, before⟩ |
      ⟨foundEq, before⟩
    · refine .inl ⟨pos, entry, foundEq, by omega, atPosition, isHigh, ?_⟩
      have short : order < ((entriesAt tabs tid).take pos).length := by
        rw [length_take]
        omega
      rw [drop_eq_getElem_cons short, getElem_take]
      exact forall_mem_cons.mpr ⟨low, before⟩
    · refine .inr ⟨foundEq, ?_⟩
      rw [drop_eq_getElem_cons inside]
      exact forall_mem_cons.mpr ⟨low, before⟩

theorem search_mem_tables_spec (rep : SnapRep cfg tabs snap) (tid : Nat) :
      ∀ iter, Hunting tabs tid iter → ∃ reached, reached ≤ snap.indexMeta.maxIdxTableId ∧
        Searched tabs reached (searchMemTables cfg snap tid (slotOf cfg tid) iter) ∧
        (searchMemTables cfg snap tid (slotOf cfg tid) iter).startLsn = iter.startLsn := by
  induction tid with
  | zero => exact fun iter hunting => ⟨0, Nat.zero_le _, .inl hunting, rfl⟩
  | succ tid ih =>
    intro _ hunting
    by_cases held : (snap.memTable (slotOf cfg (tid + 1))).data.idxTableId = tid + 1 ∧
        (snap.memTable (slotOf cfg (tid + 1))).state ≠ .free
    · have holds := rep.memory.held (slot_of_lt cfg (tid + 1)) held.2 held.1
      rcases hunting.set_search_table holds rep.logOk with ⟨searched, sameStart⟩
      rw [searchMemTables, if_pos held]
      rcases searched with goesOn | ended
      · rw [if_pos goesOn.state]
        have next : searchMemTables cfg snap tid (prevSlot cfg (slotOf cfg (tid + 1))) =
            searchMemTables cfg snap tid (slotOf cfg tid) := by
          cases tid with
          | zero => rfl
          | succ below => rw [prev_slot_of cfg (Nat.succ_pos below)]
        rcases ih _ goesOn with ⟨reached, bound, outcome, start⟩
        rw [next]
        exact ⟨reached, bound, outcome, start.trans sameStart⟩
      · rw [if_neg (ended_not_forward ended)]
        exact ⟨0, Nat.zero_le _, .inr ended, sameStart⟩
    · refine ⟨tid + 1, ?_, ?_, ?_⟩
      · by_contra unsaved
        have idEq := rep.memory.unsaved (tid + 1) (not_le.mp unsaved) hunting.inside
        have slotRep := rep.memory.slots _ (slot_of_lt cfg (tid + 1))
        exact held ⟨idEq, slotRep.used_of_id (by rw [idEq]; exact Nat.succ_pos tid)⟩
      · rw [searchMemTables, if_neg held]
        exact .inl hunting
      · rw [searchMemTables, if_neg held]

theorem search_file_tables_spec (pid : Nat) (tid : Nat) : ∀ (snap : Snapshot Tag) (iter : LsnIter),
    SnapRep cfg tabs snap → ActiveRep cfg tabs snap pending →
    tid ≤ snap.indexMeta.maxIdxTableId → Searched tabs tid iter →
    ∃ after placed, searchFileTables cfg pid 1 tid snap iter = .ok (after, placed) ∧
      ReadKeeps cfg tabs pending snap after ∧ placed.startLsn = iter.startLsn ∧
      Searched tabs 0 placed := by
  induction tid with
  | zero =>
    intro snap iter rep activeRep _ searched
    exact ⟨snap, iter, rfl, .refl rep activeRep, rfl, searched⟩
  | succ tid ih =>
    intro snap iter rep activeRep saved searched
    rcases searched with hunting | ended
    · rcases read_table_spec rep (Nat.succ_pos tid) saved pid with
        ⟨after, data, fromMemory, read, afterRep, keeps, holds, sameMeta⟩
      rcases hunting.set_search_table holds rep.logOk with ⟨searched, sameStart⟩
      have first : ReadKeeps cfg tabs pending snap after :=
        ⟨afterRep, keeps.active_rep activeRep, keeps, sameMeta⟩
      rcases ih after _ afterRep first.activeRep (by rw [sameMeta]; omega) searched with
        ⟨later, placed, called, second, start, outcome⟩
      refine ⟨later, placed, ?_, first.trans second, start.trans sameStart, outcome⟩
      rw [searchFileTables, if_pos ⟨Nat.succ_pos tid, hunting.state⟩, read]
      exact called
    · refine ⟨snap, iter, ?_, .refl rep activeRep, rfl, .inr ended⟩
      rw [searchFileTables, if_neg (fun goesOn => ended_not_forward ended goesOn.2)]

def Placed (tabs : List (List (LogIndexLsn Tag))) (waiting : Bool) (iter : LsnIter) : Prop :=
  (Located tabs waiting iter [] ∧ Reached tabs iter.startLsn) ∨ Missed tabs iter

/-- The search goes through, and its iterator is at the first wanted pair or has missed. -/
def Finds (cfg : Config Tag) (tabs : List (List (LogIndexLsn Tag)))
    (pending : Option (PendingAdd Tag)) (snap : Snapshot Tag) (iter : LsnIter)
    (res : Except LogIndexError (Snapshot Tag × LsnIter)) : Prop :=
  ∃ after placed, res = .ok (after, placed) ∧ ReadKeeps cfg tabs pending snap after ∧
    placed.startLsn = iter.startLsn ∧ Placed tabs pending.isSome placed

theorem Finds.after {middle : Snapshot Tag} {searched : LsnIter}
    {res : Except LogIndexError (Snapshot Tag × LsnIter)}
    (finds : Finds cfg tabs pending middle searched res)
    (first : ReadKeeps cfg tabs pending snap middle) (start : searched.startLsn = iter.startLsn) :
    Finds cfg tabs pending snap iter res := by
  rcases finds with ⟨after, placed, called, second, same, found⟩
  exact ⟨after, placed, called, first.trans second, same.trans start, found⟩

section
variable (rep : SnapRep cfg tabs snap) (activeRep : ActiveRep cfg tabs snap pending) (pid : Nat)
include rep activeRep

theorem Aimed.set_start_order (aimed : Aimed tabs iter) :
    ∃ after idx, logIndexSetStartOrder cfg snap pid iter = .ok (after, { iter with idx := idx }) ∧
      ReadKeeps cfg tabs pending snap after ∧
      Located tabs pending.isSome { iter with idx := idx } [] := by
  rcases get_table_data_spec rep activeRep aimed.positive aimed.inside pid with
    ⟨after, data, memState, gotten, keeps, holds, -⟩
  have idEq := holds.2.1
  rcases start_order_loop_spec holds iter.startLsn data.idxOrder.length 0 holds.order_length with
    ⟨found, loop, outcome⟩
  have sorted : (entriesAt tabs iter.idxTableId).Pairwise fun earlier later =>
      earlier.lsn ≤ later.lsn := by
    rcases holds.entries_at with ⟨-, _, _, tableRep⟩
    exact tableRep.sorted
  have placed : logIndexSetStartOrder cfg snap pid iter =
      .ok (after, { iter with idx := found.getD 0 }) := by
    rw [logIndexSetStartOrder, if_pos aimed.state, gotten]
    simp only [logIndexSetSearchStartOrder, idEq, ne_eq, not_true_eq_false, if_false, loop]
    cases found with
    | none =>
      rw [getD_none, ← aimed.idx]
      rfl
    | some => rfl
  rcases outcome with ⟨pos, entry, foundEq, -, atPosition, isHigh, before⟩ | ⟨foundEq, before⟩
  · rw [foundEq] at placed
    have inside := (List.getElem?_eq_some_iff.mp atPosition).1
    refine ⟨after, pos, placed, keeps, aimed.located (by omega) before ?_⟩
    have split := take_append_drop pos (entriesAt tabs iter.idxTableId)
    rw [drop_eq_getElem_cons inside, (List.getElem?_eq_some_iff.mp atPosition).2] at split ⊢
    rw [← split, pairwise_append, pairwise_cons] at sorted
    refine forall_mem_cons.mpr ⟨isHigh, ?_⟩
    exact fun other mem => isHigh.trans (sorted.2.1.1 other mem)
  · have empty : entriesAt tabs iter.idxTableId = [] := by
      rcases aimed.hit with ⟨entry, mem, isHigh⟩ | empty
      · exact absurd (before entry mem) (not_lt.mpr isHigh)
      · exact empty
    rw [foundEq] at placed
    refine ⟨after, 0, placed, keeps, aimed.located (Nat.zero_le _) ?_ ?_⟩
    · exact nofun
    · rw [empty]
      exact nofun

theorem Aimed.placed (aimed : Aimed tabs iter) :
    Finds cfg tabs pending snap iter (logIndexSetStartOrder cfg snap pid iter) := by
  rcases aimed.set_start_order rep activeRep pid with ⟨after, _, called, keeps, located⟩
  exact ⟨after, _, called, keeps, rfl, .inl ⟨located, aimed.reached⟩⟩

theorem Hunting.search_file (hunting : Hunting tabs tid iter)
    (saved : tid ≤ snap.indexMeta.maxIdxTableId)
    (fromSaved : iter.startLsn = 0 → tid = snap.indexMeta.maxIdxTableId)
    (some : iter.startLsn = 0 → snap.indexMeta.maxIdxTableId ≠ 0) :
    Finds cfg tabs pending snap iter (logIndexSearchFileTblLsn cfg snap pid iter) := by
  have upTo := rep.metaOk.saved_le rep.logOk saved
  have savedLe := rep.metaOk.savedLe
  rw [logIndexSearchFileTblLsn]
  split
  · next high =>
    split_ifs with newest
    · refine ⟨snap, _, rfl, .refl rep activeRep, rfl, .inr ?_⟩
      rcases hunting.last with ⟨-, zero | ⟨isLast, unset⟩⟩ | ⟨other, -⟩
      · omega
      · refine ⟨rfl, Nat.zero_lt_of_lt high, hunting.idx, unset, ?_⟩
        rw [isLast, take_length] at upTo
        exact fun entry mem => (upTo entry mem).trans_lt high
      · omega
    · rcases hunting.last with ⟨zero, -⟩ | ⟨lastEq, inside⟩
      · exact absurd zero newest
      rw [lastEq]
      have above := hunting.above
      have aimed : Aimed tabs { iter with
          idxTableId := tid + 1, state := .backward, lastSearchTid := tid + 1 } :=
        .first rfl hunting.idx rfl inside (fun entry mem => (upTo entry mem).trans_lt high) above
      refine ⟨snap, _, rfl, .refl rep activeRep, rfl,
        .inl ⟨aimed.located (hunting.idx.trans_le (Nat.zero_le _)) ?_ ?_, aimed.reached⟩⟩
      · rw [hunting.idx]
        exact forall_mem_nil _
      · rw [entries_at_drop inside] at above
        rw [hunting.idx]
        exact fun entry mem => above entry (mem_append_left _ mem)
  · have anySaved : snap.indexMeta.maxIdxTableId ≠ 0 := by
      by_cases zero : iter.startLsn = 0
      · exact some zero
      · intro none
        have maxLsn := rep.metaOk.maxLsn
        rw [none] at maxLsn
        simp only [take_zero, flatten_nil, map_nil, getLastD_nil, invalidLsn] at maxLsn
        omega
    have minId : snap.indexMeta.minSegmentInfo.minIdxTableId = 1 := by
      rw [rep.metaOk.minId, if_neg anySaved]
    have nextTid : logIndexNextSearchFileTid iter.lastSearchTid snap.indexMeta =
      Option.some tid := by
      rcases hunting.last with ⟨zero, rest⟩ | ⟨lastEq, inside⟩
      · rw [logIndexNextSearchFileTid, if_pos zero]
        rcases rest with startZero | ⟨isLast, -⟩
        · rw [fromSaved startZero]
        · congr 1
          omega
      · rw [logIndexNextSearchFileTid, lastEq, if_neg (Nat.succ_ne_zero tid), Nat.add_sub_cancel]
        split
        · next first =>
          rw [first]
        · rw [if_neg (not_lt.mpr saved)]
    rcases search_file_tables_spec pid tid snap iter rep activeRep saved (.inl hunting) with
      ⟨after, searched, called, first, start, outcome⟩
    simp only [nextTid, minId, called]
    rcases outcome with goesOn | missed | aimed
    · rw [if_pos goesOn.state]
      have inside : 0 < tabs.length := by omega
      have aimed : Aimed tabs { searched with idxTableId := 1, state := .backward } :=
        .first rfl goesOn.idx rfl inside (forall_mem_nil _) goesOn.above
      exact (aimed.placed first.rep first.activeRep pid).after first start
    · rw [if_neg (ended_not_forward (.inl missed)),
        set_start_order_idle (by rw [missed.state]; decide)]
      exact ⟨after, searched, rfl, first, start, .inr missed⟩
    · rw [if_neg (ended_not_forward (.inr aimed))]
      exact (aimed.placed first.rep first.activeRep pid).after first start

end

end Search

section Next
variable {Tag : Type} {cfg : Config Tag} {snap : Snapshot Tag}
  {tabs : List (List (LogIndexLsn Tag))} {iter : LsnIter} {pending : Option (PendingAdd Tag)}
  {out : List (Tag × Nat)}

/-- An iterator from start 0 that was not advanced yet, nothing saved, and the slot that
the id 0 is mapped to in use. -/
def Trap (cfg : Config Tag) (snap : Snapshot Tag) (iter : LsnIter) : Prop :=
  iter.startLsn = invalidLsn ∧ iter.state = .forward ∧ snap.indexMeta.maxIdxTableId = 0 ∧
    (snap.memTable (slotOf cfg 0)).state ≠ .free

inductive IterRep (tabs : List (List (LogIndexLsn Tag))) (waiting : Bool) :
    LsnIter → List (Tag × Nat) → Prop where
  | located (iter : LsnIter) (out : List (Tag × Nat)) (located : Located tabs waiting iter out)
      (reached : Reached tabs iter.startLsn) : IterRep tabs waiting iter out
  | searching (iter : LsnIter) (positive : 0 < iter.startLsn) (unset : iter.idxTableId = 0)
      (idx : iter.idx = 0) : IterRep tabs waiting iter []
  | untouched : IterRep tabs waiting ⟨.forward, 0, 1, 0, 0⟩ []

theorem IterRep.prefix_wanted {waiting : Bool} (rep : IterRep tabs waiting iter out) :
    out <+: wanted iter.startLsn tabs.flatten := by
  cases rep with
  | located _ _ located =>
    rw [located.wanted_eq]
    exact prefix_append _ _
  | searching | untouched => exact nil_prefix

variable [DecidableEq Tag]

def NextSpec (cfg : Config Tag) (tabs : List (List (LogIndexLsn Tag)))
    (pending : Option (PendingAdd Tag)) (snap : Snapshot Tag) (iter : LsnIter)
    (out : List (Tag × Nat))
    (res : Except LogIndexError (Snapshot Tag × LsnIter × Option (LogIndexLsn Tag))) : Prop :=
  ∃ after placed info, res = .ok (after, placed, info) ∧
    ReadKeeps cfg tabs pending snap after ∧ placed.startLsn = iter.startLsn ∧
    info.map pairOf = (wanted iter.startLsn tabs.flatten)[out.length]? ∧
    IterRep tabs pending.isSome placed (out ++ (info.map pairOf).toList)

section
variable (rep : SnapRep cfg tabs snap) (noneSaved : snap.indexMeta.maxIdxTableId = 0)
include rep noneSaved

theorem read_table_zero (used : (snap.memTable (slotOf cfg 0)).data.idxTableId ≠ 0) (pid : Nat) :
    logIndexReadTable cfg snap pid 0 = .error (.fatalReadTable 0) := by
  have notCached : cacheCovers (snap.tableCache pid) 0 = false := by
    cases cached : snap.tableCache pid with
    | none => rfl
    | some cache =>
      have minPos := (rep.caches pid cache cached).1
      rw [cacheCovers, decide_eq_false_iff_not]
      omega
  have noFile : logIndexReadSegFile snap (segmentNo 0) = none := by
    rw [logIndexReadSegFile]
    cases snap.storage.segFile (segmentNo 0) with
    | nil => rfl
    | cons =>
      dsimp only
      rw [if_pos (.inr (by rw [noneSaved]; exact Nat.succ_pos _))]
  have noSegment : cacheSegment snap pid 0 = .error (.fatalReadTable 0) := by
    rw [cacheSegment, notCached, noFile]
    rfl
  rw [logIndexReadTable, if_neg (fun held => used held.2), noSegment]
  rfl

theorem search_table_zero (pid : Nat) : searchTable cfg snap pid ⟨.forward, 0, 1, 0, 0⟩ =
      logIndexSetStartOrder cfg snap pid ⟨.backward, 0, 0, 0, 0⟩ := by
  have minId : snap.indexMeta.minSegmentInfo.minIdxTableId = 0 := by
    rw [rep.metaOk.minId, if_pos noneSaved]
  simp [searchTable, bind, Except.bind, logIndexSearchFileTblLsn, logIndexNextSearchFileTid,
    noneSaved, minId, searchFileTables]

theorem next_of_trap (used : (snap.memTable (slotOf cfg 0)).state ≠ .free) (pid : Nat) :
    polarLogindexLsnIteratorNext cfg snap pid ⟨.forward, 0, 1, 0, 0⟩ = .error
    (.fatalReadTable 0) := by
  have other : (snap.memTable (slotOf cfg 0)).data.idxTableId ≠ 0 := by
    rcases (rep.memory.slots _ (slot_of_lt cfg 0)).cases used with ⟨_, idEq, -, holds, -⟩
    rw [idEq]
    exact ne_of_gt holds.1
  have gotten : logIndexGetTableData cfg snap pid ⟨.backward, 0, 0, 0, 0⟩ = .error
    (.fatalReadTable 0) := by
    rw [logIndexGetTableData, if_neg other, if_neg (Nat.not_lt_zero _),
      read_table_zero rep noneSaved other pid]
    rfl
  rw [polarLogindexLsnIteratorNext, search_table_zero rep noneSaved pid, logIndexSetStartOrder,
    if_pos rfl, gotten]
  rfl

end

section
variable (rep : SnapRep cfg tabs snap) (activeRep : ActiveRep cfg tabs snap pending) (pid : Nat)
include rep activeRep

theorem Located.next_loop (located : Located tabs pending.isSome iter out)
    (reached : Reached tabs iter.startLsn) {fuel : Nat}
    (enough : tabs.length + 2 ≤ iter.idxTableId + fuel) :
    NextSpec cfg tabs pending snap iter out (nextLoop cfg pid fuel snap iter) := by
  rcases next_loop_spec pid fuel snap iter out rep activeRep located enough with
    ⟨after, placed, info, called, keeps, start, isHead, later⟩
  refine ⟨after, placed, info, called, keeps, start, ?_, .located _ _ later (start ▸ reached)⟩
  rw [located.wanted_eq, List.getElem?_append_right le_rfl, Nat.sub_self, isHead]
  cases fromAt tabs iter.idxTableId iter.idx <;> rfl

theorem search_table_spec (positive : 0 < iter.startLsn) (unset : iter.idxTableId = 0)
    (idx : iter.idx = 0) : Finds cfg tabs pending snap iter (searchTable cfg snap pid iter) := by
  have hunting : Hunting tabs tabs.length { iter with state := .forward, lastSearchTid := 0 } := by
    refine ⟨rfl, idx, le_rfl, ?_, .inl ⟨rfl, .inr ⟨rfl, unset⟩⟩⟩
    rw [drop_length]
    exact nofun
  rcases search_mem_tables_spec rep tabs.length _ hunting with ⟨_, saved, outcome, start⟩
  rw [searchTable, if_pos unset, logIndexSearchMemTblLsn, rep.count]
  generalize searchMemTables cfg snap tabs.length (slotOf cfg tabs.length)
    { iter with state := .forward, lastSearchTid := 0 } = searched at outcome start
  dsimp only at start
  rcases outcome with goesOn | missed | aimed
  · rw [set_start_order_idle (by rw [goesOn.state]; decide)]
    simp only [bind, Except.bind, if_pos goesOn.state]
    exact (goesOn.search_file rep activeRep pid saved (by omega) (by omega)).after
      (.refl rep activeRep) start
  · rw [set_start_order_idle (by rw [missed.state]; decide)]
    refine ⟨snap, searched, ?_, .refl rep activeRep, start, .inr missed⟩
    simp only [bind, Except.bind, if_neg (ended_not_forward (.inl missed))]
  · rcases aimed.placed rep activeRep pid with ⟨after, placed, called, keeps, same, found⟩
    refine ⟨after, placed, ?_, keeps, same.trans start, found⟩
    have ended : placed.state ≠ .forward := by
      rcases found with ⟨located, -⟩ | missed
      · rw [located.state]
        decide
      · rw [missed.state]
        decide
    simp only [called, bind, Except.bind, if_neg ended]

omit activeRep in
theorem next_of_finds (finds : Finds cfg tabs pending snap iter (searchTable cfg snap pid iter)) :
    NextSpec cfg tabs pending snap iter [] (polarLogindexLsnIteratorNext cfg snap pid iter) := by
  rcases finds with ⟨after, placed, called, keeps, start, found⟩
  have count := rep.count
  simp only [polarLogindexLsnIteratorNext, called, bind, Except.bind]
  rcases found with ⟨located, reached⟩ | missed
  · rw [if_pos located.state]
    have fuel : tabs.length + 2 ≤ placed.idxTableId + (snap.maxIdxTableId + 3) := by omega
    rcases located.next_loop keeps.rep keeps.activeRep pid reached fuel with
      ⟨later, next, info, loop, second, same, isNext, rep⟩
    rw [start] at same isNext
    exact ⟨later, next, info, loop, keeps.trans second, same, isNext, rep⟩
  · rw [if_neg (by rw [missed.state]; decide)]
    refine ⟨after, placed, none, rfl, keeps, start, ?_,
      .searching placed missed.positive missed.unset missed.idx⟩
    rw [← start, wanted_none missed.nothing]
    rfl

theorem next_of_free (noneSaved : snap.indexMeta.maxIdxTableId = 0)
    (isFree : (snap.memTable (slotOf cfg 0)).state = .free) :
    NextSpec cfg tabs pending snap ⟨.forward, 0, 1, 0, 0⟩ []
      (polarLogindexLsnIteratorNext cfg snap pid ⟨.forward, 0, 1, 0, 0⟩) := by
  have zeroed : (snap.memTable (slotOf cfg 0)).data = zeroTableData := by
    have slotRep := rep.memory.slots _ (slot_of_lt cfg 0)
    unfold SlotRep at slotRep
    rw [isFree] at slotRep
    exact slotRep
  have gotten : logIndexGetTableData cfg snap pid ⟨.backward, 0, 0, 0, 0⟩ =
      .ok (snap, some (zeroTableData, some .free)) := by
    rw [logIndexGetTableData, zeroed, isFree]
    rfl
  have located : Located tabs pending.isSome ⟨.backward, 0, 1, 0, 0⟩ [] := by
    refine ⟨rfl, Nat.one_pos, Nat.succ_le_succ (Nat.zero_le _), Nat.zero_le _, ?_, rfl,
      fun _ _ => Nat.zero_le _⟩
    intro past
    exact .inl (length_eq_zero_iff.mp (Nat.succ.inj past).symm)
  have called : polarLogindexLsnIteratorNext cfg snap pid ⟨.forward, 0, 1, 0, 0⟩ =
      nextLoop cfg pid (snap.maxIdxTableId + 2) snap ⟨.backward, 0, 1, 0, 0⟩ := by
    rw [polarLogindexLsnIteratorNext, search_table_zero rep noneSaved pid, logIndexSetStartOrder,
      if_pos rfl, gotten]
    change nextLoop cfg pid (snap.maxIdxTableId + 3) snap ⟨.backward, 0, 0, 0, 0⟩ = _
    rw [nextLoop, gotten]
    rfl
  rw [called]
  exact located.next_loop rep activeRep pid (.inl rfl) (by rw [rep.count]; dsimp only; omega)

theorem next_spec (iterRep : IterRep tabs pending.isSome iter out) (noTrap : ¬ Trap cfg snap iter) :
    NextSpec cfg tabs pending snap iter out (polarLogindexLsnIteratorNext cfg snap pid iter) := by
  cases iterRep with
  | located iter _ located reached =>
    have placed : searchTable cfg snap pid iter = .ok (snap, iter) := by
      rw [searchTable, if_neg (ne_of_gt located.positive)]
      simp only [bind, Except.bind]
      rw [if_neg (by rw [located.state]; decide)]
    simp only [polarLogindexLsnIteratorNext, placed, bind, Except.bind, if_pos located.state]
    exact located.next_loop rep activeRep pid reached (by rw [rep.count]; omega)
  | searching _ positive unset idx =>
    exact next_of_finds rep pid (search_table_spec rep activeRep pid positive unset idx)
  | untouched =>
    by_cases noneSaved : snap.indexMeta.maxIdxTableId = 0
    · by_cases isFree : (snap.memTable (slotOf cfg 0)).state = .free
      · exact next_of_free rep activeRep pid noneSaved isFree
      · exact absurd ⟨rfl, rfl, noneSaved, isFree⟩ noTrap
    · have hunting : Hunting tabs snap.indexMeta.maxIdxTableId ⟨.forward, 0, 1, 0, 0⟩ :=
        ⟨rfl, rfl, rep.metaOk.savedLe, fun _ _ => Nat.zero_le _, .inl ⟨rfl, .inl rfl⟩⟩
      exact next_of_finds rep pid
        (hunting.search_file rep activeRep pid le_rfl (fun _ => rfl) fun _ => noneSaved)

end

/-- Repeated calls of `next` return the wanted pairs that are left, and then `NULL`. -/
theorem drain_lsn_spec (pid fuel : Nat) : ∀ (snap : Snapshot Tag) (iter : LsnIter)
    (out : List (Tag × Nat)), SnapRep cfg tabs snap → ActiveRep cfg tabs snap pending →
    IterRep tabs pending.isSome iter out → 0 < iter.startLsn →
    (wanted iter.startLsn tabs.flatten).length < out.length + fuel →
    ∃ infos, drainLsnIterator cfg pid fuel snap iter = some infos ∧
      infos.map pairOf = (wanted iter.startLsn tabs.flatten).drop out.length := by
  induction fuel with
  | zero =>
    intro snap iter out rep activeRep iterRep positive enough
    have short := iterRep.prefix_wanted.length_le
    omega
  | succ _ ih =>
    intro snap iter _ rep activeRep iterRep positive enough
    have noTrap : ¬ Trap cfg snap iter := fun trap => ne_of_gt positive trap.1
    rcases next_spec rep activeRep pid iterRep noTrap with
      ⟨after, next, info, called, keeps, start, isNext, later⟩
    cases info with
    | none =>
      refine ⟨[], ?_, ?_⟩
      · rw [drainLsnIterator, called]
      · rw [drop_eq_nil_of_le (List.getElem?_eq_none_iff.mp isNext.symm)]
        rfl
    | some info =>
      rw [map_some] at isNext later
      have inside := (List.getElem?_eq_some_iff.mp isNext.symm).1
      rw [← start] at positive enough
      rcases ih after next _ keeps.rep keeps.activeRep later positive
        (by simp only [toList_some, length_append, length_singleton]; omega) with
        ⟨infos, drained, rest⟩
      refine ⟨info :: infos, ?_, ?_⟩
      · rw [drainLsnIterator, called]
        simp only [drained, map_some]
      · rw [drop_eq_getElem_cons inside, (List.getElem?_eq_some_iff.mp isNext.symm).2, map_cons,
          rest, start]
        simp

theorem drain_lsn_iterator (rep : SnapRep cfg tabs snap)
    (activeRep : ActiveRep cfg tabs snap pending) (pid : Nat) {start : Nat}
    (positive : 0 < start) :
    ∃ iter, polarLogindexCreateLsnIterator snap start = .ok iter ∧
        ∀ fuel, tabs.flatten.length < fuel → ∃ infos, drainLsnIterator cfg pid fuel snap iter =
          some infos ∧ infos.map pairOf = wanted start tabs.flatten := by
  refine ⟨⟨.forward, start, 0, 0, 0⟩, ?_, ?_⟩
  · have valid : start ≠ invalidLsn := ne_of_gt positive
    rw [polarLogindexCreateLsnIterator, if_neg valid]
  intro fuel _
  have short : (wanted start tabs.flatten).length ≤ tabs.flatten.length := by
    rw [wanted, length_map]
    exact length_filter_le _ _
  exact drain_lsn_spec pid fuel snap ⟨.forward, start, 0, 0, 0⟩ [] rep activeRep
    (.searching _ positive rfl rfl) positive (by simp only [length_nil]; omega)

end Next

section Grow
variable {Tag : Type} {tabs grown : List (List (LogIndexLsn Tag))} {iter : LsnIter}
  {out : List (Tag × Nat)} {info : LogIndexLsn Tag} {waiting later : Bool} {tid idx : Nat}

theorem AddTo.before_at (added : AddTo info waiting tabs grown) (positive : 0 < tid)
    (inRange : tid ≤ tabs.length + 1) (idxLe : idx ≤ (entriesAt tabs tid).length)
    (closed : tid = tabs.length + 1 → tabs = [] ∨ waiting = true) :
    beforeAt grown tid idx = beforeAt tabs tid idx ∧ idx ≤ (entriesAt grown tid).length ∧
    tid ≤ grown.length := by
  cases added with
  | sameTable front =>
    have inside : tid - 1 ≤ front.length := by
      rw [length_append, length_singleton] at inRange closed
      by_contra past
      rcases closed (by omega) with empty | waits
      · exact append_ne_nil_of_right_ne_nil _ (cons_ne_nil _ _) empty
      · cases waits
    simp only [beforeAt, entriesAt, take_append_of_le_length inside, length_append,
      length_singleton] at idxLe ⊢
    by_cases inFront : tid - 1 < front.length
    · rw [List.getElem?_append_left inFront] at idxLe ⊢
      rw [List.getElem?_append_left inFront]
      exact ⟨rfl, idxLe, by omega⟩
    · have last : tid - 1 = front.length := by omega
      rw [last, List.getElem?_concat_length] at idxLe ⊢
      rw [List.getElem?_concat_length]
      simp only [getD_some, length_append, length_singleton] at idxLe ⊢
      exact ⟨by rw [take_append_of_le_length idxLe], by omega, by omega⟩
  | newTable =>
    simp only [beforeAt, entriesAt, length_append, length_singleton,
      take_append_of_le_length (show tid - 1 ≤ tabs.length by omega)] at idxLe ⊢
    by_cases inside : tid - 1 < tabs.length
    · rw [List.getElem?_append_left inside]
      exact ⟨rfl, idxLe, by omega⟩
    · rw [List.getElem?_eq_none (not_lt.mp inside)] at idxLe ⊢
      have first : idx = 0 := Nat.le_zero.mp idxLe
      rw [first]
      exact ⟨by simp, Nat.zero_le _, by omega⟩

theorem Located.added (located : Located tabs waiting iter out)
    (added : AddTo info waiting tabs grown) (isWanted : iter.startLsn ≤ info.lsn) (later : Bool) :
    Located grown later iter out := by
  rcases added.before_at located.positive located.inRange located.idxLe located.closed with
    ⟨sameBefore, idxLe, inside⟩
  have from_ : fromAt grown iter.idxTableId iter.idx = fromAt tabs iter.idxTableId iter.idx ++
    [info] := by
    have split : beforeAt grown iter.idxTableId iter.idx ++ fromAt grown iter.idxTableId iter.idx =
        grown.flatten := before_from located.positive iter.idx
    rw [added.flatten, ← before_from located.positive iter.idx, sameBefore, append_assoc] at split
    exact append_cancel_left split
  refine ⟨located.state, located.positive, by omega, idxLe, fun past => by omega, ?_, ?_⟩
  · rw [sameBefore]
    exact located.returned
  rw [from_]
  exact Lib.Snoc.forall_mem_snoc.mpr ⟨located.above, isWanted⟩

theorem IterRep.step (iterRep : IterRep tabs waiting iter out)
    (step : TabStep waiting tabs later grown) (filled : [] ∉ tabs) (logOk : LogRep grown) :
    IterRep grown later iter out := by
  cases iterRep with
  | searching _ positive unset idx => exact .searching iter positive unset idx
  | untouched => exact .untouched
  | located _ _ located reached =>
    cases step with
    | keep _ _ _ kept =>
      refine .located iter out { located with closed := ?_ } reached
      exact fun past => (located.closed past).imp_right kept
    | added info _ _ _ added =>
      have sorted := logOk.sorted
      rw [added.flatten, pairwise_append] at sorted
      have latest : iter.startLsn ≤ info.lsn := by
        rcases reached with zero | ⟨entry, mem, isWanted⟩ | empty
        · omega
        · exact isWanted.trans (sorted.2.2 entry mem info mem_cons_self)
        · exact absurd empty filled
      refine .located iter out (located.added added latest false) (.inr (.inl ⟨info, ?_, latest⟩))
      rw [added.flatten]
      exact mem_concat_self

end Grow

section Session
variable {Tag : Type} [DecidableEq Tag] {cfg : Config Tag}

/-- A snapshot in use and one lsn iterator, with the pairs it has returned. -/
structure Session (Tag : Type) where
  run : RunState Tag
  iter : LsnIter
  out : List (Tag × Nat)

/-- Calls of `next` alternate in any way with adds, flushes and table reads. -/
inductive SessionStep (cfg : Config Tag) : Session Tag → Session Tag → Prop where
  | beside (session : Session Tag) (st : RunState Tag) (step : Step cfg session.run st) :
      SessionStep cfg session { session with run := st }
  | next (session : Session Tag) (pid : Nat) (after : Snapshot Tag) (iter : LsnIter)
      (info : Option (LogIndexLsn Tag))
      (call : polarLogindexLsnIteratorNext cfg session.run.snap pid session.iter = .ok (after,
        iter, info)) :
      SessionStep cfg session
        ⟨{ session.run with snap := after }, iter, session.out ++ (info.map pairOf).toList⟩

def SessionRun (cfg : Config Tag) : Session Tag → Session Tag → Prop :=
  Relation.ReflTransGen (SessionStep cfg)

structure SessionRep (cfg : Config Tag) (start : Nat) (tabs : List (List (LogIndexLsn Tag)))
    (session : Session Tag) : Prop where
  run : RunRep cfg tabs session.run
  filled : [] ∉ tabs
  iter : IterRep tabs session.run.pending.isSome session.iter session.out
  start : session.iter.startLsn = start

section
variable {start : Nat} {tabs : List (List (LogIndexLsn Tag))} {session : Session Tag}
  (rep : SessionRep cfg start tabs session) (pid : Nat)
include rep pid

theorem SessionRep.next (noTrap : ¬ Trap cfg session.run.snap session.iter) :
    NextSpec cfg tabs session.run.pending session.run.snap session.iter session.out
      (polarLogindexLsnIteratorNext cfg session.run.snap pid session.iter) :=
  next_spec rep.run.rep rep.run.activeRep pid rep.iter noTrap

theorem SessionRep.fatal (trap : Trap cfg session.run.snap session.iter) :
    polarLogindexLsnIteratorNext cfg session.run.snap pid session.iter = .error
    (.fatalReadTable 0) := by
  rcases trap with ⟨zero, forward, noneSaved, used⟩
  have iterRep := rep.iter
  generalize session.iter = iter, session.out = out at iterRep zero forward ⊢
  cases iterRep with
  | located _ _ located =>
    rw [located.state] at forward
    cases forward
  | searching _ positive => exact absurd zero (ne_of_gt positive)
  | untouched => exact next_of_trap rep.run.rep noneSaved used pid

end

section
variable {start : Nat} {tabs : List (List (LogIndexLsn Tag))} {session after : Session Tag}
  (rep : SessionRep cfg start tabs session)
include rep

theorem SessionRep.step (step : SessionStep cfg session after) :
    ∃ grown, SessionRep cfg start grown after := by
  cases step with
  | beside st step =>
    rcases rep.run.step step with ⟨grown, tabStep, run⟩
    exact ⟨grown, run, tabStep.filled rep.filled, rep.iter.step tabStep rep.filled run.rep.logOk,
      rep.start⟩
  | next pid _ _ _ call =>
    have noTrap : ¬ Trap cfg session.run.snap session.iter := by
      intro trap
      rw [rep.fatal pid trap] at call
      cases call
    rcases rep.next pid noTrap with ⟨_, _, _, called, keeps, start, -, iterRep⟩
    cases call.symm.trans called
    exact ⟨tabs, rep.run.beside keeps.rep keeps.keeps, rep.filled, iterRep, start.trans rep.start⟩

theorem SessionRep.run_of (run : SessionRun cfg session after) :
    ∃ grown, SessionRep cfg start grown after := by
  induction run with
  | refl => exact ⟨tabs, rep⟩
  | tail _ step reached =>
    rcases reached with ⟨_, rep⟩
    exact rep.step step

end

theorem create_lsn_iterator_spec {st : RunState Tag} (run : Run cfg .start st) (start : Nat) :
    ∃ iter, polarLogindexCreateLsnIterator st.snap start = .ok iter ∧
      ∃ tabs, SessionRep cfg start tabs ⟨st, iter, []⟩ := by
  rcases run_rep_of_run run with ⟨tabs, runRep, filled⟩
  rw [polarLogindexCreateLsnIterator]
  by_cases zero : start = invalidLsn
  · have first : ¬ 1 < st.snap.indexMeta.minSegmentInfo.minIdxTableId := by
      rw [runRep.rep.metaOk.minId]
      split_ifs <;> omega
    rw [if_pos zero, if_neg first]
    refine ⟨_, rfl, tabs, runRep, filled, ?_, rfl⟩
    rw [zero]
    exact .untouched
  · rw [if_neg zero]
    exact ⟨_, rfl, tabs, runRep, filled, .searching _ (Nat.pos_of_ne_zero zero) rfl rfl, rfl⟩

/-- What an lsn iterator has returned at any time is the beginning of the added pairs
from its start on, in insertion order. A call of `next` goes on with the pair that
follows, or returns `NULL` when there is none, unless it is the first call of an
iterator from start 0 while nothing is saved and the slot of table id 0 is in use. -/
theorem lsn_iterator_exact {st : RunState Tag} (run : Run cfg RunState.start st) (start : Nat) :
    ∃ iter, polarLogindexCreateLsnIterator st.snap start = .ok iter ∧
      ∀ session, SessionRun cfg ⟨st, iter, []⟩ session →
        session.out <+: wanted start session.run.log ∧
        ∀ pid, (∃ after next info,
            polarLogindexLsnIteratorNext cfg session.run.snap pid session.iter =
              .ok (after, next, info) ∧
            info.map pairOf = (wanted start session.run.log)[session.out.length]?) ↔
          ¬ Trap cfg session.run.snap session.iter := by
  rcases create_lsn_iterator_spec run start with ⟨iter, created, _, rep⟩
  refine ⟨iter, created, ?_⟩
  intro _ reached
  rcases rep.run_of reached with ⟨_, rep⟩
  rw [← rep.run.content, ← rep.start]
  refine ⟨rep.iter.prefix_wanted, fun pid => ⟨?_, ?_⟩⟩
  · rintro ⟨after, next, info, called, -⟩ trap
    rw [rep.fatal pid trap] at called
    cases called
  · intro noTrap
    rcases rep.next pid noTrap with ⟨after, next, info, called, -, -, isNext, -⟩
    exact ⟨after, next, info, called, isNext⟩

theorem lsn_iterator_exact_small : ∃ st, Run smallConfig RunState.start st ∧ st.log = smallLog ∧
    ∃ iter, polarLogindexCreateLsnIterator st.snap 5 = .ok iter ∧ ∃ after next info,
      polarLogindexLsnIteratorNext smallConfig st.snap 0 iter = .ok (after, next, some info) ∧
      pairOf info = (1, 5) := by
  rcases run_exists smallConfig small_log_ordered with ⟨st, run, -, logEq⟩
  rcases lsn_iterator_exact run 5 with ⟨iter, created, exact⟩
  have noTrap : ¬ Trap smallConfig st.snap iter := by
    rintro ⟨zero, -⟩
    cases created
    cases zero
  rcases ((exact _ .refl).2 0).mpr noTrap with ⟨after, next, info, called, isNext⟩
  have isFirst : info.map pairOf = some (1, 5) := by
    rw [isNext, logEq]
    rfl
  rcases map_eq_some_iff.mp isFirst with ⟨first, firstEq, pairEq⟩
  exact ⟨st, run, logEq, iter, created, after, next, first, firstEq ▸ called, pairEq⟩

/-- One pair is added to an empty snapshot of three tables; an iterator over everything
then fails. -/
theorem lsn_iterator_from_zero_fatal : ∃ (st : RunState Nat) (iter : LsnIter),
      Run smallConfig RunState.start st ∧ st.log = [⟨1, 5, 0⟩] ∧
      polarLogindexCreateLsnIterator st.snap 0 = .ok iter ∧
      polarLogindexLsnIteratorNext smallConfig st.snap 0 iter = .error (.fatalReadTable 0) := by
  have start : Run smallConfig .start .start := .refl
  -- the first add waits for its table and inserts once the table is open
  have waits :=
    start.tail (.add _ ⟨1, 5, 0⟩ _ _ rfl ⟨by decide, by decide, by decide, by decide⟩ rfl)
  have run := waits.tail (.resume _ _ false _ _ rfl rfl)
  rcases create_lsn_iterator_spec run 0 with ⟨iter, created, _, rep⟩
  refine ⟨_, iter, run, rfl, created, rep.fatal 0 ⟨rep.start, ?_, rfl, nofun⟩⟩
  split_ifs at created with zero open_
  all_goals
    cases created
    rfl

end Session

end PolarDB.LogIndex
