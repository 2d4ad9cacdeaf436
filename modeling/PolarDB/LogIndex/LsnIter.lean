import PolarDB.LogIndex.PageIter

/-!
# The lsn iterator

Source: `polar_logindex_iterator.c`. The first `next` searches the table that holds
the first pair at or above `start_lsn`, from the newest table back, in memory and then
in the files; later calls read on in insertion order. A pair is a position: a table
id and an index into the table's order array. The loop of `next` gets as fuel more
rounds than there are tables.
-/

namespace PolarDB.LogIndex

structure LsnIter where
  state : IterState
  startLsn : Nat
  idxTableId : Nat
  idx : Nat
  lastSearchTid : Nat
  deriving DecidableEq, Repr

variable {Tag : Type}

def polarLogindexCreateLsnIterator (snap : Snapshot Tag) (lsn : Nat) :
    Except LogIndexError LsnIter :=
  if lsn = invalidLsn then
    if 1 < snap.indexMeta.minSegmentInfo.minIdxTableId then .error .panicLsnIterator
    else .ok ⟨.forward, lsn, 1, 0, 0⟩
  else .ok ⟨.forward, lsn, 0, 0, 0⟩

def logIndexSetSearchTable (iter : LsnIter) (table : LogIdxTableData Tag) : LsnIter :=
  let searched :=
    if table.maxLsn ≠ invalidLsn then
      if table.maxLsn < iter.startLsn then
        -- the first table of the search
        if iter.lastSearchTid = 0 then { iter with state := .finished }
        else { iter with idxTableId := table.idxTableId + 1, state := .backward }
      else if table.minLsn ≤ iter.startLsn then
        if iter.startLsn ≠ table.minLsn then
          { iter with idxTableId := table.idxTableId, state := .backward }
        else { iter with idxTableId := table.idxTableId }
      else iter
    else iter
  { searched with lastSearchTid := table.idxTableId }

/-- The loop of `log_index_set_search_start_order` over the orders from `order` on. -/
def startOrderLoop (table : LogIdxTableData Tag) (startLsn : Nat) : Nat → Nat →
    Except LogIndexError (Option Nat)
  | 0, _ => .ok none
  | left + 1, order =>
    match logIndexGetOrderLsn table order with
    | none => .error .panicAssert
    | some info =>
      if startLsn ≤ info.lsn then .ok (some order) else startOrderLoop table startLsn left
        (order + 1)

def logIndexSetSearchStartOrder (iter : LsnIter) (table : LogIdxTableData Tag) :
    Except LogIndexError LsnIter :=
  if table.idxTableId ≠ iter.idxTableId then .ok iter
  else
    (startOrderLoop table iter.startLsn table.idxOrder.length 0).map fun
      | some order => { iter with idx := order }
      | none => iter

section
variable (cfg : Config Tag) (snap : Snapshot Tag) (pid : Nat) (iter : LsnIter)

/-- `log_index_get_table_data`: the data, with the state of the memory table it was
returned from, if it was. -/
def logIndexGetTableData :
    Except LogIndexError (Snapshot Tag × Option (LogIdxTableData Tag × Option MemTblState)) :=
  let table := snap.memTable (slotOf cfg iter.idxTableId)
  if table.data.idxTableId = iter.idxTableId then .ok (snap, some (table.data, some table.state))
  else if snap.indexMeta.maxIdxTableId < iter.idxTableId then .ok (snap, none)
  else
    (logIndexReadTable cfg snap pid iter.idxTableId).map fun (after, data, fromMemory) =>
      (after, some (data, if fromMemory then some .flushed else none))

def logIndexSetStartOrder : Except LogIndexError (Snapshot Tag × LsnIter) :=
  if iter.state = .backward then
    match logIndexGetTableData cfg snap pid iter with
    | .error stop => .error stop
    | .ok (after, none) => .ok (after, iter)
    | .ok (after, some (data, _)) =>
      (logIndexSetSearchStartOrder iter data).map fun placed => (after, placed)
  else .ok (snap, iter)

/-- The loop of `log_index_search_mem_tbl_lsn`. -/
def searchMemTables (cfg : Config Tag) (snap : Snapshot Tag) : Nat → Nat → LsnIter → LsnIter
  | 0, _, iter => iter
  | tid + 1, slot, iter =>
    let table := snap.memTable slot
    if table.data.idxTableId = tid + 1 ∧ table.state ≠ .free then
      let searched := logIndexSetSearchTable iter table.data
      if searched.state = .forward then
        searchMemTables cfg snap tid (prevSlot cfg slot) searched
      else searched
    else iter

def logIndexSearchMemTblLsn : Except LogIndexError (Snapshot Tag × LsnIter) :=
  logIndexSetStartOrder cfg snap pid
    (searchMemTables cfg snap snap.maxIdxTableId (slotOf cfg snap.maxIdxTableId) iter)

/-- `log_index_next_search_file_tid`; `none` is a hollow. -/
def logIndexNextSearchFileTid (prevTid : Nat) (indexMeta : LogIndexMeta) : Option Nat :=
  if prevTid = 0 then some indexMeta.maxIdxTableId
  else if prevTid - 1 = 0 then some 0
  else if indexMeta.maxIdxTableId < prevTid - 1 then none
  else some (prevTid - 1)

/-- The loop of `log_index_search_file_tbl_lsn`. -/
def searchFileTables (cfg : Config Tag) (pid minId : Nat) :
    Nat → Snapshot Tag → LsnIter → Except LogIndexError (Snapshot Tag × LsnIter)
  | 0, snap, iter => .ok (snap, iter)
  | tid + 1, snap, iter =>
    if minId ≤ tid + 1 ∧ iter.state = .forward then
      match logIndexReadTable cfg snap pid (tid + 1) with
      | .error stop => .error stop
      | .ok (after, data, _) =>
        searchFileTables cfg pid minId tid after (logIndexSetSearchTable iter data)
    else .ok (snap, iter)

def logIndexSearchFileTblLsn : Except LogIndexError (Snapshot Tag × LsnIter) :=
  let indexMeta := snap.indexMeta
  if indexMeta.maxLsn < iter.startLsn then
    .ok (snap,
      if iter.lastSearchTid = 0 then { iter with state := .finished }
      else { iter with idxTableId := iter.lastSearchTid, state := .backward })
  else
    match logIndexNextSearchFileTid iter.lastSearchTid indexMeta with
    | none => .error .errorHollow
    | some tid =>
      match searchFileTables cfg pid indexMeta.minSegmentInfo.minIdxTableId tid snap iter with
      | .error stop => .error stop
      | .ok (after, searched) =>
        logIndexSetStartOrder cfg after pid
          (if searched.state = .forward then
            { searched with
              idxTableId := indexMeta.minSegmentInfo.minIdxTableId, state := .backward }
          else searched)

/-- `log_index_lsn_iterator_update`: whether the iterator went on to the next table.
An active table may still grow, so its end is not the end of the table. -/
def logIndexLsnIteratorUpdate (iter : LsnIter) (memState : Option MemTblState)
    (data : LogIdxTableData Tag) : LsnIter × Bool :=
  if memState ≠ some .active ∧ iter.idx = data.idxOrder.length then
    ({ iter with idx := 0, idxTableId := iter.idxTableId + 1 }, true)
  else (iter, false)

/-- The loop of `polar_logindex_lsn_iterator_next`. -/
def nextLoop (cfg : Config Tag) (pid : Nat) : Nat → Snapshot Tag → LsnIter →
      Except LogIndexError (Snapshot Tag × LsnIter × Option (LogIndexLsn Tag))
  | 0, snap, iter => .ok (snap, iter, none)
  | fuel + 1, snap, iter =>
    match logIndexGetTableData cfg snap pid iter with
    | .error stop => .error stop
    | .ok (after, none) => .ok (after, iter, none)
    | .ok (after, some (data, memState)) =>
      match logIndexGetOrderLsn data iter.idx with
      | some info =>
        .ok (after, (logIndexLsnIteratorUpdate { iter with idx := iter.idx + 1 } memState data).1,
          some info)
      | none =>
        let (updated, newTable) := logIndexLsnIteratorUpdate iter memState data
        if newTable then nextLoop cfg pid fuel after updated else .ok (after, updated, none)

/-- The searches of the first `next`, and of every `next` until one finds a table. -/
def searchTable : Except LogIndexError (Snapshot Tag × LsnIter) := do
  let (searched, hunting) ←
    if iter.idxTableId = 0 then
      logIndexSearchMemTblLsn cfg snap pid { iter with state := .forward, lastSearchTid := 0 }
    else .ok (snap, iter)
  if hunting.state = .forward then logIndexSearchFileTblLsn cfg searched pid hunting
  else .ok (searched, hunting)

/-- `polar_logindex_lsn_iterator_next` by process `pid`; `none` is `NULL`. -/
def polarLogindexLsnIteratorNext :
    Except LogIndexError (Snapshot Tag × LsnIter × Option (LogIndexLsn Tag)) := do
  let (searched, placed) ← searchTable cfg snap pid iter
  if placed.state = .backward then nextLoop cfg pid (snap.maxIdxTableId + 3) searched placed
  else .ok (searched, placed, none)

end

/-- Call `next` until it returns `NULL`; `none` when a call fails. -/
def drainLsnIterator (cfg : Config Tag) (pid : Nat) : Nat → Snapshot Tag → LsnIter →
    Option (List (LogIndexLsn Tag))
  | 0, _, _ => none
  | fuel + 1, snap, iter =>
    match polarLogindexLsnIteratorNext cfg snap pid iter with
    | .error _ => none
    | .ok (_, _, none) => some []
    | .ok (after, next, some info) =>
      (drainLsnIterator cfg pid fuel after next).map fun infos => info :: infos

end PolarDB.LogIndex
