import PolarDB.LogIndex.Snapshot

/-!
# The page iterator

Source: `polar_logindex_iterator.c`. Creating the iterator walks the tables from the
newest to the oldest, memory first and then the saved ones, and pushes the page's
lsns inside `[min_lsn, max_lsn]` on a stack per table; `next` pops them in ascending
order. Every loop follows a counter of the source, the walk over an item's segments
has the size of the segment array as fuel. The iterator is created on one state of
the snapshot; reading saved tables may change it, so it is passed through.
`before_promote` is not modelled.
-/

namespace PolarDB.LogIndex

open Lib.Bloom

inductive IterState where
  | forward
  | backward
  | finished
  | hollow
  | corrupted
  deriving DecidableEq, Repr

-- LOG_INDEX_PAGE_STACK_ITEM_SIZE
def pageStackItemSize : Nat := 64

/-- `log_index_page_lsn_t`; `item_size` is the length of `lsn`. -/
structure PageLsn where
  iterPos : Nat
  lsn : List Nat
  prevLsn : Nat
  deriving DecidableEq, Repr

/-- `log_index_tbl_stack_lsn_t`, its blocks from the head on. -/
structure TblStack where
  prevPageLsn : Nat
  items : List PageLsn
  deriving DecidableEq, Repr

structure PageIter (Tag : Type) where
  tag : Tag
  key : Nat
  minLsn : Nat
  maxLsn : Nat
  iterPrevLsn : Nat
  iterMaxLsn : Nat
  state : IterState
  lsnStack : List TblStack
  deriving DecidableEq, Repr

/-- `log_index_tbl_stack_next_item` and the copy into the item it returns. -/
def tblStackPush (items : List PageLsn) (prevLsn lsn : Nat) : List PageLsn :=
  match items with
  | [] => [⟨1, [lsn], prevLsn⟩]
  | top :: rest =>
    if top.lsn.length = pageStackItemSize then ⟨1, [lsn], prevLsn⟩ :: top :: rest
    else ⟨top.lsn.length + 1, top.lsn ++ [lsn], prevLsn⟩ :: rest

/-- `log_index_tbl_stack_pop_lsn`: the previous lsn and the lsn of the next pair. -/
def logIndexTblStackPopLsn (items : List PageLsn) : Option ((Nat × Nat) × List PageLsn) :=
  match items with
  | [] => none
  | top :: rest =>
    let idx := top.iterPos - 1
    let prevLsn := if top.iterPos = top.lsn.length then top.prevLsn else top.lsn.getD (idx + 1) 0
    some ((prevLsn, top.lsn.getD idx 0),
      if idx = 0 then rest else { top with iterPos := idx } :: rest)

variable {Tag : Type}

/-- Push one lsn on the stack of the current table. -/
def PageIter.push (iter : PageIter Tag) (prevLsn lsn : Nat) : PageIter Tag :=
  match iter.lsnStack with
  | [] => iter
  | top :: rest =>
    { iter with lsnStack := { top with items := tblStackPush top.items prevLsn lsn } :: rest }

/-- `log_index_page_iterate_push_lsn`, from the entry before `size` down. The flag is
`prev_correct`. -/
def logIndexPageIteratePushLsn (table : LogIdxTableData Tag) (segId : Nat) :
    Nat → PageIter Tag × Bool → Except LogIndexError (PageIter Tag × Bool)
  | 0, walk => .ok walk
  | idx + 1, (iter, wasCorrect) =>
    let lsn := combineLsn table ((segSuffixes table segId).getD idx 0)
    let prevCorrect := wasCorrect || decide (lsn = iter.iterPrevLsn)
    if iter.minLsn ≤ lsn ∧ lsn ≤ iter.iterMaxLsn then
      if prevCorrect = false then .error .errorHollow
      else
        let pushed := iter.push (logIndexGetSegPrevLsn table segId idx) lsn
        if lsn = iter.minLsn then .ok ({ pushed with state := .finished }, prevCorrect)
        else logIndexPageIteratePushLsn table segId idx (pushed, prevCorrect)
    else if lsn < iter.minLsn then
      if prevCorrect = false then .error .errorHollow
      else .ok ({ iter with state := .finished }, prevCorrect)
    else logIndexPageIteratePushLsn table segId idx (iter, prevCorrect)

/-- The loop of `log_index_iterate_table_data` and the push of the head after it. -/
def iterateSegs (table : LogIdxTableData Tag) (item : LogItemHead Tag) :
    Nat → Nat → PageIter Tag × Bool → Except LogIndexError (PageIter Tag × Bool)
  | 0, _, _ => .error .panicItem
  | fuel + 1, segId, walk =>
    if segId = item.headSeg then
      logIndexPageIteratePushLsn table segId item.suffixLsn.length walk
    else
      match logIndexItemSeg table segId with
      | none => .error .panicItem
      | some seg =>
        if seg.suffixLsn.length = 0 then .error .panicItem
        else
          match logIndexPageIteratePushLsn table segId seg.suffixLsn.length walk with
          | .error stop => .error stop
          | .ok walked =>
            if walked.1.state = .forward then iterateSegs table item fuel seg.prevSeg walked
            else .ok walked

def logIndexIterateTableData (table : LogIdxTableData Tag) (item : LogItemHead Tag)
    (iter : PageIter Tag) : Except LogIndexError (PageIter Tag) :=
  if item.suffixLsn.length = 0 then .error .panicItem
  else if item.tailSeg = invalidSeg then .error .panicAssert
  else
    let opened := { iter with lsnStack := ⟨item.prevPageLsn, []⟩ :: iter.lsnStack }
    (iterateSegs table item memTblSegNum item.tailSeg
      (opened, decide (iter.iterPrevLsn = invalidLsn))).map Prod.fst

section Tables
variable [DecidableEq Tag]

/-- The previous lsn that the next table of the page has to end with. -/
def takePrevLsn (iter : PageIter Tag) : PageIter Tag :=
  match iter.lsnStack with
  | [] => iter
  | top :: _ =>
    if top.prevPageLsn ≠ invalidLsn then { iter with iterPrevLsn := top.prevPageLsn } else iter

def logIndexPushTblLsn (iter : PageIter Tag) (table : LogIdxTableData Tag) :
    Except LogIndexError (PageIter Tag) :=
  match logIndexTblFind iter.tag table iter.key with
  | none => .ok iter
  | some item =>
    let linked := takePrevLsn iter
    if linked.maxLsn < itemMinLsn table item then .ok linked
    else if logIndexItemMaxLsn table item < linked.minLsn then
      .ok { linked with state := .finished }
    else
      match logIndexIterateTableData table item linked with
      | .error stop => .error stop
      | .ok walked =>
        .ok { walked with iterMaxLsn := (logIndexItemMaxLsn table item + 1) % 2 ^ 64 }

def logIndexTableInRange (iter : PageIter Tag) (table : LogMemTable Tag) : PageIter Tag × Bool :=
  if table.state = .active then (iter, true)
  else if iter.maxLsn < table.data.minLsn then (iter, false)
  else if table.data.maxLsn < iter.minLsn then ({ iter with state := .finished }, false)
  else (iter, true)

/-- One memory table: `table_in_range`, then the push. -/
def pushMemTable (iter : PageIter Tag) (table : LogMemTable Tag) :
    Except LogIndexError (PageIter Tag) :=
  match logIndexTableInRange iter table with
  | (ranged, true) => logIndexPushTblLsn ranged table.data
  | (ranged, false) => .ok ranged

/-- `log_index_push_mem_tbl_lsn` from table `tid` in slot `slot` on. Returns the id
where the search left the memory tables. -/
def logIndexPushMemTblLsn (cfg : Config Tag) (snap : Snapshot Tag) :
    Nat → Nat → PageIter Tag → Except LogIndexError (PageIter Tag × Nat)
  | 0, _, iter => .ok ({ iter with state := .finished }, 0)
  | tid + 1, slot, iter =>
    let table := snap.memTable slot
    if table.data.idxTableId = tid + 1 ∧ table.state ≠ .free then
      match pushMemTable iter table with
      | .error stop => .error stop
      | .ok pushed =>
        if pushed.state = .forward then
          logIndexPushMemTblLsn cfg snap tid (prevSlot cfg slot) pushed
        else .ok (if tid = 0 then { pushed with state := .finished } else pushed, tid)
    else .ok (iter, tid + 1)

def logIndexCheckBloomNotExists (cfg : Config Tag) (snap : Snapshot Tag) (iter : PageIter Tag)
    (tid : Nat) : Except LogIndexError (PageIter Tag × Bool) :=
  let first := logIndexGetTblBloom snap.storage tid
  -- a page that was buffered before its second table was saved is read again
  let bloom :=
    if first.idxTableId = 0 then
      logIndexGetTblBloom (polarLogindexInvalidBloomCache snap.storage tid) tid
    else first
  if bloom.idxTableId ≠ tid then .error (.panicBloom tid)
  else if bloom.maxLsn < iter.minLsn then .ok ({ iter with state := .finished }, false)
  else .ok (iter, lacksElement cfg.kHashes bloom.bloomBytes iter.tag)

/-- One saved table: from a flushed slot if it is there, else from the file when the
bloom page does not rule the page out. -/
def pushFileTable (cfg : Config Tag) (pid tid : Nat) (snap : Snapshot Tag)
    (iter : PageIter Tag) : Except LogIndexError (Snapshot Tag × PageIter Tag) :=
  let memTable := snap.memTable (slotOf cfg tid)
  if memTable.state = .flushed ∧ memTable.data.idxTableId = tid then
    (logIndexPushTblLsn iter memTable.data).map fun pushed => (snap, pushed)
  else
    match logIndexCheckBloomNotExists cfg snap iter tid with
    | .error stop => .error stop
    | .ok (checked, notExists) =>
      if notExists = false ∧ checked.state = .forward then
        match logIndexReadTable cfg snap pid tid with
        | .error stop => .error stop
        | .ok (after, data, _) =>
          (logIndexPushTblLsn checked data).map fun pushed => (after, pushed)
      else .ok (snap, checked)

/-- The loop of `log_index_push_file_tbl_lsn`. -/
def pushFileTables (cfg : Config Tag) (pid minId : Nat) :
    Nat → Snapshot Tag → PageIter Tag → Except LogIndexError (Snapshot Tag × PageIter Tag)
  | 0, snap, iter => .ok (snap, iter)
  | tid + 1, snap, iter =>
    if minId ≤ tid + 1 ∧ iter.state = .forward then
      match pushFileTable cfg pid (tid + 1) snap iter with
      | .error stop => .error stop
      | .ok (after, pushed) => pushFileTables cfg pid minId tid after pushed
    else .ok (snap, iter)

/-- `log_index_push_file_tbl_lsn`. The meta is read again from its file when it does
not cover the table. -/
def logIndexPushFileTblLsn (cfg : Config Tag) (pid tid : Nat) (snap : Snapshot Tag)
    (iter : PageIter Tag) : Except LogIndexError (Snapshot Tag × PageIter Tag) :=
  let refreshed :=
    if snap.indexMeta.maxIdxTableId < tid then
      { snap with indexMeta := snap.storage.metaFile }
    else snap
  if refreshed.indexMeta.maxIdxTableId < tid then .error .errorHollow
  else pushFileTables cfg pid refreshed.indexMeta.minSegmentInfo.minIdxTableId tid refreshed iter

/-- `polar_logindex_create_page_iterator` by process `pid`. -/
def polarLogindexCreatePageIterator (cfg : Config Tag) (snap : Snapshot Tag) (pid : Nat)
    (tag : Tag) (minLsn maxLsn : Nat) : Except LogIndexError (Snapshot Tag × PageIter Tag) :=
  if ¬minLsn < maxLsn then .error .panicAssert
  else
    let iter : PageIter Tag :=
      { tag := tag
        key := hashKey cfg tag
        minLsn := minLsn
        maxLsn := maxLsn
        iterPrevLsn := invalidLsn
        iterMaxLsn := maxLsn
        state := .forward
        lsnStack := [] }
    match logIndexPushMemTblLsn cfg snap snap.maxIdxTableId (slotOf cfg snap.maxIdxTableId)
      iter with
    | .error stop => .error stop
    | .ok (searched, tid) =>
      if searched.state = .forward then
        (logIndexPushFileTblLsn cfg pid tid snap searched).map fun (after, pushed) =>
          (after, { pushed with state := .finished })
      else .ok (snap, searched)

end Tables

/-- `polar_logindex_page_iterator_next` on the stack: `none` is `NULL`. -/
def popStack : List TblStack → Option ((Nat × Nat) × List TblStack)
  | [] => none
  | top :: rest =>
    match logIndexTblStackPopLsn top.items with
    | some (pair, items) => some (pair, { top with items := items } :: rest)
    | none => popStack rest

def polarLogindexPageIteratorNext (iter : PageIter Tag) : Option (LogIndexLsn Tag × PageIter Tag) :=
  (popStack iter.lsnStack).map fun ((prevLsn, lsn), stack) =>
    (⟨iter.tag, lsn, prevLsn⟩, { iter with lsnStack := stack })

/-- Call `next` until it returns `NULL`. -/
def drainPageIterator : Nat → PageIter Tag → Option (List (LogIndexLsn Tag))
  | 0, _ => none
  | fuel + 1, iter =>
    match polarLogindexPageIteratorNext iter with
    | none => some []
    | some (info, rest) => (drainPageIterator fuel rest).map (info :: ·)

end PolarDB.LogIndex
