import PolarDB.Lib.Bloom
import PolarDB.LogIndex.Table

/-!
# The logindex snapshot: memory tables, saved tables, and the steps that move them

Source: `polar_logindex.c`. Memory tables form a ring; the table with id `tid`
lives in slot `(tid - 1) % mem_tbl_size`. A writable node saves tables in the order
of their ids, together with a bloom page and the meta. `add` is one call of
`polar_logindex_add_lsn`: it may stop in `log_index_wait_active`, whose loop body is
the step `resume`, so that flushes and readers run while it waits. The body of the
flush loop is one step for the same reason. Whether `table_flushable` lets a table
go is an input of each step.

Not modelled: crc, i/o errors, the local segment cache, read-only nodes and the
bookkeeping of online promote.
-/

namespace PolarDB.LogIndex

open Function Lib.Linked PolarDB.Lib.Bloom

-- LOG_INDEX_TABLE_NUM_PER_FILE for 8 kB blocks and LOG_INDEX_FILE_TBL_BLOOM_SIZE.
def tableNumPerFile : Nat := 64
def blockSize : Nat := 8192
def fileTblBloomSize : Nat := 4096

/-- The parts of a snapshot that never change. The source stops at start-up when
there are fewer than three memory tables. -/
structure Config (Tag : Type) where
  memTblSize : Nat
  atLeastThree : 3 ≤ memTblSize
  tagHash : Tag → Nat
  kHashes : Tag → List Nat
  flushActiveTable : Bool

structure FileSegment where
  segmentNo : Nat
  maxLsn : Nat
  maxIdxTableId : Nat
  minIdxTableId : Nat
  deriving DecidableEq, Repr

structure LogIndexMeta where
  maxIdxTableId : Nat
  minSegmentInfo : FileSegment
  startLsn : Nat
  maxLsn : Nat
  deriving DecidableEq, Repr

def zeroMeta : LogIndexMeta := ⟨0, ⟨0, 0, 0, 0⟩, invalidLsn, invalidLsn⟩

structure TableBloom where
  idxTableId : Nat
  minLsn : Nat
  maxLsn : Nat
  bloomBytes : Filter

def zeroBloom : TableBloom := ⟨0, 0, 0, emptyFilter⟩

/-- The bloom data by their byte offset in a page. -/
abbrev BloomPage := Nat → TableBloom

/-- What survives a restart, and the buffered bloom pages, which do not. A segment file is
the list of the tables written to it, at their offsets; an empty list is a file that does
not exist. -/
structure Storage (Tag : Type) where
  segFile : Nat → List (LogIdxTableData Tag)
  bloomPage : Nat → BloomPage
  bloomBuffer : Nat → Option BloomPage
  metaFile : LogIndexMeta

/-- `log_table_cache_t`, private to a process. -/
structure TableCache (Tag : Type) where
  minIdxTableId : Nat
  maxIdxTableId : Nat
  data : List (LogIdxTableData Tag)

structure Snapshot (Tag : Type) where
  memTable : Nat → LogMemTable Tag
  activeTable : Nat
  maxIdxTableId : Nat
  maxLsn : Nat
  adding : Bool
  indexMeta : LogIndexMeta
  storage : Storage Tag
  lastFlushMaxLsn : Nat
  tableCache : Nat → Option (TableCache Tag)

/-- The ways an operation stops: `FATAL` and `ERROR` end the process or its
transaction, a failed assertion stops the server. -/
inductive LogIndexError where
  | fatalSaveTable (tid : Nat)
  | fatalReadTable (tid : Nat)
  | panicReadTable (tid : Nat)
  | panicBloom (tid : Nat)
  | panicAssert
  | panicItem
  | panicLsnIterator
  | errorHollow
  deriving DecidableEq, Repr

variable {Tag : Type}

/-- `LOG_INDEX_MEM_TBL_HASH_PAGE`. -/
def hashKey (cfg : Config Tag) (tag : Tag) : Nat := cfg.tagHash tag % memTblHashNum

/-- `tid - 1` on an unsigned 64-bit table id. -/
def tidPred (tid : Nat) : Nat := if tid = 0 then uint64Max else tid - 1

def slotOf (cfg : Config Tag) (tid : Nat) : Nat := tidPred tid % cfg.memTblSize

/-- `LOG_INDEX_MEM_TBL_NEXT_ID` and `LOG_INDEX_MEM_TBL_PREV_ID`. -/
def nextSlot (cfg : Config Tag) (slot : Nat) : Nat :=
  if slot = cfg.memTblSize - 1 then 0 else slot + 1

def prevSlot (cfg : Config Tag) (slot : Nat) : Nat :=
  if slot = 0 then cfg.memTblSize - 1 else slot - 1

def segmentNo (tid : Nat) : Nat := tidPred tid / tableNumPerFile
def segmentOffset (tid : Nat) : Nat := tidPred tid % tableNumPerFile

/-- `LOG_INDEX_TBL_BLOOM_PAGE_NO`, an `int`, and `LOG_INDEX_TBL_BLOOM_PAGE_OFFSET`. -/
def bloomPageNo (tid : Nat) : Nat := tidPred tid * fileTblBloomSize / blockSize
def bloomPageOffset (tid : Nat) : Nat := tidPred tid * fileTblBloomSize % blockSize

def setSlot (snap : Snapshot Tag) (slot : Nat) (table : LogMemTable Tag) : Snapshot Tag :=
  { snap with memTable := update snap.memTable slot table }

@[simp]
theorem set_slot_mem_table (snap : Snapshot Tag) (slot : Nat) (table : LogMemTable Tag) :
    (setSlot snap slot table).memTable = update snap.memTable slot table := rfl

def emptyStorage : Storage Tag := ⟨fun _ => [], fun _ _ => zeroBloom, fun _ => none, zeroMeta⟩

/-- A snapshot after `polar_logindex_snapshot_init` found no saved table. -/
def emptySnapshot : Snapshot Tag where
  memTable := fun _ => zeroMemTable
  activeTable := 0
  maxIdxTableId := 0
  maxLsn := invalidLsn
  adding := false
  indexMeta := zeroMeta
  storage := emptyStorage
  lastFlushMaxLsn := invalidLsn
  tableCache := fun _ => none

/-- The item heads `log_index_calc_bloom` visits, bucket by bucket. -/
def tableItems (table : LogIdxTableData Tag) : List (LogItemHead Tag) :=
  (List.range memTblHashNum).flatMap fun key =>
    (traverse (nextItemOf table) invalidSeg memTblSegNum (table.hash key)).filterMap
      (logIndexItemHead table)

def logIndexGetBloomData (cfg : Config Tag) (table : LogIdxTableData Tag) (tid : Nat) :
    TableBloom where
  idxTableId := tid
  minLsn := (tableItems table).foldl (fun least item => min least (itemMinLsn table item)) uint64Max
  maxLsn := (tableItems table).foldl
    (fun greatest item => max greatest (logIndexItemMaxLsn table item)) invalidLsn
  bloomBytes := ((tableItems table).map LogItemHead.tag).foldl (addElement cfg.kHashes) emptyFilter

/-- `SimpleLruReadPage`: a buffered page is not read from the file. -/
def readBloomPage (storage : Storage Tag) (pageno : Nat) : BloomPage :=
  (storage.bloomBuffer pageno).getD (storage.bloomPage pageno)

/-- The first table of a bloom page starts a zeroed page. -/
def logIndexGetBloomLru (storage : Storage Tag) (tid : Nat) : BloomPage :=
  if bloomPageOffset tid = 0 then fun _ => zeroBloom else readBloomPage storage (bloomPageNo tid)

/-- `log_index_save_bloom` writes the buffered page at once. -/
def logIndexSaveBloom (storage : Storage Tag) (tid : Nat) (bloom : TableBloom) : Storage Tag :=
  let page := update (logIndexGetBloomLru storage tid) (bloomPageOffset tid) bloom
  { storage with
    bloomPage := update storage.bloomPage (bloomPageNo tid) page
    bloomBuffer := update storage.bloomBuffer (bloomPageNo tid) (some page) }

def logIndexGetTblBloom (storage : Storage Tag) (tid : Nat) : TableBloom :=
  readBloomPage storage (bloomPageNo tid) (bloomPageOffset tid)

def polarLogindexInvalidBloomCache (storage : Storage Tag) (tid : Nat) : Storage Tag :=
  { storage with bloomBuffer := update storage.bloomBuffer (bloomPageNo tid) none }

/-- Write one table at its offset; a gap reads as zeroed tables. -/
def writeAt (file : List (LogIdxTableData Tag)) (offset : Nat) (table : LogIdxTableData Tag) :
    List (LogIdxTableData Tag) :=
  if offset < file.length then file.set offset table
  else file ++ List.replicate (offset - file.length) zeroTableData ++ [table]

/-- `log_index_save_table`: the saved bounds are the ones of the bloom data. -/
def logIndexSaveTable (storage : Storage Tag) (table : LogIdxTableData Tag) (bloom : TableBloom) :
    Storage Tag × LogIdxTableData Tag :=
  let saved := { table with minLsn := bloom.minLsn, maxLsn := bloom.maxLsn }
  let segno := segmentNo table.idxTableId
  ({ storage with
      segFile := update storage.segFile segno
        (writeAt (storage.segFile segno) (segmentOffset table.idxTableId) saved) },
    saved)

section
variable (cfg : Config Tag) (snap : Snapshot Tag)

/-- `log_index_write_table_data`. An active table is copied first when
`flush_active_table` is set, so only the copy gets the bloom's bounds. -/
def logIndexWriteTableData (slot : Nat) : Snapshot Tag :=
  let table := snap.memTable slot
  let tid := table.data.idxTableId
  let bloom := logIndexGetBloomData cfg table.data tid
  let (storage, saved) := logIndexSaveTable (logIndexSaveBloom snap.storage tid bloom)
    table.data bloom
  let written := { snap with storage := storage }
  if table.state = .active ∧ cfg.flushActiveTable = true then written
  else setSlot written slot { table with data := saved }

def polarLogIndexWriteMeta (indexMeta : LogIndexMeta) : Snapshot Tag :=
  let started :=
    if indexMeta.maxLsn ≠ invalidLsn then { indexMeta with startLsn := indexMeta.maxLsn }
      else indexMeta
  { snap with
    indexMeta := started
    storage := { snap.storage with metaFile := started } }

/-- The meta after saving a table that is no longer active. -/
def metaAfterSave (old : LogIndexMeta) (tid maxLsn : Nat) : LogIndexMeta :=
  let segno := min old.minSegmentInfo.segmentNo (segmentNo tid)
  let minSeg := { old.minSegmentInfo with segmentNo := segno }
  { old with
    maxIdxTableId := max old.maxIdxTableId tid
    maxLsn := max old.maxLsn maxLsn
    minSegmentInfo :=
      if segno = segmentNo tid then
        { minSeg with
          maxLsn := max maxLsn minSeg.maxLsn
          maxIdxTableId := max tid minSeg.maxIdxTableId
          minIdxTableId := segno * tableNumPerFile + 1 }
      else minSeg }

def setState (table : LogMemTable Tag) (st : MemTblState) : LogMemTable Tag :=
  { table with state := st }

/-- `log_index_write_table`: only the table after the last saved one is written. -/
def logIndexWriteTable (slot : Nat) : Snapshot Tag × Bool :=
  let table := snap.memTable slot
  if table.data.idxTableId = snap.indexMeta.maxIdxTableId + 1 then
    let written := logIndexWriteTableData cfg snap slot
    if table.state = .active then (written, true)
    else
      let saved := written.memTable slot
      let flushed := polarLogIndexWriteMeta written
        (metaAfterSave snap.indexMeta table.data.idxTableId saved.data.maxLsn)
      (setSlot flushed slot (setState saved .flushed), true)
  else (snap, false)

/-- `log_index_force_save_table` on a writable node. -/
def logIndexForceSaveTable (slot : Nat) (flushable : Bool) : Except LogIndexError (Snapshot Tag) :=
  if flushable then
    match logIndexWriteTable cfg snap slot with
    | (saved, true) => .ok saved
    | (_, false) => .error (.fatalSaveTable (snap.memTable slot).data.idxTableId)
  else .ok snap

def memTblNewActive (slot lsn : Nat) : Snapshot Tag :=
  let table := snap.memTable slot
  let tid := snap.maxIdxTableId + 1
  setSlot { snap with maxIdxTableId := tid } slot
    { freeHead := 1
      state := .active
      data :=
        { table.data with
          idxTableId := tid
          maxLsn := invalidLsn
          minLsn := uint64Max
          prefixLsn := prefixOf lsn } }

/-- The second half of a round of `log_index_wait_active`: a flushed slot is cleared,
a free one becomes the active table. -/
def reopenSlot (saved : Snapshot Tag) (slot lsn : Nat) : Snapshot Tag :=
  let cleared :=
    if (saved.memTable slot).state = .flushed then setSlot saved slot zeroMemTable else saved
  if (cleared.memTable slot).state = .free then memTblNewActive cleared slot lsn else cleared

/-- One round of the loop of `log_index_wait_active`, and whether it ends the loop. -/
def logIndexWaitActive (slot lsn : Nat) (flushable : Bool) :
    Except LogIndexError (Snapshot Tag × Bool) := do
  let saved ←
    if (snap.memTable slot).state = .inactive then
      logIndexForceSaveTable cfg snap slot flushable
    else .ok snap
  let opened := reopenSlot saved slot lsn
  let table := opened.memTable slot
  .ok (opened, decide (table.state = .active) && !decide (memTblFull table))

/-- An insert that waits for a table: the slot it waits for, whether this slot is to
become the active one, and whether the page gets a new item. -/
structure PendingAdd (Tag : Type) where
  info : LogIndexLsn Tag
  slot : Nat
  switching : Bool
  newItem : Bool
  deriving DecidableEq, Repr

/-- What one round of `log_index_next_free_seg` found. -/
inductive FreeSeg where
  | found (dst : Nat)
  | wait (slot : Nat) (switching : Bool)
  deriving DecidableEq, Repr

def updateFreeHead (table : LogMemTable Tag) : LogMemTable Tag :=
  { table with freeHead := table.freeHead + 1 }

def setPrefixLsn (table : LogMemTable Tag) (lsn : Nat) : LogMemTable Tag :=
  { table with data := { table.data with prefixLsn := prefixOf lsn } }

/-- One round of the loop of `log_index_next_free_seg`, up to the wait. -/
def logIndexNextFreeSeg (lsn : Nat) : Snapshot Tag × FreeSeg :=
  let slot := snap.activeTable
  let active := snap.memTable slot
  if active.state = .active then
    if memTblIsNew active then
      (setSlot snap slot (updateFreeHead (setPrefixLsn active lsn)), .found active.freeHead)
    else if memTblFull active ∨ ¬sameTableLsnPrefix active.data lsn then
      (setSlot snap slot (setState active .inactive), .wait (nextSlot cfg slot) true)
    else (setSlot snap slot (updateFreeHead active), .found active.freeHead)
  else (snap, .wait slot false)

def putActiveData (data : LogIdxTableData Tag) : Snapshot Tag :=
  let slot := snap.activeTable
  { setSlot snap slot { snap.memTable slot with data := data } with maxLsn := data.maxLsn }

def insertIntoFresh (info : LogIndexLsn Tag) (head dst : Nat) (newItem : Bool) :
    Except LogIndexError (Snapshot Tag) :=
  if dst ≠ invalidSeg ∧ dst < memTblSegNum then
    let data := (snap.memTable snap.activeTable).data
    .ok (putActiveData snap
      (insertIntoSeg data (hashKey cfg info.tag) head dst newItem info))
  else .error .panicAssert

/-- How far an add got. -/
inductive AddResult (Tag : Type) where
  | ignored
  | inserted
  | waiting (pending : PendingAdd Tag)
  deriving DecidableEq, Repr

section Add
variable [DecidableEq Tag]

/-- The head a page already has in the active table, for an lsn of the table's prefix. -/
def activeHead (active : LogMemTable Tag) (info : LogIndexLsn Tag) : Nat :=
  if active.state = .active ∧ sameTableLsnPrefix active.data info.lsn then
    logIndexMemTblExistsPage info.tag active.data (hashKey cfg info.tag)
  else invalidSeg

/-- `log_index_insert_lsn` up to its end or to the first wait. -/
def logIndexInsertLsn (info : LogIndexLsn Tag) :
    Except LogIndexError (Snapshot Tag × AddResult Tag) :=
  let active := snap.memTable snap.activeTable
  let head := activeHead cfg active info
  if head ≠ invalidSeg ∧ logIndexMemSegFull active.data head = false then
    if tailAsserts active.data head info then
      .ok (putActiveData snap (insertIntoTail active.data head info), .inserted)
    else .error .panicAssert
  else
    match logIndexNextFreeSeg cfg snap info.lsn with
    | (advanced, .found dst) => do
        let inserted ← insertIntoFresh cfg advanced info head dst (decide (head = invalidSeg))
        .ok (inserted, .inserted)
    | (waiting, .wait slot switching) =>
      .ok (waiting, .waiting ⟨info, slot, switching, decide (head = invalidSeg) || switching⟩)

/-- One more round of a waiting insert, to its end when the awaited table is open. -/
def resumeInsertLsn (pending : PendingAdd Tag) (flushable : Bool) :
    Except LogIndexError (Snapshot Tag × AddResult Tag) := do
  let (waited, done) ←
    logIndexWaitActive cfg snap pending.slot pending.info.lsn flushable
  if done then
    let switched :=
      if pending.switching then { waited with activeTable := pending.slot } else waited
    match logIndexNextFreeSeg cfg switched pending.info.lsn with
    | (advanced, .found dst) => do
        let inserted ←
          insertIntoFresh cfg advanced pending.info invalidSeg dst pending.newItem
        .ok (inserted, .inserted)
    | (again, .wait slot switching) =>
      -- `next_mem_id` keeps its value over the rounds of one call
      .ok (again, .waiting
        { pending with
          slot := if switching then slot else pending.slot
          switching := pending.switching || switching
          newItem := pending.newItem || switching })
  else .ok (waited, .waiting pending)

/-- `log_index_exists_in_saved_table`: look the pair up in the table before the
active one, from its end, as long as the lsn is the same. -/
def existsInSavedLoop (table : LogIdxTableData Tag) (info : LogIndexLsn Tag) : Nat → Bool
  | 0 => false
  | order + 1 =>
    match logIndexGetOrderLsn table order with
    | none => false
    | some saved =>
      if saved.lsn ≠ info.lsn then false
      else if saved.tag = info.tag then true
      else existsInSavedLoop table info order

def logIndexExistsInSavedTable (info : LogIndexLsn Tag) : Bool :=
  let table := snap.memTable (prevSlot cfg snap.activeTable)
  if table.state ≠ .flushed then false
  else existsInSavedLoop table.data info table.data.idxOrder.length

/-- `polar_logindex_add_lsn`. Until the first insert a pair that is already saved is
skipped. -/
def polarLogindexAddLsn (info : LogIndexLsn Tag) :
    Except LogIndexError (Snapshot Tag × AddResult Tag) :=
  if ¬info.prevLsn < info.lsn then .error .panicAssert
  else if snap.adding then logIndexInsertLsn cfg snap info
  else if info.lsn < snap.indexMeta.startLsn then .ok (snap, .ignored)
  else if info.lsn < snap.indexMeta.maxLsn then .ok (snap, .ignored)
  else if snap.indexMeta.maxLsn = info.lsn ∧ logIndexExistsInSavedTable cfg snap info =
    true then .ok (snap, .ignored)
  else logIndexInsertLsn cfg { snap with adding := true } info

end Add

/-- The loop body of `log_index_flush_table`. -/
def logIndexFlushTable (flushActive : Bool) (flushable : Bool) : Snapshot Tag :=
  let slot := snap.indexMeta.maxIdxTableId % cfg.memTblSize
  let table := snap.memTable slot
  let wanted := table.state = .inactive ∨ (flushActive = true ∧ table.state = .active ∧
    ¬memTblIsNew table)
  let unchanged := flushActive = true ∧ table.state = .active ∧
    snap.lastFlushMaxLsn = table.data.maxLsn
  if wanted ∧ ¬unchanged ∧ flushable = true then
    match logIndexWriteTable cfg snap slot with
    | (saved, true) =>
      if flushActive then
        { saved with lastFlushMaxLsn := (saved.memTable slot).data.maxLsn }
      else saved
    | (saved, false) => saved
  else snap

/-- `log_index_read_seg_file`: the tables of one segment file that the meta covers. -/
def logIndexReadSegFile (segno : Nat) : Option (TableCache Tag) :=
  let file := snap.storage.segFile segno
  let minId := segno * tableNumPerFile + 1
  match file with
  | [] => none
  | first :: _ =>
    if first.idxTableId ≠ minId ∨ snap.indexMeta.maxIdxTableId < minId then none
    else
      let covered := file.filter fun table =>
        decide (minId ≤ table.idxTableId ∧ table.idxTableId ≤ snap.indexMeta.maxIdxTableId)
      some ⟨minId, (covered.getLast?.map LogIdxTableData.idxTableId).getD 0, file⟩

/-- Does the cached segment hold the table? -/
def cacheCovers (cache : Option (TableCache Tag)) (tid : Nat) : Bool :=
  match cache with
  | none => false
  | some cache => decide (cache.minIdxTableId ≤ tid ∧ tid ≤ cache.maxIdxTableId)

/-- Load the segment of `tid` into the cache of process `pid`, unless it is there. -/
def cacheSegment (pid tid : Nat) : Except LogIndexError (Snapshot Tag) :=
  if cacheCovers (snap.tableCache pid) tid then .ok snap
  else match logIndexReadSegFile snap (segmentNo tid) with
    | none => .error (.fatalReadTable tid)
    | some cache =>
      .ok { snap with tableCache := update snap.tableCache pid (some cache) }

/-- `log_index_read_table` by process `pid`. The flag says whether the data is the
one of a memory table. -/
def logIndexReadTable (pid tid : Nat) :
    Except LogIndexError (Snapshot Tag × LogIdxTableData Tag × Bool) :=
  let slot := slotOf cfg tid
  let table := snap.memTable slot
  if table.state = .flushed ∧ table.data.idxTableId = tid then .ok (snap, table.data, true)
  else do
    let cached ← cacheSegment snap pid tid
    match cached.tableCache pid with
    | none => .error (.panicReadTable tid)
    | some cache =>
      if tid < cache.minIdxTableId ∨ cache.maxIdxTableId < tid then
        .error (.panicReadTable tid)
      else
        let data := cache.data.getD (tid - cache.minIdxTableId) zeroTableData
        if table.state = .flushed then .ok (setSlot cached slot { table with data := data },
          data, false)
        else .ok (cached, data, false)

end

end PolarDB.LogIndex
