import PolarDB.Storage.BufferTag
import PolarDB.Lib.Snoc

/-!
# The cache of relation sizes and database states

The replay of old records needs to know which databases were created or dropped and
which relations were truncated in the meantime. These events are recorded in tables of
fixed size: truncations grow from the front of a table, database states from its end.
A ring of tables is kept in memory; a table that is overwritten is saved to a file first.

The contents of the two ends of a table are lists, in the order of their addresses. The
lock, the directory and the padding are left out.
-/

namespace PolarDB.RelSize.Cache

open Function Storage

inductive DbState where
  | notfound
  | new
  | blockTruncated
  | droped
  deriving DecidableEq, Repr

/-- The states that are recorded for a database. -/
inductive DbChange where
  | new
  | droped
  deriving DecidableEq, Repr

def DbChange.state : DbChange → DbState
  | .new => .new
  | .droped => .droped

structure DatabaseState where
  lsn : Nat
  spc : Nat
  db : Nat
  change : DbChange
  deriving DecidableEq, Repr

structure RelationSize where
  lsn : Nat
  node : RelFileNode
  fork : ForkNumber
  relSize : Nat
  deriving DecidableEq, Repr

structure Table where
  tid : Nat
  rels : List RelationSize
  dbs : List DatabaseState
  minLsn : Nat
  maxLsn : Nat
  deriving DecidableEq, Repr

structure RelSizeCache where
  tables : Nat → Table
  files : Nat → Option Table
  activeMid : Nat
  minTid : Nat
  tableSize : Nat

def relInfoTotalSize : Nat := 8192 - 32
def sizeofDatabaseState : Nat := 24
def sizeofRelationSize : Nat := 32

def Table.relTail (table : Table) : Nat := table.rels.length * sizeofRelationSize

def Table.dbTail (table : Table) : Nat := relInfoTotalSize - table.dbs.length * sizeofDatabaseState

def polarInitRelSizeTable (tid : Nat) : Table :=
  { tid := tid, rels := [], dbs := [], minLsn := 0, maxLsn := 0 }

def polarRelSizeShmemInit (blocks : Nat) : RelSizeCache where
  tables := update (fun _ => polarInitRelSizeTable 0) 0 (polarInitRelSizeTable 1)
  files := fun _ => none
  activeMid := 0
  minTid := 1
  tableSize := blocks

def RelSizeCache.active (cache : RelSizeCache) : Table := cache.tables cache.activeMid

def polarSaveRelSizeTable (cache : RelSizeCache) (table : Table) : RelSizeCache :=
  { cache with files := update cache.files table.tid (some table) }

def polarTableSpaceAvailable (table : Table) (size : Nat) : Bool :=
  table.relTail + size < table.dbTail

def loopNextValue (id size : Nat) : Nat :=
  if id = size - 1 then 0 else id + 1

def polarAllocateTableSpace (cache : RelSizeCache) (size : Nat) : RelSizeCache :=
  if polarTableSpaceAvailable cache.active size then cache
  else
    let mid := loopNextValue cache.activeMid cache.tableSize
    let saved := if 0 < (cache.tables mid).tid then polarSaveRelSizeTable cache (cache.tables mid)
      else cache
    { saved with
      activeMid := mid
      tables := update cache.tables mid (polarInitRelSizeTable (cache.active.tid + 1)) }

def polarUpdateLsnRange (table : Table) (lsn : Nat) : Table :=
  if table.maxLsn = 0 then { table with maxLsn := lsn, minLsn := lsn }
  else { table with maxLsn := lsn }

def RelSizeCache.setActive (cache : RelSizeCache) (table : Table) : RelSizeCache :=
  { cache with tables := update cache.tables cache.activeMid table }

def polarRecordDbState (cache : RelSizeCache) (st : DatabaseState) : RelSizeCache :=
  let cache := polarAllocateTableSpace cache sizeofDatabaseState
  let table := cache.active
  cache.setActive (polarUpdateLsnRange { table with dbs := st :: table.dbs } st.lsn)

def polarRecordRelSize (cache : RelSizeCache) (rel : RelationSize) : RelSizeCache :=
  let cache := polarAllocateTableSpace cache sizeofRelationSize
  let table := cache.active
  cache.setActive (polarUpdateLsnRange { table with rels := table.rels ++ [rel] } rel.lsn)

structure SearchResult where
  state : DbState
  lsn : Nat
  deriving DecidableEq, Repr

/-- The loop of `polar_search_db_state` from `db_tail` to the end. -/
def polarSearchDbState : List DatabaseState → (lsn spc db : Nat) → SearchResult → SearchResult
  | [], _, _, _, res => { res with state := .notfound }
  | dbState :: rest, lsn, spc, db, res =>
    if dbState.lsn ≤ lsn then { res with state := .notfound }
    else if dbState.db = db ∧ dbState.spc = spc then
      { state := dbState.change.state, lsn := dbState.lsn }
    else polarSearchDbState rest lsn spc db res

/-- `false` is `END`. -/
abbrev SearchState := Bool

/-- The loop of `polar_search_truncate_info`, given what lies between the front and its position,
backwards. -/
def polarSearchTruncateInfo (next : SearchState) : List RelationSize → Nat → BufferTag →
    SearchResult → SearchState × SearchResult
  | [], _, _, res => (next, res)
  | rel :: rest, lsn, tag, res =>
    if rel.lsn ≤ lsn then (false, res)
    else if tag.rnode = rel.node ∧ tag.forkNum = rel.fork ∧ rel.relSize ≤ tag.blockNum then
      (false, { state := .blockTruncated, lsn := rel.lsn })
    else polarSearchTruncateInfo next rest lsn tag res

/-- The switch of `polar_check_table_rel_size`, given what the search for a truncation returns.
`none` is a PANIC, which only happens if the caller does not ask for the changed LSN. -/
def switchState (ignoreError : Bool) (lsn : Nat) (res : SearchResult)
    (truncated : SearchState × SearchResult) : Option (SearchState × SearchResult) :=
  match res.state with
  | .new => if ignoreError = false ∧ lsn < res.lsn then none else some truncated
  | .notfound => some truncated
  | .droped => if ignoreError = false ∧ res.lsn ≤ lsn then none else some (false, res)
  | .blockTruncated => some (false, res)

def polarCheckTableRelSize (ignoreError : Bool) (minTid : Nat) (table : Table) (lsn : Nat)
    (tag : BufferTag) (res : SearchResult) : Option (SearchState × SearchResult) :=
  if table.maxLsn < lsn then some (false, res)
  else
    let res :=
      if res.state = .notfound then
        polarSearchDbState table.dbs lsn tag.rnode.spcNode tag.rnode.dbNode res
      else res
    switchState ignoreError lsn res
      (polarSearchTruncateInfo (minTid < table.tid) table.rels.reverse lsn tag res)

/-- `none` is a FATAL error: the file is missing. -/
def polarGetRelSizeTable (cache : RelSizeCache) (tid : Nat) : Option Table :=
  let table := cache.tables ((tid - 1) % cache.tableSize)
  if table.tid = tid then some table else cache.files tid

/-- The loop of `polar_check_rel_block_valid_internal`; each round goes to the table before. -/
def searchTables (ignoreError : Bool) (cache : RelSizeCache) (lsn : Nat) (tag : BufferTag) :
    Nat → Table → SearchResult → Option SearchResult
  | 0, _, _ => none
  | rounds + 1, table, res => do
    let (next, res) ← polarCheckTableRelSize ignoreError cache.minTid table lsn tag res
    if next = true ∧ cache.minTid < table.tid then
      let before ← polarGetRelSizeTable cache (table.tid - 1)
      searchTables ignoreError cache lsn tag rounds before res
    else some res

/-- What a search tells the caller: whether the block is valid, and the changed LSN. -/
def SearchResult.answer (res : SearchResult) (lsn : Nat) : Bool × Nat :=
  match res.state with
  | .notfound => (true, lsn)
  | .new => (true, res.lsn)
  | .droped => (false, res.lsn)
  | .blockTruncated => (false, res.lsn)

def polarCheckRelBlockValidInternal (ignoreError : Bool) (cache : RelSizeCache) (lsn : Nat)
    (tag : BufferTag) : Option (Bool × Nat) := do
  let res := { state := .notfound, lsn := 0 }
  let found ←
    if cache.active.maxLsn ≠ 0 then
      searchTables ignoreError cache lsn tag cache.active.tid cache.active res
    else some res
  some (found.answer lsn)

def polarCheckRelBlockValidOnly (cache : RelSizeCache) (lsn : Nat) (tag : BufferTag) :
    Option Bool :=
  (polarCheckRelBlockValidInternal false cache lsn tag).map Prod.fst

def polarCheckRelBlockValidAndLsn (cache : RelSizeCache) (lsn : Nat) (tag : BufferTag) :
    Option (Bool × Nat) :=
  polarCheckRelBlockValidInternal true cache lsn tag

/-- A round of `polar_truncate_rel_size_cache` for one table. -/
def truncateTable (cache : RelSizeCache) (lsn tid : Nat) : Option RelSizeCache := do
  let table ← polarGetRelSizeTable cache tid
  if table.maxLsn ≤ lsn then
    let mid := (tid - 1) % cache.tableSize
    let removed :=
      if (cache.tables mid).tid = tid then
        { cache with tables := update cache.tables mid (polarInitRelSizeTable 0) }
      else { cache with files := update cache.files tid none }
    some { removed with minTid := cache.minTid + 1 }
  else some cache

/-- The loop over the tables from `tid` up to, not including, the active one. -/
def truncateTables (cache : RelSizeCache) (lsn : Nat) : Nat → Nat → Option RelSizeCache
  | 0, _ => some cache
  | count + 1, tid => do
    let next ← truncateTable cache lsn tid
    truncateTables next lsn count (tid + 1)

def polarTruncateRelSizeCache (cache : RelSizeCache) (lsn : Nat) : Option RelSizeCache :=
  truncateTables cache lsn (cache.active.tid - cache.minTid) cache.minTid

inductive Event where
  | db (st : DatabaseState)
  | rel (size : RelationSize)
  deriving DecidableEq, Repr

def Event.lsn : Event → Nat
  | .db st => st.lsn
  | .rel size => size.lsn

inductive Op where
  | record (event : Event)
  | truncate (lsn : Nat)
  deriving DecidableEq, Repr

def record (cache : RelSizeCache) : Event → RelSizeCache
  | .db st => polarRecordDbState cache st
  | .rel size => polarRecordRelSize cache size

def applyOp (cache : RelSizeCache) : Op → Option RelSizeCache
  | .record event => some (record cache event)
  | .truncate lsn => polarTruncateRelSizeCache cache lsn

def runOps (cache : RelSizeCache) : List Op → Option RelSizeCache
  | [] => some cache
  | op :: rest => do
    let next ← applyOp cache op
    runOps next rest

def events (ops : List Op) : List Event := ops.filterMap fun op =>
    match op with
    | .record event => some event
    | .truncate _ => none

end PolarDB.RelSize.Cache
