import Mathlib.Data.Nat.Bitwise
import PolarDB.Lib.Linked
import PolarDB.Lib.Snoc

/-!
# One logindex table

Source: `polar_logindex.c` and `polar_logindex_internal.h`. A table is a hash of
page tags to item heads, each head followed by segments that hold the remaining
lsns of the page, and an order array that remembers the insertion order. Arrays
that are filled from the front (`suffix_lsn`, `idx_order`) are lists of their
used part, so `number` and `last_order` are lengths. The segment array and the
hash array are functions of the index. The crc and the page bytes of a tag are
not modelled: tags are compared and hashed only.
-/

namespace PolarDB.LogIndex

open Lib.Linked

-- InvalidXLogRecPtr, UINT64_MAX and the LOG_INDEX_* sizes of the header.
def invalidLsn : Nat := 0
def uint64Max : Nat := 2 ^ 64 - 1
def memTblSegNum : Nat := 4096
def memTblHashNum : Nat := memTblSegNum / 2
def itemHeadLsnNum : Nat := 2
def itemSegLsnNum : Nat := 10
def invalidSeg : Nat := 0

/-- `log_index_lsn_t`: one (page, lsn) pair with the previous lsn of the page. -/
structure LogIndexLsn (Tag : Type) where
  tag : Tag
  lsn : Nat
  prevLsn : Nat
  deriving DecidableEq, Repr

structure LogItemHead (Tag : Type) where
  headSeg : Nat
  nextItem : Nat
  nextSeg : Nat
  tailSeg : Nat
  tag : Tag
  prevPageLsn : Nat
  suffixLsn : List Nat
  deriving DecidableEq, Repr

structure LogItemSeg where
  headSeg : Nat
  nextSeg : Nat
  prevSeg : Nat
  suffixLsn : List Nat
  deriving DecidableEq, Repr

/-- `log_tbl_seg_t`, the union of the two, and a segment that was never handed out. -/
inductive LogTblSeg (Tag : Type) where
  | unused
  | itemHead (item : LogItemHead Tag)
  | itemSeg (seg : LogItemSeg)
  deriving DecidableEq, Repr

/-- `log_idx_table_data_t`, the part of a table that is saved to a file. -/
structure LogIdxTableData (Tag : Type) where
  idxTableId : Nat
  minLsn : Nat
  maxLsn : Nat
  prefixLsn : Nat
  idxOrder : List Nat
  hash : Nat → Nat
  segment : Nat → LogTblSeg Tag

inductive MemTblState where
  | free
  | active
  | inactive
  | flushed
  deriving DecidableEq, Repr

structure LogMemTable (Tag : Type) where
  freeHead : Nat
  state : MemTblState
  data : LogIdxTableData Tag

variable {Tag : Type}

/-- The bytes a `MemSet(table, 0, ...)` leaves. -/
def zeroTableData : LogIdxTableData Tag where
  idxTableId := 0
  minLsn := 0
  maxLsn := 0
  prefixLsn := 0
  idxOrder := []
  hash := fun _ => invalidSeg
  segment := fun _ => .unused

def zeroMemTable : LogMemTable Tag := ⟨0, .free, zeroTableData⟩

def combineLsn (table : LogIdxTableData Tag) (suffix : Nat) : Nat :=
  (table.prefixLsn <<< 32) ||| suffix

/-- The low half stored by `LOG_INDEX_INSERT_LSN_INFO`. -/
def suffixOf (lsn : Nat) : Nat := lsn % 2 ^ 32

/-- `(lsn) >> 32`. -/
def prefixOf (lsn : Nat) : Nat := lsn >>> 32

def sameTableLsnPrefix (table : LogIdxTableData Tag) (lsn : Nat) : Prop :=
  table.prefixLsn = prefixOf lsn
  deriving Decidable

def memTblFull (table : LogMemTable Tag) : Prop := table.freeHead = memTblSegNum
  deriving Decidable

def memTblIsNew (table : LogMemTable Tag) : Prop := table.data.maxLsn = invalidLsn ∧
    table.data.minLsn = uint64Max ∧
    table.data.prefixLsn = invalidLsn ∧ table.freeHead = 1
  deriving Decidable

/-- The entry `LOG_INDEX_MEM_TBL_ADD_ORDER` appends. -/
def orderEntry (segId idx : Nat) : Nat := (segId &&& 0x0FFF) ||| ((idx <<< 12) &&& 0xF000)

def segOrder (entry : Nat) : Nat := entry &&& 0x0FFF

def idOrder (entry : Nat) : Nat := (entry &&& 0xF000) >>> 12

/-- `log_index_item_head`: `NULL` for the invalid segment id. -/
def logIndexItemHead (table : LogIdxTableData Tag) (head : Nat) : Option (LogItemHead Tag) :=
  if head = invalidSeg then none
  else match table.segment head with
    | .itemHead item => some item
    | _ => none

/-- `log_index_item_seg`: `NULL` for the invalid segment id. -/
def logIndexItemSeg (table : LogIdxTableData Tag) (segId : Nat) : Option LogItemSeg :=
  if segId = invalidSeg then none
  else match table.segment segId with
    | .itemSeg seg => some seg
    | _ => none

/-- `head_seg` is the first field of both union members, so the source reads it
through either type. -/
def segHeadSeg (table : LogIdxTableData Tag) (segId : Nat) : Nat :=
  match table.segment segId with
  | .unused => invalidSeg
  | .itemHead item => item.headSeg
  | .itemSeg seg => seg.headSeg

def segSuffixes (table : LogIdxTableData Tag) (segId : Nat) : List Nat :=
  match table.segment segId with
  | .unused => []
  | .itemHead item => item.suffixLsn
  | .itemSeg seg => seg.suffixLsn

def nextItemOf (table : LogIdxTableData Tag) (segId : Nat) : Nat :=
  ((logIndexItemHead table segId).map LogItemHead.nextItem).getD invalidSeg

def prevSegOf (table : LogIdxTableData Tag) (segId : Nat) : Nat :=
  ((logIndexItemSeg table segId).map LogItemSeg.prevSeg).getD invalidSeg

def nextSegOf (table : LogIdxTableData Tag) (segId : Nat) : Nat :=
  ((logIndexItemSeg table segId).map LogItemSeg.nextSeg).getD invalidSeg

/-- `LOG_INDEX_SEG_MIN_LSN` of an item. -/
def itemMinLsn (table : LogIdxTableData Tag) (item : LogItemHead Tag) : Nat :=
  combineLsn table (item.suffixLsn.headD 0)

/-- `log_index_item_max_lsn`: the last lsn of the tail segment. -/
def logIndexItemMaxLsn (table : LogIdxTableData Tag) (item : LogItemHead Tag) : Nat :=
  if item.headSeg = item.tailSeg then combineLsn table (item.suffixLsn.getLastD 0)
  else combineLsn table ((segSuffixes table item.tailSeg).getLastD 0)

section Lookup
variable [DecidableEq Tag]

def headHasTag (table : LogIdxTableData Tag) (tag : Tag) (segId : Nat) : Bool :=
  ((logIndexItemHead table segId).map fun item => decide (item.tag = tag)).getD false

/-- `log_index_mem_tbl_exists_page`: walk the bucket of `key`. -/
def logIndexMemTblExistsPage (tag : Tag) (table : LogIdxTableData Tag) (key : Nat) : Nat :=
  search (nextItemOf table) invalidSeg (headHasTag table tag) memTblSegNum (table.hash key)

def logIndexTblFind (tag : Tag) (table : LogIdxTableData Tag) (key : Nat) :
    Option (LogItemHead Tag) :=
  logIndexItemHead table (logIndexMemTblExistsPage tag table key)

end Lookup

/-- `log_index_mem_seg_full`: is there no room left in the tail segment? -/
def logIndexMemSegFull (table : LogIdxTableData Tag) (head : Nat) : Bool :=
  match logIndexItemHead table head with
  | none => false
  | some item =>
    if item.tailSeg = head then decide (item.suffixLsn.length = itemHeadLsnNum)
    else decide ((segSuffixes table item.tailSeg).length = itemSegLsnNum)

def setSegment (table : LogIdxTableData Tag) (segId : Nat) (content : LogTblSeg Tag) :
    LogIdxTableData Tag :=
  { table with segment := Function.update table.segment segId content }

/-- `log_index_insert_new_item`: a fresh head becomes the first of its bucket. -/
def logIndexInsertNewItem (info : LogIndexLsn Tag) (table : LogIdxTableData Tag)
    (key newItemId : Nat) : LogIdxTableData Tag :=
  let item : LogItemHead Tag :=
    { headSeg := newItemId
      nextItem := table.hash key
      nextSeg := invalidSeg
      tailSeg := newItemId
      tag := info.tag
      prevPageLsn := info.prevLsn
      suffixLsn := [suffixOf info.lsn] }
  { setSegment table newItemId (.itemHead item) with
    hash := Function.update table.hash key newItemId }

def linkTail (table : LogIdxTableData Tag) (head segId : Nat) (item : LogItemHead Tag) :
    LogIdxTableData Tag :=
  if item.tailSeg = head then
    setSegment table head (.itemHead { item with nextSeg := segId, tailSeg := segId })
  else
    match logIndexItemSeg table item.tailSeg with
    | none => table
    | some preSeg =>
      setSegment (setSegment table item.tailSeg (.itemSeg { preSeg with nextSeg := segId }))
        head (.itemHead { item with tailSeg := segId })

/-- `log_index_insert_new_seg`: a fresh segment becomes the tail of the item. -/
def logIndexInsertNewSeg (table : LogIdxTableData Tag) (head segId : Nat)
    (info : LogIndexLsn Tag) : LogIdxTableData Tag :=
  match logIndexItemHead table head with
  | none => table
  | some item =>
    setSegment (linkTail table head segId item) segId
      (.itemSeg
        { headSeg := head
          nextSeg := invalidSeg
          prevSeg := item.tailSeg
          suffixLsn := [suffixOf info.lsn] })

/-- `log_index_append_lsn`: put the lsn into the tail segment and return its index. -/
def logIndexAppendLsn (table : LogIdxTableData Tag) (head : Nat) (info : LogIndexLsn Tag) :
    LogIdxTableData Tag × Nat :=
  match logIndexItemHead table head with
  | none => (table, 0)
  | some item =>
    if item.tailSeg = head then
      (setSegment table head
        (.itemHead { item with suffixLsn := item.suffixLsn ++ [suffixOf info.lsn] }),
        item.suffixLsn.length)
    else
      match logIndexItemSeg table item.tailSeg with
      | none => (table, 0)
      | some seg =>
        (setSegment table item.tailSeg
          (.itemSeg { seg with suffixLsn := seg.suffixLsn ++ [suffixOf info.lsn] }),
          seg.suffixLsn.length)

def addOrder (table : LogIdxTableData Tag) (segId idx : Nat) : LogIdxTableData Tag :=
  { table with idxOrder := table.idxOrder ++ [orderEntry segId idx] }

/-- The last lines of `log_index_insert_lsn` on the table's own bounds. -/
def updateBounds (table : LogIdxTableData Tag) (lsn : Nat) : LogIdxTableData Tag :=
  { table with maxLsn := max lsn table.maxLsn, minLsn := min lsn table.minLsn }

/-- The branch of `log_index_insert_lsn` that finds room in the page's tail segment. -/
def insertIntoTail (table : LogIdxTableData Tag) (head : Nat) (info : LogIndexLsn Tag) :
    LogIdxTableData Tag :=
  let (appended, idx) := logIndexAppendLsn table head info
  let tailSeg := ((logIndexItemHead appended head).map LogItemHead.tailSeg).getD invalidSeg
  updateBounds (addOrder appended tailSeg idx) info.lsn

/-- The assertions on that branch: the new suffix follows the last one, and the
order entry fits its two bit fields. A failed `POLAR_ASSERT_PANIC` stops the server. -/
def tailAsserts (table : LogIdxTableData Tag) (head : Nat) (info : LogIndexLsn Tag) : Bool :=
  match logIndexItemHead table head with
  | none => false
  | some item =>
    let suffixes := segSuffixes table item.tailSeg
    decide (suffixes.getLastD 0 < suffixOf info.lsn) && decide (item.tailSeg < memTblSegNum) &&
      decide (suffixes.length < 15)

/-- The other branch, once `log_index_next_free_seg` has returned `dst`. -/
def insertIntoSeg (table : LogIdxTableData Tag) (key head dst : Nat) (newItem : Bool)
    (info : LogIndexLsn Tag) : LogIdxTableData Tag :=
  let inserted :=
    if newItem then logIndexInsertNewItem info table key dst
    else logIndexInsertNewSeg table head dst info
  updateBounds (addOrder inserted dst 0) info.lsn

def logIndexGetSegPrevLsn (table : LogIdxTableData Tag) (segId idx : Nat) : Nat :=
  match table.segment segId with
  | .unused => invalidLsn
  | .itemHead item =>
    if idx = 0 then item.prevPageLsn else combineLsn table (item.suffixLsn.getD (idx - 1) 0)
  | .itemSeg seg =>
    if 0 < idx then combineLsn table (seg.suffixLsn.getD (idx - 1) 0)
    else combineLsn table ((segSuffixes table seg.prevSeg).getLastD 0)

def logIndexGetSegPageTag (table : LogIdxTableData Tag) (segId : Nat) : Option Tag :=
  (logIndexItemHead table (segHeadSeg table segId)).map LogItemHead.tag

/-- `log_index_get_order_lsn`: the pair at one position of the insertion order.
`none` stands for `InvalidXLogRecPtr`, returned past `last_order`. -/
def logIndexGetOrderLsn (table : LogIdxTableData Tag) (order : Nat) : Option (LogIndexLsn Tag) := do
  let entry ← table.idxOrder[order]?
  let tag ← logIndexGetSegPageTag table (segOrder entry)
  let suffix ← (segSuffixes table (segOrder entry))[idOrder entry]?
  some
    { tag := tag
      lsn := combineLsn table suffix
      prevLsn := logIndexGetSegPrevLsn table (segOrder entry) (idOrder entry) }

theorem combine_suffix (table : LogIdxTableData Tag) (lsn : Nat)
    (same : table.prefixLsn = prefixOf lsn) : combineLsn table (suffixOf lsn) = lsn := by
  have low : suffixOf lsn < 2 ^ 32 := Nat.mod_lt _ (by decide)
  rw [combineLsn, same, ← Nat.shiftLeft_add_eq_or_of_lt low, prefixOf, suffixOf,
    Nat.shiftLeft_eq, Nat.shiftRight_eq_div_pow]
  exact Nat.div_add_mod' lsn (2 ^ 32)

variable {segId idx : Nat}

variable (segBound : segId < 4096) (idxBound : idx < 16)
include segBound idxBound

theorem order_entry_eq : orderEntry segId idx = idx <<< 12 + segId := by
  have low : segId &&& 0x0FFF = segId := by
    rw [Nat.and_two_pow_sub_one_eq_mod segId 12]
    exact Nat.mod_eq_of_lt segBound
  have inside : idx &&& 0xF = idx := by
    rw [Nat.and_two_pow_sub_one_eq_mod idx 4]
    exact Nat.mod_eq_of_lt idxBound
  have high : (idx <<< 12) &&& 0xF000 = idx <<< 12 := by
    calc (idx <<< 12) &&& 0xF000 = (idx <<< 12) &&& (0xF <<< 12) := rfl
      _ = (idx &&& 0xF) <<< 12 := by rw [Nat.shiftLeft_and_distrib]
      _ = idx <<< 12 := by rw [inside]
  rw [orderEntry, low, high, Nat.lor_comm, Nat.shiftLeft_add_eq_or_of_lt segBound]

theorem seg_order_entry : segOrder (orderEntry segId idx) = segId := by
  rw [segOrder, order_entry_eq segBound idxBound, Nat.and_two_pow_sub_one_eq_mod _ 12,
    Nat.shiftLeft_eq]
  omega

theorem id_order_entry : idOrder (orderEntry segId idx) = idx := by
  rw [idOrder, order_entry_eq segBound idxBound, Nat.shiftRight_and_distrib]
  change ((idx <<< 12 + segId) >>> 12) &&& 0xF = idx
  rw [Nat.and_two_pow_sub_one_eq_mod _ 4, Nat.shiftLeft_eq, Nat.shiftRight_eq_div_pow]
  omega

end PolarDB.LogIndex
