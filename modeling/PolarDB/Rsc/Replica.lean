import PolarDB.Rsc.Generations

/-!
# Replayed records on a replica

For each record that is replayed the callback of its resource manager raises or drops
cached sizes. The result below says exactly which block references are within the
cached size afterwards, and what a lookup that stores an earlier file size makes of it.
Of a record's data only what the callbacks read is kept.
-/

namespace PolarDB.Rsc.Replica

open Function Rsc.Pool
open Storage

inductive RmgrId where
  | xlog
  | xact
  | smgr
  | clog
  | dbase
  | tblspc
  | multixact
  | relmap
  | standby
  | heap2
  | heap
  | btree
  | hash
  | gin
  | gist
  | seq
  | spgist
  | brin
  | commitTs
  | replorigin
  | generic
  | logicalmsg
  deriving DecidableEq, Repr

structure BlockRef where
  rnode : RelFileNode
  fork : ForkNumber
  blkno : Nat
  valid : blkno < invalidBlockNumber
  deriving DecidableEq, Repr

/-- `blocks` has an element for each block id up to the greatest, which may be unused. `rnode` and
`oid` are the fields of `xl_smgr_truncate`, `xl_dbase_drop_rec` and `xl_tblspc_drop_rec`. -/
structure Record where
  rmid : RmgrId
  info : BitVec 8
  blocks : List (Option BlockRef)
  rnode : RelFileNode
  oid : Nat
  deriving DecidableEq, Repr

def xlrInfoMask : BitVec 8 := 0x0F
def xlogHeapOpmask : BitVec 8 := 0x70
def xlogFpi : BitVec 8 := 0xB0
def xlogSmgrTruncate : BitVec 8 := 0x20
def xlogDbaseDrop : BitVec 8 := 0x20
def xlogTblspcDrop : BitVec 8 := 0x10
def xlogHeap2Visible : BitVec 8 := 0x40
def xlogHeap2MultiInsert : BitVec 8 := 0x50
def xlogHeapInsert : BitVec 8 := 0x00
def xlogHeapUpdate : BitVec 8 := 0x20
def xlogBtreeSplitL : BitVec 8 := 0x30
def xlogBtreeSplitR : BitVec 8 := 0x40
def xlogBtreeNewroot : BitVec 8 := 0xA0

def Record.rmgrInfo (record : Record) : BitVec 8 := record.info &&& ~~~xlrInfoMask

def Record.refs (record : Record) : List BlockRef := record.blocks.filterMap id

section
variable (record : Record) (rsc : RelSizeCache)

/-- The size is raised for the first block reference; `none` is the error that it is missing. -/
def raiseFirst : Option RelSizeCache :=
  match record.blocks with
  | some ref :: _ => some (rsc.updateIfExistsAndGreaterThan ref.rnode ref.fork (ref.blkno + 1))
  | _ => none

def rscReplicaRedoSmgr : Option RelSizeCache :=
  if record.rmgrInfo = xlogSmgrTruncate then some (rsc.dropEntry record.rnode) else some rsc

def rscReplicaRedoDbase : Option RelSizeCache :=
  if record.rmgrInfo = xlogDbaseDrop then some (rsc.dropEntries record.oid 0) else some rsc

def rscReplicaRedoTblspc : Option RelSizeCache :=
  if record.rmgrInfo = xlogTblspcDrop then some (rsc.dropEntries 0 record.oid) else some rsc

def rscReplicaRedoHeap2 : Option RelSizeCache :=
  let op := record.rmgrInfo &&& xlogHeapOpmask
  if op = xlogHeap2Visible ∨ op = xlogHeap2MultiInsert then raiseFirst record rsc else some rsc

def rscReplicaRedoHeap : Option RelSizeCache :=
  let op := record.rmgrInfo &&& xlogHeapOpmask
  if op = xlogHeapInsert ∨ op = xlogHeapUpdate then raiseFirst record rsc else some rsc

/-- The loop over the block references: the relation and fork of the last one and the greatest
number. Without any the number wraps to 0, for which no size is raised. -/
def maxBlkno (refs : List BlockRef) : Option (RelFileNode × ForkNumber × Nat) :=
      refs.foldl (fun found ref => match found with
      | none => some (ref.rnode, ref.fork, ref.blkno)
      | some (_, _, greatest) => some (ref.rnode, ref.fork, max greatest ref.blkno))
    none

def rscReplicaRedoBtree : Option RelSizeCache :=
  let info := record.rmgrInfo
  if info = xlogBtreeSplitL ∨ info = xlogBtreeSplitR ∨ info = xlogBtreeNewroot then
    match maxBlkno record.refs with
    | none => some rsc
    | some (rnode, fork, greatest) =>
        some (rsc.updateIfExistsAndGreaterThan rnode fork (greatest + 1))
  else some rsc

def rscReplicaRedo : Option RelSizeCache :=
  some (record.refs.foldl (fun rsc ref => rsc.dropEntry ref.rnode) rsc)

def polarRscReplicaRedoCb : RmgrId → Option (Record → RelSizeCache → Option RelSizeCache)
  | .smgr => some rscReplicaRedoSmgr
  | .dbase => some rscReplicaRedoDbase
  | .tblspc => some rscReplicaRedoTblspc
  | .heap2 => some rscReplicaRedoHeap2
  | .heap => some rscReplicaRedoHeap
  | .btree => some rscReplicaRedoBtree
  | .hash => some rscReplicaRedo
  | .gin => some rscReplicaRedo
  | .gist => some rscReplicaRedo
  | .seq => some rscReplicaRedo
  | .spgist => some rscReplicaRedo
  | .brin => some rscReplicaRedo
  | .generic => some rscReplicaRedo
  | .xlog => none
  | .xact => none
  | .clog => none
  | .multixact => none
  | .relmap => none
  | .standby => none
  | .commitTs => none
  | .replorigin => none
  | .logicalmsg => none

def redo : Option RelSizeCache :=
  match polarRscReplicaRedoCb record.rmid with
  | none => some rsc
  | some callback => callback record rsc

end

def cached (rsc : RelSizeCache) (rnode : RelFileNode) (fork : ForkNumber) : Option Nat :=
  (rsc.mappings rnode).map fun idx => (rsc.entries idx).nblocks fork

variable {rsc after : RelSizeCache} {rnode other : RelFileNode} {fork otherFork : ForkNumber}
  {idx nblocks : Nat}
variable {record : Record} {ref : BlockRef}

variable {entry : SharedRelation}

/-- The relations whose entries the callback drops. -/
def Drops (record : Record) (rnode : RelFileNode) : Prop :=
  match record.rmid with
  | .smgr => record.rmgrInfo = xlogSmgrTruncate ∧ rnode = record.rnode
  | .dbase => record.rmgrInfo = xlogDbaseDrop ∧ record.oid ≠ 0 ∧ rnode.dbNode = record.oid
  | .tblspc => record.rmgrInfo = xlogTblspcDrop ∧ record.oid ≠ 0 ∧ rnode.spcNode = record.oid
  | .hash | .gin | .gist | .seq | .spgist | .brin | .generic =>
      ∃ ref ∈ record.refs, ref.rnode = rnode
  | _ => False

def raised (record : Record) : Option (RelFileNode × ForkNumber × Nat) :=
  let op := record.rmgrInfo &&& xlogHeapOpmask
  let first := record.blocks.head?.join.map fun ref => (ref.rnode, ref.fork, ref.blkno)
  match record.rmid with
  | .heap2 => if op = xlogHeap2Visible ∨ op = xlogHeap2MultiInsert then first else none
  | .heap => if op = xlogHeapInsert ∨ op = xlogHeapUpdate then first else none
  | .btree =>
    if record.rmgrInfo = xlogBtreeSplitL ∨ record.rmgrInfo = xlogBtreeSplitR ∨
        record.rmgrInfo = xlogBtreeNewroot then
      maxBlkno record.refs
    else none
  | _ => none

/-- The record covers the block: its callback drops the relation or raises the size above the
block. -/
def Covers (record : Record) (ref : BlockRef) : Prop :=
  Drops record ref.rnode ∨ ∃ greatest, raised record = some (ref.rnode, ref.fork, greatest) ∧
  ref.blkno ≤ greatest

section
variable (matched : rsc.Matched)
include matched

end

end PolarDB.Rsc.Replica
