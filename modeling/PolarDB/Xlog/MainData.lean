import PolarDB.Lib.Pointer
import PolarDB.Xlog.QueueExact

/-!
# What the parse and save routines read of the main data

On a replica the routine of a resource manager gets the decoded packet of a record. Each
routine is given here by the fields of `XLogRecGetData` that it dereferences and by what it
takes from them. The blocks that it looks up are not part of this model.
-/

namespace PolarDB.Xlog

open Lib.Bytes Lib.Circular Lib.Pointer RingBuf

section Constants

def heapTruncate : UInt8 := 0x30
def heapConfirm : UInt8 := 0x50
def heapInplace : UInt8 := 0x70
def heap2NewCid : UInt8 := 0x70

/-- `PWT_FPSI`, the type of a full page snapshot. -/
def pwtFpsi : Nat := 13

def sizeOfLogicalRewriteMappingData : Nat := 36

/-- The operations that do not look at the main data. -/
def btreeOps : List UInt8 := [0x00, 0x10, 0x20, 0x30, 0x40, 0x50, 0x60, 0x80, 0x90, 0xA0, 0xB0,
    0xC0, 0xE0]
def hashOps : List UInt8 := [0x00, 0x10, 0x20, 0x30, 0x40, 0x50, 0x60, 0x70, 0x80, 0x90, 0xA0, 0xB0]
def spgistOps : List UInt8 := [0x10, 0x20, 0x30, 0x40, 0x50, 0x60, 0x70]
def gistOps : List UInt8 := [0x00, 0x30, 0x60]
def ginOps : List UInt8 := [0x10, 0x20, 0x30, 0x40, 0x50, 0x60, 0x70, 0x80, 0x90]
def brinOpMask : UInt8 := 0x70
def brinOps : List UInt8 := [0x00, 0x10, 0x20, 0x30, 0x40, 0x50]
def seqOps : List UInt8 := [0x00]

end Constants

/-- The settings under which a replica resolves conflicts with its queries. -/
structure Standby where
  polarEnableResolveConflict : Bool
  reachedConsistency : Bool
  inHotStandby : Bool
deriving Repr, DecidableEq

def Standby.conflict (standby : Standby) : Bool :=
  standby.polarEnableResolveConflict && standby.reachedConsistency && standby.inHotStandby

/-- What a routine takes from the main data. -/
inductive MainDataUse where
  | unused
  | flags (value : Nat)
  | conflict (xid : Nat)
  | reuse (fullXid : Nat) (node : Nat × Nat × Nat)
  | mapping (xid db rel offset startLsn : Nat) (data : List UInt8)
  | fullpageBlocks (snap : Bool)
  | fullpage (fullpageNo : Nat)
deriving Repr, DecidableEq

inductive RoutineError where
  | unknownOp (info : UInt8)
deriving Repr, DecidableEq

abbrev Routine := Access RoutineError MainDataUse

/-- The cases of a switch that need nothing, and its default. -/
def among (ops : List UInt8) (info : UInt8) : Routine :=
  if info ∈ ops then pure .unused else raise (.unknownOp info)

def flagsAt (offset : Nat) : Routine := do
  let flags ← field offset 1
  pure (.flags flags)

/-- The transaction id that the main data of a deletion begins with. -/
def conflictXid (standby : Standby) (res : Nat → MainDataUse) : Routine :=
  if standby.conflict then do
    let xid ← field 0 4
    pure (res xid)
  else pure .unused

def readNode : Access RoutineError (Nat × Nat × Nat) := do
  let spcNode ← field 0 4
  let dbNode ← field 4 4
  let relNode ← field 8 4
  pure (spcNode, dbNode, relNode)

def conflictReuse (standby : Standby) (xid : Nat → Nat) : Routine :=
  if standby.conflict then do
    let fullXid ← field 16 8
    let node ← readNode
    pure (.reuse (xid fullXid) node)
  else pure .unused

def transactionIdRetreat (xid : Nat) : Nat := if xid ≤ 3 then 2 ^ 32 - 1 else xid - 1

section Heap

/-- The flags of the main data say whether a page of the visibility map is touched. -/
def heapIdx (info : UInt8) : Routine :=
  let op := info &&& heapOpMask
  if op = heapInsert then flagsAt 2
  else if op = heapDelete then flagsAt 7
  else if op = heapUpdate ∨ op = heapHotUpdate then flagsAt 7
  else if op = heapLock then flagsAt 7
  else among [heapTruncate, heapConfirm, heapInplace] op

def polarHeapIdxSave : UInt8 → Routine := heapIdx
def polarHeapIdxParse : UInt8 → Routine := heapIdx

def polarHeap2IdxSave (info : UInt8) : Routine :=
  let op := info &&& heapOpMask
  if op = heap2MultiInsert then flagsAt 0
  else if op = heap2LockUpdated then flagsAt 7
  else among [heap2Prune, heap2FreezePage, heap2Vacuum, heap2Visible, heap2NewCid, heap2Rewrite] op

/-- The length of the mappings behind the fixed part, an unsigned integer of 32 bits. -/
def mappingsLen (numMappings : Nat) : Nat := numMappings * sizeOfLogicalRewriteMappingData % 2 ^ 32

def heapXlogLogicalRewrite : Routine := do
  let db ← field 4 4
  let rel ← field 8 4
  let startLsn ← field 32 8
  let xid ← field 0 4
  let offset ← field 16 8
  let numMappings ← field 24 4
  let data ← bytes sizeOfHeapRewriteMapping (mappingsLen numMappings)
  pure (.mapping xid db rel offset startLsn data)

def polarHeap2IdxParse (standby : Standby) (info : UInt8) : Routine :=
  let op := info &&& heapOpMask
  if op = heap2Prune then conflictXid standby .conflict
  else if op = heap2FreezePage then conflictXid standby fun xid =>
    .conflict (transactionIdRetreat xid)
  else if op = heap2Visible then conflictXid standby .conflict
  else if op = heap2MultiInsert then flagsAt 0
  else if op = heap2LockUpdated then flagsAt 7
  else if op = heap2Rewrite then heapXlogLogicalRewrite
  else among [heap2Vacuum, heap2NewCid] op

end Heap

section Indexes

def polarBtreeIdxSave (info : UInt8) : Routine :=
  among (btreeDelete :: btreeReusePage :: btreeOps) info

def polarBtreeIdxParse (standby : Standby) (info : UInt8) : Routine :=
  if info = btreeDelete then conflictXid standby .conflict
  else if info = btreeReusePage then conflictReuse standby (· % 2 ^ 32)
  else among btreeOps info

def polarHashIdxSave (info : UInt8) : Routine := among (hashVacuumOnePage :: hashOps) info

def polarHashIdxParse (standby : Standby) (info : UInt8) : Routine :=
  if info = hashVacuumOnePage then conflictXid standby .conflict else among hashOps info

def polarGistIdxSave (info : UInt8) : Routine := among (gistDelete :: gistPageReuse :: gistOps) info

def polarGistIdxParse (standby : Standby) (info : UInt8) : Routine :=
  if info = gistDelete then conflictXid standby .conflict
  else if info = gistPageReuse then conflictReuse standby id
  else among gistOps info

def polarSpgRedoVacuumParse (standby : Standby) : Routine :=
  if standby.conflict then do
    let newestRedirectXid ← field 4 4
    pure (if newestRedirectXid ≠ 0 then .conflict newestRedirectXid else .unused)
  else pure .unused

def polarSpgIdxSave (info : UInt8) : Routine := among (spgistVacuumRedirect :: spgistOps) info

def polarSpgIdxParse (standby : Standby) (info : UInt8) : Routine :=
  if info = spgistVacuumRedirect then polarSpgRedoVacuumParse standby else among spgistOps info

def polarGinIdx (info : UInt8) : Routine := among ginOps info
def polarBrinIdx (info : UInt8) : Routine := among brinOps (info &&& brinOpMask)
def polarSeqIdx (info : UInt8) : Routine := among seqOps info
def polarGenericIdx (_ : UInt8) : Routine := pure .unused

end Indexes

section Xlog

def polarXlogIdxSave (info : UInt8) : Routine :=
  if info = polarWal then do
    let walType ← field 0 4
    pure (.fullpageBlocks (walType == pwtFpsi))
  else pure .unused

/-- The number behind the type is read for a full page snapshot only. -/
def fullpageNo (walType : Nat) : Routine :=
  if walType = pwtFpsi then do
    let fullpageNo ← field 4 8
    pure (.fullpage fullpageNo)
  else pure .unused

def polarXlogIdxParse (info : UInt8) : Routine :=
  if info = xlogFpi ∨ info = xlogFpiForHint then pure .unused
  else if info = polarWal then do
    let walType ← field 0 4
    fullpageNo walType
  else pure .unused

end Xlog

/-- Which of the two routines of a resource manager is called. -/
inductive Call where
  | save
  | parse (standby : Standby)
deriving Repr, DecidableEq

/-- The routine for a record whose payload was removed; the others are not in the table. -/
def polarIdxRoutine (call : Call) (record : XLogRecord) : Routine :=
  let rmid := record.xlRmid
  let info := rmgrInfo record
  match call with
  | .save =>
    if rmid = rmHeap then polarHeapIdxSave info
    else if rmid = rmHeap2 then polarHeap2IdxSave info
    else if rmid = rmBtree then polarBtreeIdxSave info
    else if rmid = rmHash then polarHashIdxSave info
    else if rmid = rmGin then polarGinIdx info
    else if rmid = rmGist then polarGistIdxSave info
    else if rmid = rmSeq then polarSeqIdx info
    else if rmid = rmSpgist then polarSpgIdxSave info
    else if rmid = rmBrin then polarBrinIdx info
    else if rmid = rmGeneric then polarGenericIdx info
    else polarXlogIdxSave info
  | .parse standby =>
    if rmid = rmHeap then polarHeapIdxParse info
    else if rmid = rmHeap2 then polarHeap2IdxParse standby info
    else if rmid = rmBtree then polarBtreeIdxParse standby info
    else if rmid = rmHash then polarHashIdxParse standby info
    else if rmid = rmGin then polarGinIdx info
    else if rmid = rmGist then polarGistIdxParse standby info
    else if rmid = rmSeq then polarSeqIdx info
    else if rmid = rmSpgist then polarSpgIdxParse standby info
    else if rmid = rmBrin then polarBrinIdx info
    else if rmid = rmGeneric then polarGenericIdx info
    else polarXlogIdxParse info

end PolarDB.Xlog
