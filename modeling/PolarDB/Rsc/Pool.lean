import PolarDB.Storage.BufferTag
import Mathlib.Data.List.Basic

/-!
# The pool of shared relations

The relation size cache (RSC) keeps the block counts of relations in a pool of
entries and finds them through a mapping table. Each definition below is one section
of the source under the partition lock of the mapping table or the lock of an entry.
The `LOCKED` bit of an entry and the statistics are left out.
-/

namespace PolarDB.Rsc.Pool

open Function Storage

/-- `polar_rsc_shared_relation_t`; `valid` and `dirty` are its flags. -/
structure SharedRelation where
  rnode : RelFileNode
  nblocks : ForkNumber → Nat
  valid : Bool
  dirty : ForkNumber → Bool
  generation : Nat
  usecount : Int

structure RelSizeCache where
  mappings : RelFileNode → Option Nat
  entries : Nat → SharedRelation
  nextSweep : Nat
  sharedRelations : Nat
  poolSweepTimes : Nat

def RelSizeCache.setEntry (rsc : RelSizeCache) (idx : Nat) (entry : SharedRelation) :
    RelSizeCache :=
  { rsc with entries := update rsc.entries idx entry }

/-- The use count is imprecise and only steers the sweep. -/
def RelSizeCache.touch (rsc : RelSizeCache) (idx : Nat) : RelSizeCache :=
  if (rsc.entries idx).usecount < rsc.poolSweepTimes then
    rsc.setEntry idx { rsc.entries idx with usecount := (rsc.entries idx).usecount + 1 }
  else rsc

def SharedRelation.setNblocks (entry : SharedRelation) (fork : ForkNumber) (nblocks : Nat) :
    SharedRelation :=
  { entry with nblocks := update entry.nblocks fork nblocks }

def SharedRelation.setDirty (entry : SharedRelation) (fork : ForkNumber) : SharedRelation :=
  { entry with dirty := update entry.dirty fork true }

def SharedRelation.forget (entry : SharedRelation) : SharedRelation :=
  { entry with nblocks := fun _ => invalidBlockNumber }

/-- The entry under its lock in `polar_rsc_update_entry`: an extension or truncation stores the size
and marks it dirty, a lookup stores it only if it is clean. -/
def SharedRelation.update (entry : SharedRelation) (fork : ForkNumber) (nblocks : Nat)
    (isExtend : Bool) : SharedRelation :=
  if isExtend then (entry.setNblocks fork nblocks).setDirty fork
  else if entry.dirty fork then entry
  else entry.setNblocks fork nblocks

def RelSizeCache.updateEntry (rsc : RelSizeCache) (idx : Nat) (fork : ForkNumber) (nblocks : Nat)
    (isExtend : Bool) : RelSizeCache :=
  (rsc.setEntry idx ((rsc.entries idx).update fork nblocks isExtend)).touch idx

def RelSizeCache.updateIfExistsAndGreaterThan (rsc : RelSizeCache) (rnode : RelFileNode)
    (fork : ForkNumber) (nblocks : Nat) : RelSizeCache :=
  match rsc.mappings rnode with
  | none => rsc
  | some idx =>
    if (rsc.entries idx).nblocks fork < nblocks then
      rsc.setEntry idx (((rsc.entries idx).setNblocks fork nblocks).setDirty fork)
    else rsc

def RelSizeCache.cachesLess (rsc : RelSizeCache) (rnode : RelFileNode) (fork : ForkNumber)
    (nblocks : Nat) : Bool :=
  match rsc.mappings rnode with
  | none => false
  | some idx => (rsc.entries idx).nblocks fork < nblocks

/-- The clock hand in `rsc_lru_pool_sweep` and the entry it passes. -/
def RelSizeCache.sweepHand (rsc : RelSizeCache) : Nat × RelSizeCache :=
  let idx := rsc.nextSweep % rsc.sharedRelations
  let entry := rsc.entries idx
  (idx, { rsc.setEntry idx { entry with usecount := entry.usecount - 1 } with nextSweep :=
    rsc.nextSweep + 1 })

/-- `rsc_alloc_entry` under the partition lock of the relation it evicts. -/
def RelSizeCache.evict (rsc : RelSizeCache) (idx : Nat) (rnode : RelFileNode) : RelSizeCache :=
  let entry := rsc.entries idx
  { rsc.setEntry idx { entry with valid := false, generation := entry.generation + 1 } with
    mappings := update rsc.mappings rnode none }

/-- `polar_rsc_update_entry` enters the relation into the mapping table, unless another process
has. -/
def RelSizeCache.enter (rsc : RelSizeCache) (idx : Nat) (rnode : RelFileNode) : RelSizeCache :=
  let entry := rsc.entries idx
  match rsc.mappings rnode with
  | some _ => rsc.setEntry idx { entry with valid := false, dirty := fun _ => false }
  | none =>
    { rsc.setEntry idx
        { rnode := rnode
          nblocks := fun _ => invalidBlockNumber
          valid := true
          dirty := fun _ => false
          generation := entry.generation + 1
          usecount := 1 } with
      mappings := update rsc.mappings rnode (some idx) }

/-- `polar_rsc_drop_entry`: the generation stays. -/
def RelSizeCache.dropEntry (rsc : RelSizeCache) (rnode : RelFileNode) : RelSizeCache :=
  match rsc.mappings rnode with
  | none => rsc
  | some idx =>
    { rsc.setEntry idx { (rsc.entries idx).forget with valid := false, usecount := 0 } with
      mappings := update rsc.mappings rnode none }

/-- `polar_rsc_drop_entries`: the entries of a database or of a tablespace, 0 for neither. -/
def RelSizeCache.dropEntries (rsc : RelSizeCache) (dbNode spcNode : Nat) : RelSizeCache :=
  (List.range rsc.sharedRelations).foldl
    (fun rsc idx =>
      let entry := rsc.entries idx
      if entry.valid ∧ (dbNode ≠ 0 ∧ entry.rnode.dbNode = dbNode ∨
          spcNode ≠ 0 ∧ entry.rnode.spcNode = spcNode) then
        rsc.dropEntry entry.rnode
      else rsc)
    rsc

/-- `polar_rsc_promote`, under all partition locks. -/
def RelSizeCache.promote (rsc : RelSizeCache) : RelSizeCache :=
  { rsc with
    mappings := fun _ => none
    entries := fun idx =>
      let entry := rsc.entries idx
      if idx < rsc.sharedRelations then
        { entry.forget with
          valid := false, dirty := fun _ => false, usecount := 0
          generation := entry.generation + 1 }
      else entry }

/-- The mapping table and the valid entries of the pool are in bijection. -/
structure RelSizeCache.Matched (rsc : RelSizeCache) : Prop where
  mapped : ∀ rnode idx, rsc.mappings rnode = some idx →
    idx < rsc.sharedRelations ∧ (rsc.entries idx).valid = true ∧ (rsc.entries idx).rnode = rnode
  valid : ∀ idx, (rsc.entries idx).valid = true → rsc.mappings (rsc.entries idx).rnode = some idx

end PolarDB.Rsc.Pool
