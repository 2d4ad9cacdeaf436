import PolarDB.LogIndex.SnapshotRun

/-!
# Restart: loading the saved tables and adding the rest of the log again

Source: `polar_logindex.c`, `polar_logindex_snapshot_base_init` and the part of
`polar_load_logindex_snapshot_from_storage` that runs before the snapshot is
initialized. A crash keeps the storage only. `RecoveryStep` adds the pairs of a list
in order; as in `Step`, an add may wait, and flushes happen at any time.

Not modelled: the branch of the load for a snapshot already initialized, which only
read-only nodes reach.
-/

namespace PolarDB.LogIndex

variable {Tag : Type}

def logIndexReadTableData (storage : Storage Tag) (tid : Nat) : Option (LogIdxTableData Tag) :=
  (storage.segFile (segmentNo tid))[segmentOffset tid]?

/-- The load loop, from table `tid` down to `minTid` or to the first table that starts
at or below `startLsn`. -/
def loadTables (cfg : Config Tag) (minTid startLsn : Nat) : Nat → Snapshot Tag →
    Except LogIndexError (Snapshot Tag)
  | 0, snap => .ok snap
  | tid + 1, snap =>
    if minTid ≤ tid + 1 then
      match logIndexReadTableData snap.storage (tid + 1) with
      | none => .error (.panicReadTable (tid + 1))
      | some data =>
        let loaded := setSlot snap (slotOf cfg (tid + 1)) ⟨memTblSegNum, .flushed, data⟩
        if data.idxTableId ≠ tid + 1 then .error .panicAssert
        else if startLsn ≠ invalidLsn ∧ data.minLsn ≤ startLsn then .ok loaded
        else loadTables cfg minTid startLsn tid loaded
    else .ok snap

/-- The least table to load: at most a ring of tables, and only tables that exist. -/
def minLoadTid (cfg : Config Tag) (indexMeta : LogIndexMeta) : Nat :=
  let minTid :=
    if cfg.memTblSize < indexMeta.maxIdxTableId then
      max (indexMeta.maxIdxTableId - cfg.memTblSize + 1) indexMeta.minSegmentInfo.minIdxTableId
    else indexMeta.minSegmentInfo.minIdxTableId
  if minTid = 0 then indexMeta.maxIdxTableId else minTid

/-- `polar_load_logindex_snapshot_from_storage` during initialization. -/
def polarLoadLogindexSnapshotFromStorage (cfg : Config Tag) (snap : Snapshot Tag)
    (startLsn : Nat) : Except LogIndexError (Snapshot Tag) :=
  let maxTid := snap.indexMeta.maxIdxTableId
  if maxTid = 0 then .ok snap
  else if startLsn = invalidLsn then .error .panicAssert
  else do
    let loaded ← loadTables cfg (minLoadTid cfg snap.indexMeta) startLsn maxTid snap
    let switched :=
      { loaded with
        maxIdxTableId := maxTid
        maxLsn := (loaded.memTable (slotOf cfg maxTid)).data.maxLsn
        activeTable := maxTid % cfg.memTblSize }
    -- no table of the ring is inactive, so the wait takes one round
    let (opened, _) ← logIndexWaitActive cfg switched switched.activeTable invalidLsn false
    .ok opened

structure Recovery (Tag : Type) where
  snap : Snapshot Tag
  pending : Option (PendingAdd Tag)
  todo : List (LogIndexLsn Tag)

def AddResult.pending : AddResult Tag → Option (PendingAdd Tag)
  | .waiting pending => some pending
  | _ => none

section Steps
variable [DecidableEq Tag]

inductive RecoveryStep (cfg : Config Tag) : Recovery Tag → Recovery Tag → Prop where
  | add (snap : Snapshot Tag) (info : LogIndexLsn Tag) (todo : List (LogIndexLsn Tag))
      (after : Snapshot Tag) (res : AddResult Tag)
      (call : polarLogindexAddLsn cfg snap info = .ok (after, res)) :
      RecoveryStep cfg ⟨snap, none, info :: todo⟩ ⟨after, res.pending, todo⟩
  | resume (snap : Snapshot Tag) (pending : PendingAdd Tag) (todo : List (LogIndexLsn Tag))
      (flushable : Bool) (after : Snapshot Tag) (res : AddResult Tag)
      (call : resumeInsertLsn cfg snap pending flushable = .ok (after, res)) :
      RecoveryStep cfg ⟨snap, some pending, todo⟩ ⟨after, res.pending, todo⟩
  | flush (st : Recovery Tag) (flushActive flushable : Bool) : RecoveryStep cfg st
        { st with snap := logIndexFlushTable cfg st.snap flushActive flushable }

def RecoveryRun (cfg : Config Tag) : Recovery Tag → Recovery Tag → Prop :=
  Relation.ReflTransGen (RecoveryStep cfg)

end Steps

end PolarDB.LogIndex
