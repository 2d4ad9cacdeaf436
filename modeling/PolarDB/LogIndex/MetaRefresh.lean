import PolarDB.Lib.Runs
import PolarDB.LogIndex.Snapshot

/-!
# Refreshing the meta of a replica

A replica reads the meta file of the primary straight into the shared meta, which iterators
copy. The buffer is cleared before the read and checked behind it.
-/

namespace PolarDB.LogIndex.MetaRefresh

open List Lib.Runs

/-- `log_index_meta_t` with the fields that are checked. -/
structure MetaImage where
  magic : Nat
  version : Nat
  body : LogIndexMeta
  crc : Nat
  deriving DecidableEq, Repr

def zeroImage : MetaImage := ⟨0, 0, zeroMeta, 0⟩

def logIndexMagic : Nat := 0xFDFE
def logIndexVersion : Nat := 2

/-- What the storage gives; a short read leaves its bytes in the cleared buffer. -/
inductive MetaRead where
  | unopened
  | short (buffer : MetaImage)
  | whole (buffer : MetaImage)

def logIndexDataCompatible (standby : Bool) (image : MetaImage) : Bool :=
  match image.version with
  | 1 => !standby
  | version => version == logIndexVersion

variable (calcCrc : MetaImage → Nat) (standby : Bool)

/-- The result, and the meta that was passed in. -/
def logIndexGetMeta : MetaRead → Bool × MetaImage
  | .unopened => (false, zeroImage)
  | .short buffer => (false, buffer)
  | .whole buffer =>
    if buffer.magic ≠ logIndexMagic then (false, buffer)
    else
      let image := { buffer with crc := calcCrc { buffer with crc := 0 } }
      if buffer.crc ≠ image.crc then (false, image)
      else if image.version ≠ logIndexVersion ∧ logIndexDataCompatible standby image = false then
        (false, image)
      else (true, image)

structure Replica where
  /-- The metas the primary completely wrote, newest first. -/
  written : List MetaImage
  shared : MetaImage
  maxIdxTableId : Nat
  lastMaxTableId : Nat
  /-- What the calls of `LOG_INDEX_COPY_META` got, newest first. -/
  copied : List MetaImage

/-- The part of `log_index_replica_bg_write` under the lock: a failure is a warning. -/
def logIndexReplicaBgWrite (st : Replica) (read : MetaRead) : Replica :=
  if st.maxIdxTableId = st.lastMaxTableId then st
  else { st with
    lastMaxTableId := st.maxIdxTableId, shared := (logIndexGetMeta calcCrc standby read).2 }

/-- What `polar_load_logindex_snapshot_from_storage` does to the meta. -/
def polarLoadLogindexSnapshotFromStorage (st : Replica) (read : MetaRead) : Replica :=
  { st with shared := (logIndexGetMeta calcCrc standby read).2 }

def UpTo (early late : MetaImage) : Prop :=
  early.body.maxIdxTableId ≤ late.body.maxIdxTableId ∧ early.body.maxLsn ≤ late.body.maxLsn

/-- What `polar_log_index_write_meta` writes. -/
def Complete (image : MetaImage) : Prop :=
  image.magic = logIndexMagic ∧ image.version = logIndexVersion ∧
  image.crc = calcCrc { image with crc := 0 }

inductive Step : Option MetaRead → Replica → Replica → Prop
  | write {st : Replica} (image : MetaImage) (complete : Complete calcCrc image)
      (grows : ∀ old ∈ st.written, UpTo old image) :
      Step none st { st with written := image :: st.written }
  | addTable {st : Replica} (tid : Nat) : Step none st { st with maxIdxTableId := tid }
  | copyMeta {st : Replica} : Step none st { st with copied := st.shared :: st.copied }
  /-- The meta is read only if a table was filled. -/
  | bgWrite {st : Replica} (read : MetaRead) :
      Step (if st.maxIdxTableId = st.lastMaxTableId then none else some read)
      st (logIndexReplicaBgWrite calcCrc standby st read)
  | load {st : Replica} (read : MetaRead) :
      Step (some read) st (polarLoadLogindexSnapshotFromStorage calcCrc standby st read)

/-- The replica after it was started with the meta the primary wrote last. -/
def startReplica (image : MetaImage) : Replica := ⟨[image], image, 0, 0, []⟩

/-- A read gives the whole of the meta that was written last. -/
def ReadsNewest : Option MetaRead → Replica → Prop
  | none, _ => True
  | some read, st => ∃ image older, st.written = image :: older ∧ read = .whole image

variable {calcCrc : MetaImage → Nat} {standby : Bool}

theorem get_meta_complete {image : MetaImage} (complete : Complete calcCrc image) :
    logIndexGetMeta calcCrc standby (.whole image) = (true, image) := by
  obtain ⟨magic, version, crc⟩ := complete
  rw [logIndexGetMeta, ← crc, if_neg (not_not.mpr magic), if_neg (not_not.mpr rfl),
    if_neg (fun wrong => wrong.1 version)]

structure Inv (calcCrc : MetaImage → Nat) (st : Replica) : Prop where
  complete : ∀ image ∈ st.written, Complete calcCrc image
  grown : st.written.Pairwise fun late early => UpTo early late
  shared : st.shared ∈ st.written
  copied : ∀ image ∈ st.copied, image ∈ st.written ∧ UpTo image st.shared
  ordered : st.copied.Pairwise fun late early => UpTo early late

theorem UpTo.refl (image : MetaImage) : UpTo image image := ⟨le_rfl, le_rfl⟩

theorem UpTo.trans {first second third : MetaImage} (early : UpTo first second)
    (late : UpTo second third) : UpTo first third := ⟨early.1.trans late.1, early.2.trans late.2⟩

theorem Inv.refresh {st : Replica} (inv : Inv calcCrc st) {read : MetaRead}
    (reads : ReadsNewest (some read) st) (last : Nat) : Inv calcCrc { st with
      lastMaxTableId := last, shared := (logIndexGetMeta calcCrc standby read).2 } := by
  obtain ⟨image, _, whole, rfl⟩ := reads
  have mem : image ∈ st.written := whole ▸ mem_cons_self
  rw [get_meta_complete (inv.complete image mem)]
  refine { inv with shared := mem, copied := ?_ }
  intro copy isCopy
  -- the newest meta is not below the shared one
  have grown := inv.grown
  have shared := inv.shared
  rw [whole] at grown shared
  have newer : UpTo st.shared image := by
    rcases mem_cons.mp shared with same | old
    · exact same ▸ .refl image
    · exact (pairwise_cons.mp grown).1 _ old
  exact ⟨(inv.copied copy isCopy).1, (inv.copied copy isCopy).2.trans newer⟩

theorem Inv.step {event : Option MetaRead} {st next : Replica} (inv : Inv calcCrc st)
    (step : Step calcCrc standby event st next) (reads : ReadsNewest event st) :
    Inv calcCrc next := by
  cases step with
  | write _ complete grows =>
    exact ⟨forall_mem_cons.mpr ⟨complete, inv.complete⟩, pairwise_cons.mpr ⟨grows, inv.grown⟩,
      mem_cons_of_mem _ inv.shared,
      fun copy isCopy => ⟨mem_cons_of_mem _ (inv.copied copy isCopy).1, (inv.copied copy isCopy).2⟩,
      inv.ordered⟩
  | addTable => exact { inv with }
  | copyMeta =>
    exact { inv with copied := forall_mem_cons.mpr ⟨⟨inv.shared, .refl _⟩, inv.copied⟩, ordered
      := pairwise_cons.mpr ⟨fun copy isCopy => (inv.copied copy isCopy).2, inv.ordered⟩ }
  | bgWrite read =>
    rw [logIndexReplicaBgWrite]
    split_ifs with same
    · exact inv
    · rw [if_neg same] at reads
      exact inv.refresh reads _
  | load => exact inv.refresh reads _

/-- As long as every read gives the whole newest meta, each copy is a meta that was completely
written, and no later copy has fewer saved tables. -/
theorem complete_reads_keep_meta {image : MetaImage} (complete : Complete calcCrc image)
    {st : Replica} (run : Run (Step calcCrc standby) ReadsNewest (startReplica image) st) :
    st.shared ∈ st.written ∧ (∀ copy ∈ st.copied, copy ∈ st.written ∧ UpTo copy st.shared) ∧
      st.copied.Pairwise fun late early => UpTo early late := by
  have inv : Inv calcCrc st := by
    refine run.invariant (Inv calcCrc) ?_ fun event before after inv step reads =>
      inv.step step reads
    exact ⟨by simpa [startReplica] using complete, pairwise_singleton _ _, mem_cons_self,
      nofun, .nil⟩
  exact ⟨inv.shared, inv.copied, inv.ordered⟩

def fiveTables : MetaImage := ⟨logIndexMagic, logIndexVersion, ⟨5, ⟨0, 100, 5, 1⟩, 1, 100⟩, 7⟩

def sixTables : MetaImage := ⟨logIndexMagic, logIndexVersion, ⟨6, ⟨0, 120, 6, 1⟩, 1, 120⟩, 7⟩

/-- The meta with the sixth table is written and read behind a first copy. -/
theorem refreshed_meta_kept : ∃ st, Run (Step (fun _ => 7) false) ReadsNewest
      (startReplica fiveTables) st ∧ st.copied = [sixTables, fiveTables] ∧ st.shared ∈ st.written ∧
      (∀ copy ∈ st.copied, copy ∈ st.written) ∧
      st.copied.Pairwise fun late early => UpTo early late := by
  have started : Run (Step (fun _ => 7) false) ReadsNewest (startReplica fiveTables) _ := .refl
  have copied := (started.snoc (.bgWrite .unopened)).snoc .copyMeta
  have written := copied.snoc (.write sixTables ⟨rfl, rfl, rfl⟩
    (by simp [startReplica, logIndexReplicaBgWrite, UpTo, fiveTables, sixTables]))
  have added := written.snoc (.addTable 6)
  have refreshed := added.snoc (.bgWrite (.whole sixTables)) ⟨_, _, rfl, rfl⟩
  have again := refreshed.snoc .copyMeta
  obtain ⟨shared, kept, ordered⟩ := complete_reads_keep_meta ⟨rfl, rfl, rfl⟩ again
  exact ⟨_, again, rfl, shared, fun copy isCopy => (kept copy isCopy).1, ordered⟩

/-- The meta file cannot be opened once; iterators then see no saved table at all. -/
theorem failed_read_clears_meta : ∃ st, Run (Step (fun _ => 7) false) (fun _ _ => True)
      (startReplica fiveTables) st ∧ st.copied = [zeroImage, fiveTables] ∧ zeroImage ∉ st.written ∧
      ¬ UpTo fiveTables zeroImage := by
  have started : Run (Step (fun _ => 7) false) (fun _ _ => True) (startReplica fiveTables) _ :=
    .refl
  have copied := started.snoc .copyMeta
  have added := copied.snoc (.addTable 6)
  have failed := added.snoc (.bgWrite .unopened)
  have again := failed.snoc .copyMeta
  exact ⟨_, again, rfl, by decide, fun grows => absurd grows.1 (by decide)⟩

end PolarDB.LogIndex.MetaRefresh
