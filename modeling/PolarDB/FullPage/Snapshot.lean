import PolarDB.Lib.Snoc

/-!
# Full-page snapshots

Before the primary writes a page that some replica may not read yet, it saves the
old image of the page in a numbered slot and logs the number in a `PWT_FPSI`
record. The number comes from a counter in shared memory, which a restart or a
promotion sets again from the records it replays or from the last record the
logindex knows.

Of the WAL only the `PWT_FPSI` records are kept, those that were not removed. The
recycling of segment files whose records were all removed is left out.
-/

namespace PolarDB.FullPage.Snapshot

/-- A `PWT_FPSI` record. -/
structure Record (Tag : Type) where
  lsn : Nat
  endLsn : Nat
  fullpageNo : Nat
  tag : Tag
  deriving DecidableEq, Repr

/-- What survives a crash. -/
structure Storage (Tag Page : Type) where
  /-- The records that are retained, the oldest first. -/
  wal : List (Record Tag)
  /-- WAL before this position was removed. -/
  walStart : Nat
  /-- WAL before this position was flushed. -/
  flushLsn : Nat
  fullpageFile : Nat → Option Page

structure FullpageCtl where
  maxFullpageNo : Nat
  deriving DecidableEq, Repr

/-- The shared memory is zeroed by the postmaster. -/
def polarFullpageShmemInit : FullpageCtl := { maxFullpageNo := 0 }

/-- The number is the value before the increment. -/
def polarLogFullpageBegin (ctl : FullpageCtl) : Nat × FullpageCtl :=
  (ctl.maxFullpageNo, { ctl with maxFullpageNo := ctl.maxFullpageNo + 1 })

def polarUpdateMaxFullpageNo (ctl : FullpageCtl) (fullpageNo : Nat) : FullpageCtl :=
  { ctl with maxFullpageNo := fullpageNo }

variable {Tag Page : Type}

/-- Replay of one record, by `xlog_redo` or by `polar_xlog_idx_parse`. -/
def redoRecord (ctl : FullpageCtl) (record : Record Tag) : FullpageCtl :=
  polarUpdateMaxFullpageNo ctl record.fullpageNo

/-- Reading the record at a position fails when there is no `PWT_FPSI` record. -/
def polarXlogReadFullpageNo (storage : Storage Tag Page) (lsn : Nat) : Option Nat :=
  (storage.wal.find? fun record => record.lsn = lsn).map Record.fullpageNo

/-- After startup; `maxLsn` is the last position the full-page logindex knows, 0 if none. -/
def polarLogindexCalcMaxFullpageNo (writable : Bool) (maxLsn : Nat) (storage : Storage Tag Page)
    (ctl : FullpageCtl) : Option FullpageCtl :=
  if writable = false then some ctl
  else if ctl.maxFullpageNo > 0 then some ctl
  else if maxLsn = 0 then some ctl
  else if maxLsn < storage.walStart then some { ctl with maxFullpageNo := 0 }
  else (polarXlogReadFullpageNo storage maxLsn).map fun fullpageNo =>
    { ctl with maxFullpageNo := fullpageNo }

/-- A snapshot whose record is logged and whose old image is still to be written. -/
structure Saving (Tag Page : Type) where
  record : Record Tag
  image : Page
  deriving DecidableEq, Repr

structure State (Tag Page : Type) where
  storage : Storage Tag Page
  insertLsn : Nat
  ctl : FullpageCtl
  saving : List (Saving Tag Page)
  /-- No snapshot was logged since the last restart or promotion. -/
  restored : Bool

/-- `polar_log_fullpage_snapshot_image` under its lock: take a number and insert the record. -/
def logSnapshot (st : State Tag Page) (tag : Tag) (size : Nat) (image : Page) : State Tag Page :=
  let begun := polarLogFullpageBegin st.ctl
  let record : Record Tag :=
    { lsn := st.insertLsn, endLsn := st.insertLsn + size, fullpageNo := begun.1, tag := tag }
  { st with
    storage := { st.storage with wal := st.storage.wal ++ [record] }
    insertLsn := st.insertLsn + size
    ctl := begun.2
    saving := st.saving ++ [{ record := record, image := image }]
    restored := false }

def polarWriteFullpage (storage : Storage Tag Page) (image : Page) (fullpageNo : Nat) :
    Storage Tag Page :=
  { storage with fullpageFile := Function.update storage.fullpageFile fullpageNo (some image) }

/-- The WAL a restarted primary or a promoted replica finds. -/
def durable (storage : Storage Tag Page) : Storage Tag Page :=
  { storage with wal := storage.wal.filter fun record => record.endLsn ≤ storage.flushLsn }

/-- The counter after replay from `readFrom` and the end of startup. -/
def recoverCtl (writable : Bool) (readFrom maxLsn : Nat) (storage : Storage Tag Page) :
    Option FullpageCtl :=
  polarLogindexCalcMaxFullpageNo writable maxLsn storage
    ((storage.wal.filter fun record => readFrom ≤ record.lsn).foldl redoRecord
      polarFullpageShmemInit)

def restarted (st : State Tag Page) (ctl : FullpageCtl) : State Tag Page :=
  { storage := durable st.storage
    insertLsn := st.storage.flushLsn
    ctl := ctl
    saving := []
    restored := true }

inductive Event where
  | log
  | save
  | flush
  | remove
  | restart
  deriving DecidableEq, Repr

/-- `restart` is the restart of a primary or the promotion of a replica. -/
inductive Step : Event → State Tag Page → State Tag Page → Prop
  | log {st : State Tag Page} (tag : Tag) (size : Nat) (image : Page) (positive : 0 < size) :
      Step .log st (logSnapshot st tag size image)
  | save {st : State Tag Page} (front back : List (Saving Tag Page)) (saving : Saving Tag Page)
      (whole : st.saving = front ++ saving :: back) :
      Step .save st { st with
        storage := polarWriteFullpage st.storage saving.image saving.record.fullpageNo
        saving := front ++ back }
  | flush {st : State Tag Page} (upTo : Nat) (forward : st.storage.flushLsn ≤ upTo)
      (within : upTo ≤ st.insertLsn) :
      Step .flush st { st with storage := { st.storage with flushLsn := upTo } }
  | remove {st : State Tag Page} (upTo : Nat) (forward : st.storage.walStart ≤ upTo)
      (within : upTo ≤ st.storage.flushLsn) :
      Step .remove st { st with
        storage := { st.storage with
          walStart := upTo
          wal := st.storage.wal.filter fun record => upTo ≤ record.lsn } }
  | restart {st : State Tag Page} {ctl : FullpageCtl} (writable : Bool) (readFrom maxLsn : Nat)
      (recovered : recoverCtl writable readFrom maxLsn (durable st.storage) = some ctl) :
      Step .restart st (restarted st ctl)

def startState (lsn : Nat) : State Tag Page :=
  { storage := { wal := [], walStart := lsn, flushLsn := lsn, fullpageFile := fun _ => none }
    insertLsn := lsn
    ctl := polarFullpageShmemInit
    saving := []
    restored := false }

/-- A run each of whose steps is taken in a state that meets a condition. -/
inductive Run (condition : Event → State Tag Page → Prop) : State Tag Page → State Tag Page → Prop
  | refl (st : State Tag Page) : Run condition st st
  | tail {start middle next : State Tag Page} {event : Event} (run : Run condition start middle)
      (step : Step event middle next) (met : condition event middle) : Run condition start next

def Distinct (wal : List (Record Tag)) : Prop := wal.Pairwise fun early late =>
    early.fullpageNo ≠ late.fullpageNo

/-- What is still to be written goes to a slot that no other retained record refers to. -/
def SparesImages (st : State Tag Page) : Prop := ∀ saving ∈ st.saving, ∀ record ∈ st.storage.wal,
    record.fullpageNo = saving.record.fullpageNo → record = saving.record

end PolarDB.FullPage.Snapshot
