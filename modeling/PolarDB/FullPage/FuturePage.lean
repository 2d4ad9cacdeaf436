import PolarDB.FullPage.Snapshot

/-!
# One page between the primary and a replica

The primary modifies the page in its buffer, may keep a copy of it and writes it
to shared storage; a page whose LSN lies beyond the oldest position a replica has
applied is written only after its old image was saved. A replica that reads such
a page goes back to a saved image and replays the records of the page from there.
-/

namespace PolarDB.FullPage.FuturePage

open FullPage.Snapshot

variable {Content : Type}

/-- A WAL record of the page, from its start position to its end position. -/
structure WalRecord (Content : Type) where
  lsn : Nat
  endLsn : Nat
  redo : Content → Content

structure PageImage (Content : Type) where
  lsn : Nat
  content : Content
  deriving DecidableEq, Repr

def applyRecord (page : PageImage Content) (record : WalRecord Content) : PageImage Content :=
  { lsn := record.endLsn, content := record.redo page.content }

/-- `polar_logindex_apply_page`: the records that start in `[startLsn, endLsn)`, not before the LSN
of the page. -/
def polarLogindexApplyPage (records : List (WalRecord Content)) (startLsn endLsn : Nat)
    (page : PageImage Content) : PageImage Content :=
  let start := max startLsn page.lsn
  if endLsn ≤ start then page
  else (records.filter fun record => start ≤ record.lsn ∧ record.lsn < endLsn).foldl
    applyRecord page

def replayAll (records : List (WalRecord Content)) (empty : PageImage Content) (upTo : Nat) :
    PageImage Content :=
  (records.filter fun record => record.lsn < upTo).foldl applyRecord empty

/-- An entry of the full-page logindex for the page. -/
structure Entry where
  lsn : Nat
  fullpageNo : Nat
  deriving DecidableEq, Repr

structure Primary (Content : Type) where
  records : List (WalRecord Content)
  insertLsn : Nat
  buffer : PageImage Content
  copyBuffer : Option (PageImage Content)
  stored : PageImage Content
  ctl : FullpageCtl
  fullpageFile : Nat → Option (PageImage Content)
  /-- In the order of their LSNs. -/
  entries : List Entry

/-- The old image to save: the copy buffer if it could be flushed, otherwise what is stored. -/
def oldImage (primary : Primary Content) (oldestApplyLsn : Nat) : PageImage Content :=
  match primary.copyBuffer with
  | some copy => if copy.lsn ≤ oldestApplyLsn then copy else primary.stored
  | none => primary.stored

/-- The record is inserted at `lsn` and takes `size` bytes. -/
def polarLogFullpageSnapshotImage (primary : Primary Content) (oldestApplyLsn lsn size : Nat) :
    Primary Content :=
  let fullpage := oldImage primary oldestApplyLsn
  let begun := polarLogFullpageBegin primary.ctl
  { primary with
    insertLsn := lsn + size
    ctl := begun.2
    entries := primary.entries ++ [{ lsn := lsn, fullpageNo := begun.1 }]
    fullpageFile := Function.update primary.fullpageFile begun.1 (some fullpage) }

def smgrwrite (primary : Primary Content) : Primary Content :=
  { primary with stored := primary.buffer, copyBuffer := none }

def flushBuffer (primary : Primary Content) (oldestApplyLsn lsn size : Nat) : Primary Content :=
  if primary.buffer.lsn > oldestApplyLsn then
    smgrwrite (polarLogFullpageSnapshotImage primary oldestApplyLsn lsn size)
  else smgrwrite primary

/-- Steps of the primary whose oldest apply LSN stays at or below the replay position `replayed`. -/
inductive Step (replayed : Nat) : Primary Content → Primary Content → Prop
  | modify {primary : Primary Content} (record : WalRecord Content)
      (after : primary.insertLsn ≤ record.lsn) (positive : record.lsn < record.endLsn) :
      Step replayed primary { primary with
        records := primary.records ++ [record]
        insertLsn := record.endLsn
        buffer := applyRecord primary.buffer record }
  | copy {primary : Primary Content} (absent : primary.copyBuffer = none) :
      Step replayed primary { primary with copyBuffer := some primary.buffer }
  | freeCopy {primary : Primary Content} : Step replayed primary { primary with copyBuffer := none }
  | flushCopy {primary : Primary Content} (copy : PageImage Content)
      (present : primary.copyBuffer = some copy)
      (oldestApplyLsn : Nat) (applied : oldestApplyLsn ≤ replayed)
        (flushable : copy.lsn ≤ oldestApplyLsn) :
      Step replayed primary { primary with stored := copy, copyBuffer := none }
  | flush {primary : Primary Content} (oldestApplyLsn lsn size : Nat)
      (applied : oldestApplyLsn ≤ replayed)
      (after : primary.insertLsn ≤ lsn) (positive : 0 < size) :
      Step replayed primary (flushBuffer primary oldestApplyLsn lsn size)

inductive Run (replayed : Nat) : Primary Content → Primary Content → Prop
  | refl (primary : Primary Content) : Run replayed primary primary
  | tail {start middle next : Primary Content} (run : Run replayed start middle)
      (step : Step replayed middle next) : Run replayed start next

def emptyPage (content : Content) : PageImage Content := { lsn := 0, content := content }

def startPrimary (content : Content) (insertLsn : Nat) (ctl : FullpageCtl)
    (fullpageFile : Nat → Option (PageImage Content)) : Primary Content :=
  { records := []
    insertLsn := insertLsn
    buffer := emptyPage content
    copyBuffer := none
    stored := emptyPage content
    ctl := ctl
    fullpageFile := fullpageFile
    entries := [] }

/-- The first entry at or after the replay position, as the page iterator finds it. -/
def firstEntry (entries : List Entry) (replayed : Nat) : Option Entry := entries.find? fun entry =>
    replayed ≤ entry.lsn

end PolarDB.FullPage.FuturePage
