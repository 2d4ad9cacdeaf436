import PolarDB.Lib.Runs
import PolarDB.FullPage.FuturePage

/-!
# Replaying an outdated page

The startup process adds the LSN of each record of a page to the logindex and leaves
the record to the backends: it sets the `OUTDATE` bit of the page's buffer. A backend
that reads the page or locks its buffer replays what is missing in
`polar_logindex_lock_apply_page_from`. The two meet in the bits of the buffer, in the
page lock of the mini transaction and in the replayed positions.

One page and one backend. The backend keeps the buffer to itself while it replays, by
the content lock or by the I/O in progress, and the startup process waits for it where
it needs the buffer. The page was not truncated meanwhile.
-/

namespace PolarDB.PageReplay.Outdate

open Lib.Runs
open FullPage.FuturePage

variable {Content : Type}

inductive Owner where
  | startup
  | backend
  deriving DecidableEq, Repr

/-- The record the startup process works on; `touches` if it is a record of the page. -/
structure Parse where
  lsn : Nat
  endLsn : Nat
  touches : Bool
  getCleanupLock : Bool
  deriving DecidableEq, Repr

/-- The startup process in `ApplyWalRecord`. From `waiting` to `releasing` it is in the branch of
`polar_logindex_outdate_parse` that locks the buffer. -/
inductive Startup where
  | idle
  | announced (parse : Parse)
  | started (parse : Parse)
  | locking (parse : Parse)
  | locked (parse : Parse)
  | adding (parse : Parse)
  | waiting (parse : Parse)
  | relocking (parse : Parse)
  | readding (parse : Parse)
  | marking (parse : Parse)
  | releasing (parse : Parse)
  | added (parse : Parse)
  | parsed (parse : Parse)
  | replayed (parse : Parse)
  | stopped (parse : Parse)
  deriving DecidableEq, Repr

/-- The backend in `polar_logindex_lock_apply_page_from`, with its local variables: the start LSN
and whether it has the page lock. -/
inductive Backend where
  | outside
  | entering (startLsn : Nat)
  | referencing (startLsn : Nat)
  | locking (startLsn : Nat)
  | choosing (startLsn : Nat) (locked : Bool)
  | applying (startLsn endLsn : Nat) (locked : Bool)
  | testing (startLsn : Nat) (locked : Bool)
  | unlocking (startLsn : Nat) (locked again : Bool)
  | returned (startLsn : Nat)
  deriving DecidableEq, Repr

structure State (Content : Type) where
  /-- The records of the page whose LSN is in the logindex, and those that will be. -/
  index : List (WalRecord Content)
  coming : List (WalRecord Content)
  replayEndRecPtr : Nat
  lastReplayedEndRecPtr : Nat
  /-- The mini transaction: `present` and `added` are about the tag of the page. -/
  transStarted : Bool
  present : Bool
  added : Bool
  pageLock : Option Owner
  /-- The buffer and its redo state. -/
  inPool : Bool
  readIoEnd : Bool
  replaying : Bool
  outdate : Bool
  page : PageImage Content
  startup : Startup
  backend : Backend

/-- `polar_logindex_apply_page_from`: with the page lock and the LSN added, up to the current
record. -/
def chooseEndLsn (st : State Content) (locked : Bool) : Nat :=
  if locked && st.added then st.replayEndRecPtr else st.lastReplayedEndRecPtr

/-- What `polar_logindex_apply_page` returns, the start of the next round. -/
def applyPageResult (startLsn endLsn : Nat) (page : PageImage Content) : Nat :=
  if endLsn ≤ max startLsn page.lsn then max startLsn page.lsn else endLsn

/-- `polar_logindex_mini_trans_cond_lock` counts a reference only if the tag is in the table. -/
def condReference (st : State Content) (startLsn : Nat) : State Content :=
  { st with
    backend := if st.transStarted && st.present then .locking startLsn
      else .choosing startLsn false }

def loopTest (st : State Content) (startLsn : Nat) (locked : Bool) : State Content :=
  if st.outdate then { st with outdate := false, backend := .unlocking startLsn locked true }
  else { st with replaying := false, backend := .unlocking startLsn locked false }

def unlockPage (st : State Content) (startLsn : Nat) (locked again : Bool) : State Content :=
  { st with
    pageLock := if locked then none else st.pageLock
    backend := if again then .referencing startLsn else .returned startLsn }

def Backend.holdsPage : Backend → Bool
  | .choosing _ locked => locked
  | .applying _ _ locked => locked
  | .testing _ locked => locked
  | .unlocking _ locked _ => locked
  | _ => false

def Backend.references : Backend → Bool
  | .locking _ => true
  | backend => backend.holdsPage

def Startup.holdsBuffer : Startup → Bool
  | .relocking _ => true
  | .readding _ => true
  | .marking _ => true
  | .releasing _ => true
  | _ => false

def Startup.holdsPage : Startup → Bool
  | .locked _ => true
  | .adding _ => true
  | .readding _ => true
  | .marking _ => true
  | .releasing _ => true
  | .added _ => true
  | _ => false

def Startup.pins : Startup → Bool
  | .waiting _ => true
  | startup => startup.holdsBuffer

/-- The page is being read or replayed, so that its reader will find the LSN. -/
def leavesToReader (st : State Content) (parse : Parse) : Bool :=
  !st.readIoEnd || (st.replaying && !parse.getCleanupLock)

/-- `POLAR_LOGINDEX_MINI_TRANS_ADD_LSN`. -/
def addLsn (st : State Content) (record : WalRecord Content) (rest : List (WalRecord Content))
    (next : Startup) : State Content :=
  { st with
    index := st.index ++ [record]
    coming := rest
    added := true
    startup := next }

/-- The next record in the WAL: the next one of the page, or one that lies before it. -/
def IsNext (st : State Content) (parse : Parse) : Prop :=
  st.lastReplayedEndRecPtr ≤ parse.lsn ∧ parse.lsn < parse.endLsn ∧
    if parse.touches then
      ∃ record rest, st.coming = record :: rest ∧ record.lsn = parse.lsn ∧
        record.endLsn = parse.endLsn
    else ∀ record ∈ st.coming, parse.endLsn ≤ record.lsn

/-- The page is the result of a front part of its records, and nothing else below `startLsn` is
missing. -/
def Covers (records : List (WalRecord Content)) (empty page : PageImage Content)
    (startLsn : Nat) : Prop :=
  ∃ front back, records = front ++ back ∧ page = front.foldl applyRecord empty ∧
    ∀ record ∈ back, startLsn ≤ record.lsn

inductive Event where
  | startup
  | backend
  | evict
  deriving DecidableEq, Repr

variable (empty : PageImage Content)

/-- The start LSN a caller passes is one below which the page it has in the buffer lacks nothing. -/
inductive Step : Event → State Content → State Content → Prop
  | announce {st : State Content} (parse : Parse) (here : st.startup = .idle)
      (isNext : IsNext st parse) :
      Step .startup st { st with replayEndRecPtr := parse.endLsn, startup := .announced parse }
  | miniTransStart {st : State Content} (parse : Parse) (here : st.startup = .announced parse) :
      Step .startup st { st with transStarted := true, startup := .started parse }
  | noTrans {st : State Content} (parse : Parse) (here : st.startup = .announced parse)
      (other : parse.touches = false) : Step .startup st { st with startup := .parsed parse }
  | otherPage {st : State Content} (parse : Parse) (here : st.startup = .started parse)
      (other : parse.touches = false) : Step .startup st { st with startup := .parsed parse }
  | insertTag {st : State Content} (parse : Parse) (here : st.startup = .started parse)
      (own : parse.touches = true) :
      Step .startup st { st with present := true, startup := .locking parse }
  | lockPage {st : State Content} (parse : Parse) (here : st.startup = .locking parse)
      (free : st.pageLock = none) :
      Step .startup st { st with pageLock := some .startup, startup := .locked parse }
  | notInPool {st : State Content} (parse : Parse) (here : st.startup = .locked parse)
      (absent : st.inPool = false) : Step .startup st { st with startup := .adding parse }
  | markOutdate {st : State Content} (parse : Parse) (here : st.startup = .locked parse)
      (found : st.inPool = true) (busy : leavesToReader st parse = true) :
      Step .startup st { st with outdate := true, startup := .adding parse }
  | addLsn {st : State Content} (parse : Parse) (record : WalRecord Content)
      (rest : List (WalRecord Content))
      (here : st.startup = .adding parse) (isNext : st.coming = record :: rest) :
      Step .startup st (addLsn st record rest (.added parse))
  | leavePage {st : State Content} (parse : Parse) (here : st.startup = .locked parse)
      (found : st.inPool = true) (quiet : leavesToReader st parse = false) :
      Step .startup st { st with pageLock := none, startup := .waiting parse }
  | lockBuffer {st : State Content} (parse : Parse) (here : st.startup = .waiting parse)
      (free : st.backend = .outside) : Step .startup st { st with startup := .relocking parse }
  | relockPage {st : State Content} (parse : Parse) (here : st.startup = .relocking parse)
      (free : st.pageLock = none) :
      Step .startup st { st with pageLock := some .startup, startup := .readding parse }
  | readdLsn {st : State Content} (parse : Parse) (record : WalRecord Content)
      (rest : List (WalRecord Content))
      (here : st.startup = .readding parse) (isNext : st.coming = record :: rest) :
      Step .startup st (addLsn st record rest (.marking parse))
  | remarkOutdate {st : State Content} (parse : Parse) (here : st.startup = .marking parse) :
      Step .startup st { st with outdate := true, startup := .releasing parse }
  | unlockBuffer {st : State Content} (parse : Parse) (here : st.startup = .releasing parse) :
      Step .startup st { st with startup := .added parse }
  | unlockStartup {st : State Content} (parse : Parse) (here : st.startup = .added parse) :
      Step .startup st { st with pageLock := none, startup := .parsed parse }
  | advance {st : State Content} (parse : Parse) (here : st.startup = .parsed parse) :
      Step .startup st { st with lastReplayedEndRecPtr := parse.endLsn, startup := .replayed parse }
  | miniTransStop {st : State Content} (parse : Parse) (here : st.startup = .replayed parse) :
      Step .startup st { st with transStarted := false, startup := .stopped parse }
  | miniTransClear {st : State Content} (parse : Parse) (here : st.startup = .stopped parse)
      (unreferenced : st.backend.references = false) :
      Step .startup st { st with present := false, added := false, startup := .idle }
  | readPage {st : State Content} (startLsn : Nat) (page : PageImage Content)
      (here : st.backend = .outside)
      (absent : st.inPool = false) (covers : Covers (st.index ++ st.coming) empty page startLsn) :
      Step .backend st { st with inPool := true, page := page, backend := .entering startLsn }
  | lockOutdated {st : State Content} (startLsn : Nat) (here : st.backend = .outside)
      (found : st.inPool = true) (free : st.startup.holdsBuffer = false)
      (covers : Covers (st.index ++ st.coming) empty st.page startLsn) :
      Step .backend st { st with backend := .entering startLsn }
  | enter {st : State Content} (startLsn : Nat) (here : st.backend = .entering startLsn) :
      Step .backend st
        { st with
          readIoEnd := true, replaying := true, outdate := false, backend := .referencing startLsn }
  | reference {st : State Content} (startLsn : Nat) (here : st.backend = .referencing startLsn) :
      Step .backend st (condReference st startLsn)
  | condLock {st : State Content} (startLsn : Nat) (here : st.backend = .locking startLsn)
      (free : st.pageLock = none) :
      Step .backend st { st with pageLock := some .backend, backend := .choosing startLsn true }
  | choose {st : State Content} (startLsn : Nat) (locked : Bool)
      (here : st.backend = .choosing startLsn locked) :
      Step .backend st { st with backend := .applying startLsn (chooseEndLsn st locked) locked }
  | apply {st : State Content} (startLsn endLsn : Nat) (locked : Bool)
      (here : st.backend = .applying startLsn endLsn locked) :
      Step .backend st { st with
          page := polarLogindexApplyPage st.index startLsn endLsn st.page
          backend := .testing (applyPageResult startLsn endLsn st.page) locked }
  | test {st : State Content} (startLsn : Nat) (locked : Bool)
      (here : st.backend = .testing startLsn locked) :
      Step .backend st (loopTest st startLsn locked)
  | unlock {st : State Content} (startLsn : Nat) (locked again : Bool)
      (here : st.backend = .unlocking startLsn locked again) :
      Step .backend st (unlockPage st startLsn locked again)
  | leave {st : State Content} (startLsn : Nat) (here : st.backend = .returned startLsn) :
      Step .backend st { st with backend := .outside }
  | evict {st : State Content} (unpinned : st.startup.pins = false) (here : st.backend = .outside) :
      Step .evict st { st with
          inPool := false, readIoEnd := false, replaying := false, outdate := false }

/-- Between two records, with no backend at work. -/
structure Started (st : State Content) : Prop where
  ordered : (st.index ++ st.coming).Pairwise (fun early late => early.endLsn ≤ late.lsn) ∧
    ∀ record ∈ st.index ++ st.coming, record.lsn < record.endLsn
  settled : ∀ record ∈ st.index, record.endLsn ≤ st.lastReplayedEndRecPtr
  ahead : ∀ record ∈ st.coming, st.lastReplayedEndRecPtr ≤ record.lsn
  noTrans : st.transStarted = false ∧ st.present = false ∧ st.added = false
  unlocked : st.pageLock = none
  startup : st.startup = .idle
  backend : st.backend = .outside

end PolarDB.PageReplay.Outdate
