import PolarDB.Lib.Keyed
import PolarDB.Lib.Snoc

/-!
# Replay of access exclusive locks on a replica

The startup process hands the locks of `XLOG_STANDBY_LOCK` records to a worker
through a table of locks keyed by record LSN, a replay queue and a list of locks
for each transaction. The worker acquires and releases relation locks. Beside it
runs the synchronous replay that the startup process performs where async lock
replay is off; the two are compared when the worker has nothing left to do.

The order in which a hash table is scanned is that of its list of entries, and
the releases of one transaction tree are separate steps of the startup process.
-/

namespace PolarDB.LockReplay.AsyncLock

open Lib

abbrev XLogRecPtr := Nat
abbrev TransactionId := Nat
abbrev Oid := Nat

def invalidXLogRecPtr : XLogRecPtr := 0
def invalidTransactionId : TransactionId := 0

structure StandbyLock where
  xid : TransactionId
  dbOid : Oid
  relOid : Oid
  deriving DecidableEq, Repr

def StandbyLock.relation (lock : StandbyLock) : Oid × Oid := (lock.dbOid, lock.relOid)

inductive AlrState where
  | idle
  | getting
  | got
  | skip
  deriving DecidableEq, Repr

structure AlrLock where
  lsn : XLogRecPtr
  lock : StandbyLock
  state : AlrState
  deriving DecidableEq, Repr

structure AlrXact where
  xid : TransactionId
  running : Bool
  locks : List XLogRecPtr
  deriving DecidableEq, Repr

structure AlrCtl where
  lsn : XLogRecPtr
  lockTbl : List AlrLock
  xactTbl : List AlrXact
  locks : List XLogRecPtr
  deriving DecidableEq, Repr

/-- The relation locks one process holds in session mode, with repetitions. -/
abbrev Held := List (Oid × Oid)

inductive AlrError where
  | cannotFindIdleLock
  | releaseFailed
  deriving DecidableEq, Repr

def enterXact (xactTbl : List AlrXact) (xid : TransactionId) : List AlrXact :=
  match Keyed.lookup AlrXact.xid xid xactTbl with
  | some _ => xactTbl
  | none => xactTbl ++ [{ xid := xid, running := true, locks := [] }]

def polarAlrAddAsyncLock (ctl : AlrCtl) (lock : StandbyLock) (lsn lastLsn : XLogRecPtr) : AlrCtl :=
  match Keyed.lookup AlrLock.lsn lsn ctl.lockTbl with
  | some _ => ctl
  | none =>
    { lsn := if ctl.lsn = invalidXLogRecPtr then lastLsn else ctl.lsn
      lockTbl := ctl.lockTbl ++ [{ lsn := lsn, lock := lock, state := .idle }]
      xactTbl := Keyed.modify AlrXact.xid lock.xid
        (fun xact => { xact with locks := xact.locks ++ [lsn] }) (enterXact ctl.xactTbl lock.xid)
      locks := ctl.locks ++ [lsn] }

def polarAlrReleaseLocks (ctl : AlrCtl) (xid : TransactionId) : AlrCtl :=
  if xid = invalidTransactionId then
    { ctl with xactTbl := ctl.xactTbl.map fun xact => { xact with running := false } }
  else
    { ctl with
      xactTbl :=
        Keyed.modify AlrXact.xid xid (fun xact => { xact with running := false }) ctl.xactTbl }

def alrRemoveIdleLock (locks : List XLogRecPtr) (lsn : XLogRecPtr) :
    Except AlrError (List XLogRecPtr) :=
  if lsn ∈ locks then .ok (locks.erase lsn) else .error .cannotFindIdleLock

def lockRelease (held : Held) (alrLock : AlrLock) : Except AlrError Held :=
  if alrLock.state = .got then
    if alrLock.lock.relation ∈ held then .ok (held.erase alrLock.lock.relation)
      else .error .releaseFailed
  else .ok held

/-- A lock that is still idle leaves the replay queue. -/
def leaveQueue (locks : List XLogRecPtr) (alrLock : AlrLock) : Except AlrError (List XLogRecPtr) :=
  if alrLock.state = .idle then alrRemoveIdleLock locks alrLock.lsn else .ok locks

/-- Release one lock of an ended transaction and take it out of the tables. -/
def alrReleaseLock (shared : AlrCtl × Held) (lsn : XLogRecPtr) : Except AlrError (AlrCtl × Held) :=
  match Keyed.lookup AlrLock.lsn lsn shared.1.lockTbl with
  | none => .ok shared
  | some alrLock => do
      let held ← lockRelease shared.2 alrLock
      let locks ← leaveQueue shared.1.locks alrLock
      return ({ shared.1 with
          locks := locks, lockTbl := Keyed.remove AlrLock.lsn lsn shared.1.lockTbl }, held)

def alrReleaseLocks (shared : AlrCtl × Held) (xact : AlrXact) : Except AlrError (AlrCtl × Held) :=
  xact.locks.foldlM alrReleaseLock shared

/-- Release the locks of one transaction and take it out of the table. -/
def alrReleaseXact (shared : AlrCtl × Held) (xact : AlrXact) : Except AlrError (AlrCtl × Held) := do
  let released ← alrReleaseLocks shared xact
  return ({ released.1 with xactTbl := Keyed.remove AlrXact.xid xact.xid released.1.xactTbl },
    released.2)

/-- Release the transactions that are no longer running, one after the other. -/
def alrTryToReleaseXact (ctl : AlrCtl) (held : Held) : Except AlrError (AlrCtl × Held) :=
  (ctl.xactTbl.filter fun xact => !xact.running).foldlM alrReleaseXact (ctl, held)

def setState (st : AlrState) (ctl : AlrCtl) (lsn : XLogRecPtr) : AlrCtl :=
  { ctl with
    lockTbl :=
      Keyed.modify AlrLock.lsn lsn (fun alrLock => { alrLock with state := st }) ctl.lockTbl }

inductive Worker where
  | idle
  /-- The shared lock is released and `LockAcquire` is called. -/
  | getting (lsn : XLogRecPtr)
  deriving DecidableEq, Repr

/-- `alr_try_to_acquire_lock` up to the call of `LockAcquire`. -/
def alrTryToAcquireLock (ended : TransactionId → Bool) (ctl : AlrCtl) : AlrCtl × Worker :=
  match ctl.locks with
  | [] => ({ ctl with lsn := invalidXLogRecPtr }, .idle)
  | lsn :: rest =>
    let popped := setState .getting { ctl with locks := rest } lsn
    match Keyed.lookup AlrLock.lsn lsn ctl.lockTbl with
    | none => (popped, .idle)
    | some alrLock =>
      if alrLock.lock.xid = invalidTransactionId ∨ ended alrLock.lock.xid then
        ({ setState .skip popped lsn with lsn := lsn }, .idle)
      else (popped, .getting lsn)

/-- The rest of it, once the relation lock is granted. -/
def alrLockAcquired (ctl : AlrCtl) (held : Held) (lsn : XLogRecPtr) : AlrCtl × Held :=
  match Keyed.lookup AlrLock.lsn lsn ctl.lockTbl with
  | none => (ctl, held)
  | some alrLock => ({ setState .got ctl lsn with lsn := lsn }, alrLock.lock.relation :: held)

/-- `RecoveryLockLists`, flattened: the list of a transaction is its part of `locks`. -/
structure Recovery where
  locks : List StandbyLock
  held : Held
  deriving DecidableEq, Repr

def standbyAcquireAccessExclusiveLock (ended : TransactionId → Bool) (recovery : Recovery)
    (lock : StandbyLock) : Recovery :=
  if lock.xid = invalidTransactionId ∨ ended lock.xid then recovery
  else { locks := recovery.locks ++ [lock], held := lock.relation :: recovery.held }

def standbyReleaseLockList (held : Held) (locks : List StandbyLock) : Held :=
  locks.foldl (fun held lock => held.erase lock.relation) held

def standbyReleaseLocks (recovery : Recovery) (xid : TransactionId) : Recovery :=
  if xid = invalidTransactionId then
    { locks := [], held := standbyReleaseLockList recovery.held recovery.locks }
  else
    { locks := recovery.locks.filter fun lock => lock.xid ≠ xid
      held := standbyReleaseLockList recovery.held (recovery.locks.filter fun lock =>
        lock.xid = xid) }

/-- What is left of the record the startup process replays. -/
inductive Startup where
  | between
  | locking (lsn : XLogRecPtr) (rest : List StandbyLock)
  | ending (rest : List TransactionId)
  deriving DecidableEq, Repr

structure System where
  /-- The transactions the commit log knows as committed or aborted. -/
  ended : TransactionId → Bool
  /-- The end of the record being replayed, and of the last one that was replayed. -/
  replayEndRecPtr : XLogRecPtr
  lastReplayedEndRecPtr : XLogRecPtr
  startup : Startup
  ctl : AlrCtl
  worker : Worker
  held : Held
  recovery : Recovery

inductive Step : System → List (List StandbyLock) → System → Prop
  | otherRecord {sys : System} (lsn : XLogRecPtr) (idle : sys.startup = .between)
      (forward : sys.replayEndRecPtr < lsn) :
      Step sys [] { sys with replayEndRecPtr := lsn, lastReplayedEndRecPtr := lsn }
  | beginLocks {sys : System} (lsn : XLogRecPtr) (locks : List StandbyLock)
      (idle : sys.startup = .between) (forward : sys.replayEndRecPtr < lsn) :
      Step sys [locks] { sys with replayEndRecPtr := lsn, startup := .locking lsn locks }
  | addLock {sys : System} {lsn : XLogRecPtr} {lock : StandbyLock} {rest : List StandbyLock}
      (locking : sys.startup = .locking lsn (lock :: rest)) :
      Step sys [] { sys with
        startup := .locking lsn rest
        ctl := polarAlrAddAsyncLock sys.ctl lock lsn sys.lastReplayedEndRecPtr
        recovery := standbyAcquireAccessExclusiveLock sys.ended sys.recovery lock }
  | endLocks {sys : System} {lsn : XLogRecPtr} (locking : sys.startup = .locking lsn []) :
      Step sys [] { sys with startup := .between, lastReplayedEndRecPtr := lsn }
  | beginEnd {sys : System} (lsn : XLogRecPtr) (xids : List TransactionId)
      (idle : sys.startup = .between) (forward : sys.replayEndRecPtr < lsn)
      (valid : ∀ xid ∈ xids, xid ≠ invalidTransactionId) :
      Step sys [] { sys with
        replayEndRecPtr := lsn
        startup := .ending xids
        ended := fun xid => sys.ended xid || xids.contains xid }
  | release {sys : System} {xid : TransactionId} {rest : List TransactionId}
      (ending : sys.startup = .ending (xid :: rest)) :
      Step sys [] { sys with
        startup := .ending rest
        ctl := polarAlrReleaseLocks sys.ctl xid
        recovery := standbyReleaseLocks sys.recovery xid }
  | endEnd {sys : System} (ending : sys.startup = .ending []) : Step sys [] { sys with
        startup := .between, lastReplayedEndRecPtr := sys.replayEndRecPtr }
  | tryAcquire {sys : System} (idle : sys.worker = .idle) : Step sys [] { sys with
        ctl := (alrTryToAcquireLock sys.ended sys.ctl).1
        worker := (alrTryToAcquireLock sys.ended sys.ctl).2 }
  | acquired {sys : System} {lsn : XLogRecPtr} (getting : sys.worker = .getting lsn) :
      Step sys [] { sys with
        ctl := (alrLockAcquired sys.ctl sys.held lsn).1
        held := (alrLockAcquired sys.ctl sys.held lsn).2
        worker := .idle }
  | tryRelease {sys : System} {ctl : AlrCtl} {held : Held} (idle : sys.worker = .idle)
      (released : alrTryToReleaseXact sys.ctl sys.held = .ok (ctl, held)) :
      Step sys [] { sys with ctl := ctl, held := held }

/-- A run and the lock records replayed in it. -/
inductive Run : System → List (List StandbyLock) → System → Prop
  | refl (sys : System) : Run sys [] sys
  | tail {start middle next : System} {records more : List (List StandbyLock)}
      (run : Run start records middle) (step : Step middle more next) :
      Run start (records ++ more) next

def startSystem (ended : TransactionId → Bool) (lsn : XLogRecPtr) : System :=
  { ended := ended
    replayEndRecPtr := lsn
    lastReplayedEndRecPtr := lsn
    startup := .between
    ctl := { lsn := invalidXLogRecPtr, lockTbl := [], xactTbl := [], locks := [] }
    worker := .idle
    held := []
    recovery := { locks := [], held := [] } }

/-- The startup process is between records and the worker has nothing left to do. -/
structure Drained (sys : System) : Prop where
  between : sys.startup = .between
  idle : sys.worker = .idle
  queue : sys.ctl.locks = []
  released : ∀ xact ∈ sys.ctl.xactTbl, xact.running = true

end PolarDB.LockReplay.AsyncLock
