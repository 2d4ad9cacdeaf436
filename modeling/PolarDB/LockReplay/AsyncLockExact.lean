import PolarDB.LockReplay.AsyncLockRep

/-!
# Async lock replay holds what synchronous replay holds

The invariant compares the table of locks with the lists of synchronous replay,
transaction by transaction: for a running transaction they are the same, and
what the table still has of an ended one is either about to be released or will
be skipped. It is kept by every step as long as a record carries one lock.
-/

namespace PolarDB.LockReplay.AsyncLockExact

open List Lib Lib.Snoc
open LockReplay.AsyncLock
open LockReplay.AsyncLockRep

/-- The transaction has ended, and its release is still to come in the record being replayed. -/
def Pending (startup : Startup) (xid : TransactionId) : Prop := ∃ rest, startup = .ending rest ∧
    xid ∈ rest

def Quiet (alrLock : AlrLock) : Prop := alrLock.state = .idle ∨ alrLock.state = .skip

/-- The worker acquires the one lock that is being acquired. -/
structure Acquiring (table : List AlrLock) (worker : Worker) : Prop where
  state : ∀ alrLock ∈ table, alrLock.state = .getting ↔ worker = .getting alrLock.lsn
  present : ∀ lsn, worker = .getting lsn → ∃ alrLock ∈ table, alrLock.lsn = lsn

/-- The record LSNs of the table against the record being replayed. -/
structure Positions (table : List AlrLock) (replayEndRecPtr : XLogRecPtr) (startup : Startup) :
    Prop where
  bound : ∀ alrLock ∈ table, alrLock.lsn ≤ replayEndRecPtr
  fresh : ∀ lsn lock rest, startup = .locking lsn (lock :: rest) →
    rest = [] ∧ lsn ≤ replayEndRecPtr ∧ ∀ alrLock ∈ table, alrLock.lsn < lsn

/-- What the commit log says about the locks and the transactions in the tables. -/
structure Outcomes (ended : TransactionId → Bool) (startup : Startup) (ctl : AlrCtl) : Prop where
  pending : ∀ xid, Pending startup xid → ended xid = true ∧ xid ≠ invalidTransactionId
  running : ∀ xact ∈ ctl.xactTbl, ended xact.xid = false → xact.running = true
  skipped : ∀ alrLock ∈ ctl.lockTbl, alrLock.state = .skip →
    alrLock.lock.xid = invalidTransactionId ∨ ended alrLock.lock.xid = true
  invalid : ∀ alrLock ∈ ctl.lockTbl, alrLock.lock.xid = invalidTransactionId → Quiet alrLock
  late : ∀ alrLock ∈ ctl.lockTbl, ended alrLock.lock.xid = true →
    ¬ Pending startup alrLock.lock.xid →
    ∀ xact ∈ ctl.xactTbl, xact.xid = alrLock.lock.xid → xact.running = true → Quiet alrLock

/-- The lists of synchronous replay against the table of locks. -/
structure Follows (ended : TransactionId → Bool) (startup : Startup) (table : List AlrLock)
    (recovery : Recovery) : Prop where
  live : ∀ xid, xid ≠ invalidTransactionId → ended xid = false →
    recovery.locks.filter (fun lock => lock.xid = xid) =
      (table.filter (ofXact xid)).map fun alrLock => alrLock.lock
  known : ∀ lock ∈ recovery.locks, lock.xid ≠ invalidTransactionId ∧
    (ended lock.xid = false ∨ Pending startup lock.xid)
  held : recovery.held.Perm (recovery.locks.map StandbyLock.relation)

structure Agrees (sys : System) : Prop where
  rep : Rep sys.ctl sys.held
  acquiring : Acquiring sys.ctl.lockTbl sys.worker
  positions : Positions sys.ctl.lockTbl sys.replayEndRecPtr sys.startup
  outcomes : Outcomes sys.ended sys.startup sys.ctl
  follows : Follows sys.ended sys.startup sys.ctl.lockTbl sys.recovery

theorem not_pending_between (xid : TransactionId) : ¬ Pending .between xid := by
  rintro ⟨_, isEnding, -⟩
  cases isEnding

variable {lsn : XLogRecPtr} {lock : StandbyLock} {sys : System} {rest : List TransactionId}
    {locks : List StandbyLock} {xid : TransactionId} {alrLock : AlrLock}

theorem not_pending_locking (xid : TransactionId) : ¬ Pending (.locking lsn locks) xid := by
  rintro ⟨_, isEnding, -⟩
  cases isEnding

theorem pending_ending : Pending (.ending rest) xid ↔ xid ∈ rest := by
  constructor
  · rintro ⟨_, isEnding, mem⟩
    cases isEnding
    exact mem
  · exact fun mem => ⟨rest, rfl, mem⟩

variable {ended : TransactionId → Bool} {startup other : Startup} {ctl : AlrCtl}
  {table : List AlrLock}
  {recovery : Recovery} {worker : Worker} {replayEndRecPtr : XLogRecPtr}

theorem Outcomes.moved (outcomes : Outcomes ended startup ctl)
    (before : ∀ xid, ¬ Pending startup xid) (after : ∀ xid, ¬ Pending other xid) :
    Outcomes ended other ctl := by
  refine { outcomes with pending := ?_, late := ?_ }
  · exact fun xid pending => absurd pending (after xid)
  · exact fun alrLock mem isEnded _ => outcomes.late alrLock mem isEnded (before _)

theorem Follows.moved (follows : Follows ended startup table recovery)
    (before : ∀ xid, ¬ Pending startup xid) : Follows ended other table recovery := by
  refine { follows with known := ?_ }
  intro lock mem
  have known := follows.known lock mem
  exact ⟨known.1, .inl (known.2.resolve_right (before _))⟩

theorem Positions.forward {later : XLogRecPtr} (positions : Positions table replayEndRecPtr startup)
    (further : replayEndRecPtr < later)
      (idle : ∀ lsn lock rest, other = .locking lsn (lock :: rest) → rest = [] ∧ lsn = later) :
      Positions table later other := by
  constructor
  · exact fun alrLock mem => Nat.le_of_lt (Nat.lt_of_le_of_lt (positions.bound alrLock mem) further)
  intro lsn lock rest locking
  have single := idle lsn lock rest locking
  refine ⟨single.1, Nat.le_of_eq single.2, ?_⟩
  intro alrLock mem
  rw [single.2]
  exact Nat.lt_of_le_of_lt (positions.bound alrLock mem) further

variable {st : AlrState} {records : List (List StandbyLock)} {xids : List TransactionId}
  {relation : Oid × Oid}

theorem Outcomes.begin_end (outcomes : Outcomes ended .between ctl)
    (valid : ∀ xid ∈ xids, xid ≠ invalidTransactionId) :
    Outcomes (fun xid => ended xid || xids.contains xid) (.ending xids) ctl := by
  constructor
  · intro xid pending
    have mem := pending_ending.mp pending
    exact ⟨by simp [mem], valid xid mem⟩
  · intro xact mem notEnded
    exact outcomes.running xact mem (Bool.or_eq_false_iff.mp notEnded).1
  · intro alrLock mem skipped
    exact (outcomes.skipped alrLock mem skipped).imp_right (fun isEnded => by simp [isEnded])
  · exact outcomes.invalid
  · intro alrLock mem isEnded settled
    have outside : alrLock.lock.xid ∉ xids := fun inside => settled (pending_ending.mpr inside)
    have before : ended alrLock.lock.xid = true := by simpa [outside] using isEnded
    exact outcomes.late alrLock mem before (not_pending_between _)

theorem Follows.begin_end (follows : Follows ended .between table recovery) :
    Follows (fun xid => ended xid || xids.contains xid) (.ending xids) table recovery := by
  constructor
  · intro xid isValid notEnded
    exact follows.live xid isValid (Bool.or_eq_false_iff.mp notEnded).1
  · intro lock mem
    have known := follows.known lock mem
    have notEnded : ended lock.xid = false := known.2.resolve_right (not_pending_between _)
    refine ⟨known.1, ?_⟩
    by_cases inside : lock.xid ∈ xids
    · exact .inr (pending_ending.mpr inside)
    · exact .inl (by simp [notEnded, inside])
  · exact follows.held

theorem Outcomes.release (outcomes : Outcomes ended (.ending (xid :: rest)) ctl) :
    Outcomes ended (.ending rest) (polarAlrReleaseLocks ctl xid) := by
  have isOver := outcomes.pending xid (pending_ending.mpr (by simp))
  unfold polarAlrReleaseLocks
  rw [if_neg isOver.2]
  constructor
  · intro another pending
    exact outcomes.pending another (pending_ending.mpr (by simp [pending_ending.mp pending]))
  · intro xact mem notEnded
    rcases Keyed.mem_modify.mp mem with ⟨old, inside, isXid, isNew⟩ | ⟨inside, apart⟩
    · have isEnded : ended xact.xid = true := by
        rw [isNew]
        exact isXid ▸ isOver.1
      rw [isEnded] at notEnded
      cases notEnded
    · exact outcomes.running xact inside notEnded
  · exact outcomes.skipped
  · exact outcomes.invalid
  · intro alrLock mem isEnded settled xact isXact sameXid isRunning
    rcases Keyed.mem_modify.mp isXact with ⟨_, inside, isXid, isNew⟩ | ⟨inside, apart⟩
    · rw [isNew] at isRunning
      cases isRunning
    · apply outcomes.late alrLock mem isEnded _ xact inside sameXid isRunning
      intro pending
      rcases mem_cons.mp (pending_ending.mp pending) with isXid | later
      · exact apart (sameXid.trans isXid)
      · exact settled (pending_ending.mpr later)

theorem release_lock_list_perm (gone : List StandbyLock) (held rest : Held)
    (whole : held.Perm (gone.map StandbyLock.relation ++ rest)) :
    (standbyReleaseLockList held gone).Perm rest := by
  induction gone generalizing held with
  | nil => exact whole
  | cons lock _ ih =>
    apply ih
    have isHeld : lock.relation ∈ held := whole.mem_iff.mpr (by simp)
    exact (perm_cons _).mp ((perm_cons_erase isHeld).symm.trans whole)

theorem Follows.release (follows : Follows ended (.ending (xid :: rest)) table recovery)
    (isOver : ended xid = true ∧ xid ≠ invalidTransactionId) :
    Follows ended (.ending rest) table (standbyReleaseLocks recovery xid) := by
  unfold standbyReleaseLocks
  rw [if_neg isOver.2]
  constructor
  · intro another isValid notEnded
    have apart : another ≠ xid := by
      intro same
      rw [same, isOver.1] at notEnded
      cases notEnded
    rw [← follows.live another isValid notEnded, filter_filter]
    apply filter_congr
    intro lock _
    by_cases mine : lock.xid = another
    · simp [mine, apart]
    · simp [mine]
  · intro lock mem
    have inLocks := mem_filter.mp mem
    have known := follows.known lock inLocks.1
    have away : lock.xid ≠ xid := by simpa using inLocks.2
    refine ⟨known.1, known.2.imp_right ?_⟩
    intro pending
    rcases mem_cons.mp (pending_ending.mp pending) with same | later
    · exact absurd same away
    · exact pending_ending.mpr later
  · apply release_lock_list_perm
    rw [← map_append]
    apply follows.held.trans
    apply List.Perm.map
    have split := filter_append_perm (fun lock : StandbyLock => decide (lock.xid = xid))
      recovery.locks
    apply split.symm.trans
    apply List.Perm.append_left
    apply List.Perm.of_eq
    apply filter_congr
    intro _ _
    simp

theorem added_xact_origin {xacts : List AlrXact} {xact : AlrXact}
    (unique : (xacts.map AlrXact.xid).Nodup)
    (mem : xact ∈ Keyed.modify AlrXact.xid lock.xid
      (fun old => { old with locks := old.locks ++ [lsn] }) (enterXact xacts lock.xid)) :
    (∃ old ∈ xacts, old.xid = xact.xid ∧ old.running = xact.running) ∨
      xact.running = true ∧ ∀ old ∈ xacts, old.xid ≠ xact.xid := by
  have entered := (enter_xact_spec xacts lock.xid unique).2.2.2
  rcases Keyed.mem_modify.mp mem with ⟨old, inside, -, isNew⟩ | ⟨inside, -⟩
  · rcases entered old inside with known | ⟨new, absent⟩
    · exact .inl ⟨old, known, by rw [isNew], by rw [isNew]⟩
    · rw [isNew, new]
      exact .inr ⟨rfl, absent⟩
  · rcases entered xact inside with known | ⟨new, absent⟩
    · exact .inl ⟨xact, known, rfl, rfl⟩
    · rw [new]
      exact .inr ⟨rfl, absent⟩

theorem Acquiring.add (acquiring : Acquiring table worker)
    (fresh : ∀ alrLock ∈ table, alrLock.lsn < lsn) :
    Acquiring (table ++ [{ lsn := lsn, lock := lock, state := .idle }]) worker := by
  constructor
  · refine forall_mem_snoc.mpr ⟨acquiring.state, nofun, fun getting => ?_⟩
    rcases acquiring.present lsn getting with ⟨before, inside, same⟩
    exact absurd same (Nat.ne_of_lt (fresh before inside))
  · intro pos getting
    rcases acquiring.present pos getting with ⟨before, inside, same⟩
    exact ⟨before, mem_append_left _ inside, same⟩

theorem Positions.add (positions : Positions table replayEndRecPtr startup)
    (behind : lsn ≤ replayEndRecPtr) :
    Positions (table ++ [{ lsn := lsn, lock := lock, state := .idle }]) replayEndRecPtr
    (.locking lsn []) := by
  constructor
  · exact forall_mem_snoc.mpr ⟨positions.bound, behind⟩
  · exact nofun

theorem Outcomes.add {lsn lastLsn : XLogRecPtr} {held : Held}
    (outcomes : Outcomes ended (.locking lsn locks) ctl) (rep : Rep ctl held)
    (fresh : ∀ alrLock ∈ ctl.lockTbl, alrLock.lsn ≠ lsn) :
    Outcomes ended (.locking lsn []) (polarAlrAddAsyncLock ctl lock lsn lastLsn) := by
  unfold polarAlrAddAsyncLock
  rw [Keyed.lookup_eq_none.mpr fresh]
  constructor
  · exact fun xid pending => absurd pending (not_pending_locking xid)
  · intro xact mem notEnded
    rcases added_xact_origin rep.xacts.xids mem with ⟨old, inside, sameXid,
      sameRunning⟩ | ⟨isRunning, -⟩
    · rw [← sameRunning]
      exact outcomes.running old inside (sameXid ▸ notEnded)
    · exact isRunning
  · exact forall_mem_snoc.mpr ⟨outcomes.skipped, nofun⟩
  · exact forall_mem_snoc.mpr ⟨outcomes.invalid, fun _ => .inl rfl⟩
  · refine forall_mem_snoc.mpr ⟨?_, fun _ _ _ _ _ _ => .inl rfl⟩
    intro alrLock old isEnded _ _ isXact sameXid isRunning
    rcases added_xact_origin rep.xacts.xids isXact with ⟨before, inside, xid, running⟩ | ⟨-, absent⟩
    · exact outcomes.late alrLock old isEnded (not_pending_locking _) before inside
        (xid.trans sameXid) (running.trans isRunning)
    · rcases rep.xacts.owners alrLock old with ⟨owner, isOwner, ownerXid⟩
      exact absurd (ownerXid.trans sameXid.symm) (absent owner isOwner)

theorem Follows.add (follows : Follows ended (.locking lsn locks) table recovery) :
    Follows ended (.locking lsn []) (table ++ [{ lsn := lsn, lock := lock, state := .idle }])
      (standbyAcquireAccessExclusiveLock ended recovery lock) := by
  have moved : Follows ended (.locking lsn []) table recovery := follows.moved not_pending_locking
  unfold standbyAcquireAccessExclusiveLock
  split_ifs with ignored
  · -- the lock of an ended transaction is in the table, and in no list of a running one
    constructor
    · intro xid isValid notEnded
      have apart : lock.xid ≠ xid := by
        intro same
        rw [same, notEnded] at ignored
        rcases ignored with isInvalid | isEnded
        · exact isValid isInvalid
        · cases isEnded
      rw [follows.live xid isValid notEnded, filter_append]
      simp [ofXact, apart]
    · exact moved.known
    · exact follows.held
  · rw [not_or] at ignored
    constructor
    · intro xid isValid notEnded
      rw [filter_append, filter_append, map_append, follows.live xid isValid notEnded]
      by_cases mine : lock.xid = xid
      · simp [ofXact, mine]
      · simp [ofXact, mine]
    · exact forall_mem_snoc.mpr ⟨moved.known, ignored.1, .inl (by simpa using ignored.2)⟩
    · rw [map_append]
      exact (follows.held.cons lock.relation).trans (perm_append_singleton _ _).symm

theorem Follows.set_state (follows : Follows ended startup table recovery) :
    Follows ended startup (withState st lsn table) recovery := by
  refine { follows with live := ?_ }
  intro xid isValid notEnded
  rw [Keyed.filter_modify, Keyed.map_modify]
  · exact follows.live xid isValid notEnded
  · exact fun _ _ _ => rfl
  · exact fun _ _ _ => rfl

theorem Positions.of_origin {next : List AlrLock}
    (positions : Positions table replayEndRecPtr startup)
    (origin : ∀ alrLock ∈ next, ∃ old ∈ table, old.lsn = alrLock.lsn) :
    Positions next replayEndRecPtr startup := by
  constructor
  · intro alrLock mem
    rcases origin alrLock mem with ⟨old, inside, same⟩
    exact same ▸ positions.bound old inside
  intro pos lock rest locking
  have fresh := positions.fresh pos lock rest locking
  refine ⟨fresh.1, fresh.2.1, ?_⟩
  intro alrLock mem
  rcases origin alrLock mem with ⟨old, inside, same⟩
  exact same ▸ fresh.2.2 old inside

theorem Positions.set_state (positions : Positions table replayEndRecPtr startup) :
    Positions (withState st lsn table) replayEndRecPtr startup := by
  apply positions.of_origin
  intro alrLock mem
  rcases Keyed.mem_modify.mp mem with ⟨old, inside, -, isNew⟩ | ⟨inside, -⟩
  · exact ⟨old, inside, by rw [isNew]⟩
  · exact ⟨alrLock, inside, rfl⟩

theorem Outcomes.set_state {next : AlrCtl}
    (outcomes : Outcomes ended startup ctl) (unique : (ctl.lockTbl.map AlrLock.lsn).Nodup)
    (mem : alrLock ∈ ctl.lockTbl)
    (lockTbl : next.lockTbl = withState st alrLock.lsn ctl.lockTbl)
    (xactTbl : next.xactTbl = ctl.xactTbl)
    (fits :
      (st = .skip ∧ (alrLock.lock.xid = invalidTransactionId ∨ ended alrLock.lock.xid = true)) ∨
      (st ≠ .skip ∧ (¬ Quiet alrLock ∨
        alrLock.lock.xid ≠ invalidTransactionId ∧ ended alrLock.lock.xid = false))) :
    Outcomes ended startup next := by
  have origin : ∀ changed ∈ next.lockTbl, changed ∈ ctl.lockTbl ∨ changed.lock = alrLock.lock ∧
    changed.state = st := by
    intro changed inside
    rw [lockTbl] at inside
    rcases Keyed.mem_modify.mp inside with ⟨old, isOld, same, isNew⟩ | ⟨isOld, -⟩
    · have isLock := Keyed.eq_of_key unique isOld mem same
      rw [isNew, isLock]
      exact .inr ⟨rfl, rfl⟩
    · exact .inl isOld
  constructor
  · exact outcomes.pending
  · rw [xactTbl]
    exact outcomes.running
  · intro changed inside skipped
    rcases origin changed inside with old | ⟨sameLock, isState⟩
    · exact outcomes.skipped changed old skipped
    · rw [sameLock]
      rcases fits with ⟨-, isOver⟩ | ⟨notSkip, -⟩
      · exact isOver
      · exact absurd (isState.symm.trans skipped) notSkip
  · intro changed inside isInvalid
    rcases origin changed inside with old | ⟨sameLock, isState⟩
    · exact outcomes.invalid changed old isInvalid
    · rw [sameLock] at isInvalid
      rcases fits with ⟨isSkip, -⟩ | ⟨-, loud | running⟩
      · exact .inr (isState.trans isSkip)
      · exact absurd (outcomes.invalid alrLock mem isInvalid) loud
      · exact absurd isInvalid running.1
  · intro changed inside isEnded settled xact isXact sameXid isRunning
    rw [xactTbl] at isXact
    rcases origin changed inside with old | ⟨sameLock, isState⟩
    · exact outcomes.late changed old isEnded settled xact isXact sameXid isRunning
    rw [sameLock] at isEnded settled sameXid
    rcases fits with ⟨isSkip, -⟩ | ⟨-, loud | running⟩
    · exact .inr (isState.trans isSkip)
    · exact absurd (outcomes.late alrLock mem isEnded settled xact isXact sameXid isRunning) loud
    · rw [running.2] at isEnded
      cases isEnded

/-- The worker is done with the lock that it may have been acquiring. -/
theorem Acquiring.finish (acquiring : Acquiring table worker)
    (only : ∀ pos, worker = .getting pos → pos = lsn) (done : st ≠ .getting) :
    Acquiring (withState st lsn table) .idle := by
  constructor
  · intro changed inside
    constructor
    · intro getting
      rcases Keyed.mem_modify.mp inside with ⟨_, -, -, isNew⟩ | ⟨isOld, apart⟩
      · rw [isNew] at getting
        exact absurd getting done
      · exact absurd (only _ ((acquiring.state changed isOld).mp getting)) apart
    · exact nofun
  · exact fun _ isGetting => nomatch isGetting

theorem Acquiring.begin (acquiring : Acquiring table .idle) (mem : alrLock ∈ table) :
    Acquiring (withState .getting alrLock.lsn table) (.getting alrLock.lsn) := by
  constructor
  · intro changed inside
    rcases Keyed.mem_modify.mp inside with ⟨_, -, same, isNew⟩ | ⟨isOld, apart⟩
    · rw [isNew]
      exact ⟨fun _ => by rw [← same], fun _ => rfl⟩
    constructor
    · intro getting
      cases (acquiring.state changed isOld).mp getting
    · intro isGetting
      injection isGetting with same
      exact absurd same.symm apart
  · intro _ isGetting
    cases isGetting
    exact ⟨_, Keyed.mem_modify.mpr (.inl ⟨alrLock, mem, rfl, rfl⟩), rfl⟩

theorem Agrees.try_acquire (agrees : Agrees sys) (idle : sys.worker = .idle) : Agrees { sys with
      ctl := (alrTryToAcquireLock sys.ended sys.ctl).1
      worker := (alrTryToAcquireLock sys.ended sys.ctl).2 } := by
  have views := agrees.rep.views
  have acquiring := agrees.acquiring
  rw [idle] at acquiring
  unfold alrTryToAcquireLock
  cases queue : sys.ctl.locks with
  | nil =>
    have rep := agrees.rep
    have outcomes := agrees.outcomes
    rw [queue] at views
    exact ⟨⟨views, rep.xacts⟩, acquiring, agrees.positions, { outcomes with }, agrees.follows⟩
  | cons lsn =>
    have inQueue : lsn ∈ sys.ctl.locks := by simp [queue]
    rw [views.queue] at inQueue
    rcases mem_map.mp inQueue with ⟨_, inView, isLsn⟩
    subst isLsn
    have inTable := mem_filter.mp inView
    rw [queue] at views
    dsimp only
    rw [Keyed.lookup_of_mem views.keys inTable.1]
    dsimp only
    split_ifs with isOver
    · rw [set_state_twice]
      exact ⟨⟨views_pop views (by simp) (by simp), xacts_set_state agrees.rep.xacts⟩,
        acquiring.finish (fun _ => nofun) (by simp),
        agrees.positions.set_state,
        agrees.outcomes.set_state views.keys inTable.1 rfl rfl (.inl ⟨rfl, isOver⟩),
        agrees.follows.set_state⟩
    · rw [not_or] at isOver
      exact ⟨⟨views_pop views (by simp) (by simp), xacts_set_state agrees.rep.xacts⟩,
        acquiring.begin inTable.1, agrees.positions.set_state,
        agrees.outcomes.set_state views.keys inTable.1 rfl rfl
          (.inr ⟨by simp, .inr ⟨isOver.1, by simpa using isOver.2⟩⟩),
        agrees.follows.set_state⟩

theorem Agrees.acquired (agrees : Agrees sys) (getting : sys.worker = .getting lsn) :
    Agrees { sys with
      ctl := (alrLockAcquired sys.ctl sys.held lsn).1
      held := (alrLockAcquired sys.ctl sys.held lsn).2
      worker := .idle } := by
  have views := agrees.rep.views
  rcases agrees.acquiring.present lsn getting with ⟨alrLock, mem, isLsn⟩
  subst isLsn
  have isGetting := (agrees.acquiring.state alrLock mem).mpr getting
  have loud : ¬ Quiet alrLock := by
    unfold Quiet
    rw [isGetting]
    simp
  have only : ∀ pos, sys.worker = .getting pos → pos = alrLock.lsn := by
    intro pos same
    rw [getting] at same
    injection same with same
    exact same.symm
  unfold alrLockAcquired
  rw [Keyed.lookup_of_mem views.keys mem]
  exact ⟨⟨views_got views mem isGetting, xacts_set_state agrees.rep.xacts⟩,
    agrees.acquiring.finish only (by simp),
    agrees.positions.set_state,
    agrees.outcomes.set_state views.keys mem rfl rfl (.inr ⟨by simp, .inl loud⟩),
    agrees.follows.set_state⟩

theorem Agrees.try_release {ctl : AlrCtl} {held : Held} (agrees : Agrees sys)
    (idle : sys.worker = .idle)
    (released : alrTryToReleaseXact sys.ctl sys.held = .ok (ctl, held)) :
    Agrees { sys with ctl := ctl, held := held } := by
  rcases agrees.rep.try_to_release with ⟨_, _, res, rep, left⟩
  rw [res] at released
  cases released
  have acquiring := agrees.acquiring
  have outcomes := agrees.outcomes
  have follows := agrees.follows
  have stays : ∀ xid, sys.ended xid = false →
      xid ∉ (sys.ctl.xactTbl.filter fun xact => !xact.running).map AlrXact.xid := by
    intro xid notEnded gone
    rcases mem_map.mp gone with ⟨xact, inGone, isXid⟩
    have inTable := mem_filter.mp inGone
    have isRunning := outcomes.running xact inTable.1 (isXid ▸ notEnded)
    rw [isRunning] at inTable
    simp at inTable
  constructor
  · exact rep
  · constructor
    · intro alrLock mem
      exact acquiring.state alrLock ((left.lockTbl alrLock).mp mem).1
    · intro lsn getting
      rw [idle] at getting
      cases getting
  · apply agrees.positions.of_origin
    exact fun alrLock mem => ⟨alrLock, ((left.lockTbl alrLock).mp mem).1, rfl⟩
  · constructor
    · exact outcomes.pending
    · exact fun xact mem => outcomes.running xact ((left.xactTbl xact).mp mem).1
    · exact fun alrLock mem => outcomes.skipped alrLock ((left.lockTbl alrLock).mp mem).1
    · exact fun alrLock mem => outcomes.invalid alrLock ((left.lockTbl alrLock).mp mem).1
    · intro alrLock mem isEnded settled xact isXact
      exact outcomes.late alrLock ((left.lockTbl alrLock).mp mem).1 isEnded settled xact
        ((left.xactTbl xact).mp isXact).1
  · refine { follows with live := ?_ }
    intro xid isValid notEnded
    rw [left.others xid (stays xid notEnded)]
    exact follows.live xid isValid notEnded

theorem agrees_start (ended : TransactionId → Bool) (lsn : XLogRecPtr) :
    Agrees (startSystem ended lsn) := by
  constructor
  · exact ⟨⟨nodup_nil, rfl, List.Perm.nil⟩,
      ⟨nodup_nil, by simp [startSystem], by simp [startSystem]⟩⟩
  · exact ⟨by simp [startSystem], fun _ getting => nomatch getting⟩
  · exact ⟨by simp [startSystem], fun _ _ _ locking => nomatch locking⟩
  · exact ⟨fun xid pending => absurd pending (not_pending_between xid), by simp [startSystem],
      by simp [startSystem], by simp [startSystem], by simp [startSystem]⟩
  · exact ⟨fun _ _ _ => rfl, by simp [startSystem], List.Perm.nil⟩

theorem Agrees.step {sys next : System} (agrees : Agrees sys)
    (step : Step sys records next) (single : ∀ locks ∈ records, locks.length = 1) :
    Agrees next := by
  have outcomes := agrees.outcomes
  have follows := agrees.follows
  have positions := agrees.positions
  cases step with
  | otherRecord lsn idle forward =>
    have between : ∀ pos lock rest, sys.startup = .locking pos (lock :: rest) → rest = [] ∧
      pos = lsn := by
      intro pos lock rest locking
      rw [idle] at locking
      cases locking
    exact ⟨agrees.rep, agrees.acquiring, positions.forward forward between, outcomes, follows⟩
  | beginLocks lsn locks idle forward =>
    have one : locks.length = 1 := single locks (by simp)
    rw [idle] at outcomes follows
    have alone : ∀ pos lock rest, Startup.locking lsn locks = .locking pos (lock :: rest) →
      rest = [] ∧ pos = lsn := by
      intro _ lock rest locking
      injection locking with isLsn isList
      subst isList
      exact ⟨length_eq_zero_iff.mp (Nat.succ.inj one), isLsn.symm⟩
    exact ⟨agrees.rep, agrees.acquiring, positions.forward forward alone,
      outcomes.moved not_pending_between not_pending_locking, follows.moved not_pending_between⟩
  | @addLock lsn lock rest locking =>
    have fresh := positions.fresh lsn lock rest locking
    have away : ∀ alrLock ∈ sys.ctl.lockTbl, alrLock.lsn ≠ lsn :=
      fun alrLock mem => Nat.ne_of_lt (fresh.2.2 alrLock mem)
    rw [locking] at outcomes follows
    rw [fresh.1]
    have added := agrees.rep.add lock sys.lastReplayedEndRecPtr away
    have table := added.2
    refine ⟨added.1, ?_, ?_, outcomes.add agrees.rep away, ?_⟩
    · rw [table]
      exact agrees.acquiring.add fresh.2.2
    · rw [table]
      exact positions.add fresh.2.1
    · rw [table]
      exact follows.add
  | @endLocks lsn locking =>
    rw [locking] at outcomes follows
    exact ⟨agrees.rep, agrees.acquiring, ⟨positions.bound, fun _ _ _ locking => nomatch locking⟩,
      outcomes.moved not_pending_locking not_pending_between, follows.moved not_pending_locking⟩
  | beginEnd _ _ idle forward valid =>
    rw [idle] at outcomes follows
    exact ⟨agrees.rep, agrees.acquiring,
      positions.forward forward (fun _ _ _ locking => nomatch locking),
      outcomes.begin_end valid, follows.begin_end⟩
  | @release xid rest ending =>
    rw [ending] at outcomes follows
    have isOver := outcomes.pending xid (pending_ending.mpr (by simp))
    have kept : (polarAlrReleaseLocks sys.ctl xid).lockTbl = sys.ctl.lockTbl := by
      unfold polarAlrReleaseLocks
      split_ifs <;> rfl
    have rep : Rep (polarAlrReleaseLocks sys.ctl xid) sys.held := by
      unfold polarAlrReleaseLocks
      rw [if_neg isOver.2]
      exact ⟨agrees.rep.views, xacts_stop agrees.rep.xacts⟩
    refine ⟨rep, ?_, ?_, outcomes.release, ?_⟩
    · rw [kept]
      exact agrees.acquiring
    · rw [kept]
      exact ⟨positions.bound, fun _ _ _ locking => nomatch locking⟩
    · rw [kept]
      exact follows.release isOver
  | endEnd ending =>
    rw [ending] at outcomes follows
    have released : ∀ xid, ¬ Pending (.ending []) xid := fun _ pending =>
      not_mem_nil (pending_ending.mp pending)
    exact ⟨agrees.rep, agrees.acquiring, ⟨positions.bound, fun _ _ _ locking => nomatch locking⟩,
      outcomes.moved released not_pending_between, follows.moved released⟩
  | tryAcquire idle => exact agrees.try_acquire idle
  | acquired getting => exact agrees.acquired getting
  | tryRelease idle released => exact agrees.try_release idle released

theorem agrees_of_run {start sys : System} (agrees : Agrees start)
    (run : Run start records sys) (single : ∀ locks ∈ records, locks.length = 1) : Agrees sys := by
  induction run with
  | refl => exact agrees
  | tail _ step ih =>
    have earlier := ih (fun locks mem => single locks (mem_append_left _ mem))
    exact earlier.step step (fun locks mem => single locks (mem_append_right _ mem))

theorem Agrees.held_synchronously (agrees : Agrees sys) (drained : Drained sys)
    (isHeld : relation ∈ sys.held) : relation ∈ sys.recovery.held := by
  have outcomes := agrees.outcomes
  rw [agrees.rep.views.held.mem_iff] at isHeld
  rcases mem_map.mp isHeld with ⟨alrLock, inView, isRelation⟩
  have inTable := mem_filter.mp inView
  have isGot : alrLock.state = .got := of_decide_eq_true inTable.2
  have loud : ¬ Quiet alrLock := by
    unfold Quiet
    rw [isGot]
    simp
  have isValid : alrLock.lock.xid ≠ invalidTransactionId :=
    fun isInvalid => loud (outcomes.invalid alrLock inTable.1 isInvalid)
  have notEnded : sys.ended alrLock.lock.xid = false := by
    cases isEnded : sys.ended alrLock.lock.xid with
    | false => rfl
    | true =>
      rcases agrees.rep.xacts.owners alrLock inTable.1 with ⟨xact, isXact, sameXid⟩
      rw [drained.between] at outcomes
      exact absurd
        (outcomes.late alrLock inTable.1 isEnded (not_pending_between _) xact isXact sameXid
          (drained.released xact isXact)) loud
  have inList : alrLock.lock ∈ sys.recovery.locks.filter
    (fun lock => lock.xid = alrLock.lock.xid) := by
    rw [agrees.follows.live _ isValid notEnded]
    exact mem_map_of_mem (mem_filter.mpr ⟨inTable.1, by simp [ofXact]⟩)
  rw [agrees.follows.held.mem_iff, ← isRelation]
  exact mem_map_of_mem (mem_filter.mp inList).1

theorem Agrees.held_by_worker (agrees : Agrees sys) (drained : Drained sys)
    (isHeld : relation ∈ sys.recovery.held) : relation ∈ sys.held := by
  rw [agrees.follows.held.mem_iff] at isHeld
  rcases mem_map.mp isHeld with ⟨lock, inLocks, isRelation⟩
  have known := agrees.follows.known lock inLocks
  rw [drained.between] at known
  have notEnded := known.2.resolve_right (not_pending_between _)
  have inList : lock ∈ sys.recovery.locks.filter (fun other => other.xid = lock.xid) :=
    mem_filter.mpr ⟨inLocks, by simp⟩
  rw [agrees.follows.live _ known.1 notEnded] at inList
  rcases mem_map.mp inList with ⟨alrLock, inView, isLock⟩
  have inTable := (mem_filter.mp inView).1
  have isGot : alrLock.state = .got := by
    cases st : alrLock.state with
    | got => rfl
    | idle =>
      have queued : alrLock.lsn ∈ sys.ctl.locks := by
        rw [agrees.rep.views.queue]
        exact mem_map_of_mem (mem_filter.mpr ⟨inTable, by simp [inState, st]⟩)
      rw [drained.queue] at queued
      cases queued
    | getting =>
      have busy := (agrees.acquiring.state alrLock inTable).mp st
      rw [drained.idle] at busy
      cases busy
    | skip =>
      rcases agrees.outcomes.skipped alrLock inTable st with isInvalid | isEnded
      · rw [isLock] at isInvalid
        exact absurd isInvalid known.1
      · rw [isLock, notEnded] at isEnded
        cases isEnded
  rw [agrees.rep.views.held.mem_iff, ← isRelation, ← isLock]
  exact mem_map.mpr ⟨alrLock, mem_filter.mpr ⟨inTable, by simp [inState, isGot]⟩, rfl⟩

/-- When every lock record carries one lock, the worker that has drained its queue holds exactly the
relation locks that synchronous replay holds. -/
theorem drained_worker_holds_synchronous_locks {ended : TransactionId → Bool} {lsn : XLogRecPtr}
    {records : List (List StandbyLock)} {sys : System}
    (run : Run (startSystem ended lsn) records sys) (single : ∀ locks ∈ records, locks.length = 1)
    (drained : Drained sys) (relation : Oid × Oid) :
    relation ∈ sys.held ↔ relation ∈ sys.recovery.held := by
  have agrees := agrees_of_run (agrees_start ended lsn) run single
  exact ⟨agrees.held_synchronously drained, agrees.held_by_worker drained⟩

def relationLock (relOid : Oid) : StandbyLock := { xid := 5, dbOid := 1, relOid := relOid }

def noneEnded : System := startSystem (fun _ => false) 10

/-- Two records are replayed; the worker takes the lock of the first one in between. -/
theorem run_two_locks : ∃ sys, Run noneEnded [[relationLock 2], [relationLock 3]] sys ∧
    Drained sys ∧ sys.held = [(1, 3), (1, 2)] := by
  have begun := (Run.refl noneEnded).tail (Step.beginLocks 20 [relationLock 2] rfl (by decide))
  have replayed := (begun.tail (Step.addLock rfl)).tail (Step.endLocks rfl)
  have popped := replayed.tail (Step.tryAcquire rfl)
  have begunNext := popped.tail (Step.beginLocks 30 [relationLock 3] rfl (by decide))
  have acquired := (begunNext.tail (Step.addLock rfl)).tail (Step.acquired rfl)
  have replayedNext := acquired.tail (Step.endLocks rfl)
  have acquiredNext := (replayedNext.tail (Step.tryAcquire rfl)).tail (Step.acquired rfl)
  refine ⟨_, acquiredNext, ⟨rfl, rfl, rfl, ?_⟩, rfl⟩
  decide

theorem drained_worker_holds_two_locks :
    ∃ sys, Run noneEnded [[relationLock 2], [relationLock 3]] sys ∧ sys.held = [(1, 3), (1, 2)] ∧
      ∀ relation, relation ∈ sys.held ↔ relation ∈ sys.recovery.held := by
  rcases run_two_locks with ⟨sys, run, drained, held⟩
  exact ⟨sys, run, held, drained_worker_holds_synchronous_locks run (by decide) drained⟩

/-- The second lock of a record finds the entry of the first one under the record's LSN and is
dropped. -/
theorem second_lock_of_record_dropped :
    ∃ sys, Run noneEnded [[relationLock 2, relationLock 3]] sys ∧ Drained sys ∧
      sys.ended 5 = false ∧ (1, 3) ∈ sys.recovery.held ∧ (1, 3) ∉ sys.held := by
  have begun := (Run.refl noneEnded).tail (Step.beginLocks 20 [relationLock 2,
    relationLock 3] rfl (by decide))
  have addedFirst := begun.tail (Step.addLock rfl)
  have addedSecond := addedFirst.tail (Step.addLock rfl)
  have replayed := addedSecond.tail (Step.endLocks rfl)
  have popped := replayed.tail (Step.tryAcquire rfl)
  have acquired := popped.tail (Step.acquired rfl)
  refine ⟨_, acquired, ⟨rfl, rfl, rfl, ?_⟩, rfl, ?_, ?_⟩
  · decide
  · decide
  · decide

end PolarDB.LockReplay.AsyncLockExact
