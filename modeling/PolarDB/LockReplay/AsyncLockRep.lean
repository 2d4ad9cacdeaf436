import PolarDB.LockReplay.AsyncLock

/-!
# The shared tables are views of one list of locks

The replay queue is the list of idle locks, the list of a transaction is the
list of its locks, and the relations the worker holds are those of the locks it
got. Every function of the two processes is described by what it does to the
table of locks.
-/

namespace PolarDB.LockReplay.AsyncLockRep

open List Lib
open LockReplay.AsyncLock

def inState (st : AlrState) (alrLock : AlrLock) : Bool := alrLock.state = st

def ofXact (xid : TransactionId) (alrLock : AlrLock) : Bool := alrLock.lock.xid = xid

/-- The queue and the held relations against the table of locks. -/
structure Views (table : List AlrLock) (queue : List XLogRecPtr) (held : Held) : Prop where
  keys : (table.map AlrLock.lsn).Nodup
  queue : queue = (table.filter (inState .idle)).map AlrLock.lsn
  held : held.Perm ((table.filter (inState .got)).map fun alrLock => alrLock.lock.relation)

/-- The transactions against the table of locks. -/
structure Xacts (table : List AlrLock) (xacts : List AlrXact) : Prop where
  xids : (xacts.map AlrXact.xid).Nodup
  lists : ∀ xact ∈ xacts, xact.locks = (table.filter (ofXact xact.xid)).map AlrLock.lsn
  owners : ∀ alrLock ∈ table, ∃ xact ∈ xacts, xact.xid = alrLock.lock.xid

structure Rep (ctl : AlrCtl) (held : Held) : Prop where
  views : Views ctl.lockTbl ctl.locks held
  xacts : Xacts ctl.lockTbl ctl.xactTbl

variable {ctl : AlrCtl} {held : Held} {table : List AlrLock} {queue : List XLogRecPtr}
  {xacts : List AlrXact}

variable {alrLock : AlrLock} {lsn : XLogRecPtr} {xid : TransactionId}
variable {lock : StandbyLock} {st : AlrState}

theorem views_add (views : Views table queue held) (fresh : ∀ alrLock ∈ table, alrLock.lsn ≠ lsn) :
    Views (table ++ [{ lsn := lsn, lock := lock, state := .idle }]) (queue ++ [lsn]) held := by
  constructor
  · exact Keyed.nodup_snoc views.keys fresh
  · rw [filter_append, map_append, views.queue]
    simp [inState]
  · rw [filter_append]
    simpa [inState] using views.held

theorem enter_xact_spec (xacts : List AlrXact) (xid : TransactionId)
    (unique : (xacts.map AlrXact.xid).Nodup) : ((enterXact xacts xid).map AlrXact.xid).Nodup ∧
      (∃ xact ∈ enterXact xacts xid, xact.xid = xid) ∧
      (∀ xact ∈ xacts, xact ∈ enterXact xacts xid) ∧ ∀ xact ∈ enterXact xacts xid, xact ∈ xacts ∨
        xact = { xid := xid, running := true, locks := [] } ∧ ∀ other ∈ xacts, other.xid ≠ xid := by
  unfold enterXact
  cases found : Keyed.lookup AlrXact.xid xid xacts with
  | some xact =>
    have known := Keyed.lookup_some found
    exact ⟨unique, ⟨xact, known⟩, fun _ mem => mem, fun _ mem => .inl mem⟩
  | none =>
    have absent := Keyed.lookup_eq_none.mp found
    refine ⟨?_, ⟨_, mem_concat_self, rfl⟩, fun _ mem => mem_append_left _ mem, ?_⟩
    · exact Keyed.nodup_snoc unique absent
    · intro _ mem
      rcases mem_append.mp mem with old | new
      · exact .inl old
      · exact .inr ⟨mem_singleton.mp new, absent⟩

theorem xacts_add (rep : Xacts table xacts) :
    Xacts (table ++ [{ lsn := lsn, lock := lock, state := .idle }])
      (Keyed.modify AlrXact.xid lock.xid (fun xact => { xact with locks := xact.locks ++ [lsn] })
        (enterXact xacts lock.xid)) := by
  have entered := enter_xact_spec xacts lock.xid rep.xids
  constructor
  · rw [Keyed.map_modify]
    · exact entered.1
    · exact fun _ _ _ => rfl
  · intro xact mem
    rw [filter_append, map_append]
    rcases Keyed.mem_modify.mp mem with ⟨old, inside, same, isNew⟩ | ⟨inside, apart⟩
    · subst isNew
      have mine : ofXact old.xid { lsn := lsn, lock := lock, state := .idle } = true := by
        simp [ofXact, same]
      rw [filter_cons_of_pos mine]
      rcases entered.2.2.2 old inside with known | ⟨new, absent⟩
      · simp [rep.lists old known]
      have none : table.filter (ofXact old.xid) = [] := by
        rw [filter_eq_nil_iff]
        intro alrLock inTable belongs
        rcases rep.owners alrLock inTable with ⟨owner, isOwner, xid⟩
        exact absent owner isOwner (xid.trans ((of_decide_eq_true belongs).trans same))
      rw [none, new]
      rfl
    · have others : ofXact xact.xid { lsn := lsn, lock := lock, state := .idle } = false := by
        simp [ofXact, Ne.symm apart]
      rw [filter_cons_of_neg (by simp [others])]
      rcases entered.2.2.2 xact inside with known | ⟨new, -⟩
      · simp [rep.lists xact known]
      · exact absurd (by rw [new]) apart
  · intro alrLock mem
    have owned : ∃ xact ∈ enterXact xacts lock.xid, xact.xid = alrLock.lock.xid := by
      rcases mem_append.mp mem with old | new
      · rcases rep.owners alrLock old with ⟨owner, isOwner, xid⟩
        exact ⟨owner, entered.2.2.1 owner isOwner, xid⟩
      · rw [mem_singleton.mp new]
        exact entered.2.1
    rcases owned with ⟨owner, isOwner, xid⟩
    by_cases same : owner.xid = lock.xid
    · exact ⟨_, Keyed.mem_modify.mpr (Or.inl ⟨owner, isOwner, same, rfl⟩), xid⟩
    · exact ⟨owner, Keyed.mem_modify.mpr (Or.inr ⟨isOwner, same⟩), xid⟩

theorem Rep.add (rep : Rep ctl held) (lock : StandbyLock) (lastLsn : XLogRecPtr)
    (fresh : ∀ alrLock ∈ ctl.lockTbl, alrLock.lsn ≠ lsn) :
    Rep (polarAlrAddAsyncLock ctl lock lsn lastLsn) held ∧
        (polarAlrAddAsyncLock ctl lock lsn lastLsn).lockTbl = ctl.lockTbl ++
        [{ lsn := lsn, lock := lock, state := .idle }] := by
  unfold polarAlrAddAsyncLock
  rw [Keyed.lookup_eq_none.mpr fresh]
  exact ⟨⟨views_add rep.views fresh, xacts_add rep.xacts⟩, rfl⟩

/-- The table with a new state for one lock. -/
abbrev withState (st : AlrState) (lsn : XLogRecPtr) (table : List AlrLock) : List AlrLock :=
  Keyed.modify AlrLock.lsn lsn (fun alrLock => { alrLock with state := st }) table

theorem Views.state_of_lsn {other : AlrLock} (views : Views table queue held)
    (mem : alrLock ∈ table) (inside : other ∈ table.filter (inState st))
    (same : other.lsn = alrLock.lsn) : alrLock.state = st := by
  have inTable := mem_filter.mp inside
  rw [← Keyed.eq_of_key views.keys inTable.1 mem same]
  exact of_decide_eq_true inTable.2

theorem xacts_set_state (rep : Xacts table xacts) : Xacts (withState st lsn table) xacts := by
  constructor
  · exact rep.xids
  · intro xact mem
    rw [Keyed.filter_modify, Keyed.map_modify]
    · exact rep.lists xact mem
    · exact fun _ _ _ => rfl
    · exact fun _ _ _ => rfl
  · intro alrLock mem
    rcases Keyed.mem_modify.mp mem with ⟨old, inside, -, isNew⟩ | ⟨inside, -⟩
    · rw [isNew]
      exact rep.owners old inside
    · exact rep.owners alrLock inside

theorem xacts_stop (rep : Xacts table xacts) : Xacts table
      (Keyed.modify AlrXact.xid xid (fun xact => { xact with running := false }) xacts) := by
  constructor
  · rw [Keyed.map_modify]
    · exact rep.xids
    · exact fun _ _ _ => rfl
  · intro xact mem
    rcases Keyed.mem_modify.mp mem with ⟨old, inside, -, isNew⟩ | ⟨inside, -⟩
    · rw [isNew]
      exact rep.lists old inside
    · exact rep.lists xact inside
  · intro alrLock mem
    rcases rep.owners alrLock mem with ⟨owner, isOwner, isXid⟩
    by_cases same : owner.xid = xid
    · exact ⟨_, Keyed.mem_modify.mpr (Or.inl ⟨owner, isOwner, same, rfl⟩), isXid⟩
    · exact ⟨owner, Keyed.mem_modify.mpr (Or.inr ⟨isOwner, same⟩), isXid⟩

theorem views_pop {rest : List XLogRecPtr}
    (views : Views table (lsn :: rest) held) (notIdle : st ≠ .idle) (notGot : st ≠ .got) :
    Views (withState st lsn table) rest held := by
  have queue := views.queue
  cases idle : table.filter (inState .idle) with
  | nil =>
    rw [idle] at queue
    cases queue
  | cons first =>
    rw [idle, map_cons] at queue
    injection queue with isFirst isRest
    subst isFirst
    have first_mem : first ∈ table.filter (inState .idle) := by simp [idle]
    have isIdle : first.state = .idle := of_decide_eq_true (mem_filter.mp first_mem).2
    constructor
    · rw [Keyed.map_modify]
      · exact views.keys
      · exact fun _ _ _ => rfl
    · rw [Keyed.filter_modify_loses, idle, Keyed.remove_head]
      · exact isRest
      · rw [← idle]
        exact Keyed.nodup_filter views.keys
      · intro alrLock _ _
        simp [inState, notIdle]
    · have unchanged : (withState st first.lsn table).filter (inState .got) = table.filter
        (inState .got) := by
        rw [Keyed.filter_modify_loses, Keyed.remove_of_absent]
        · intro alrLock mem same
          have isGot := views.state_of_lsn (mem_filter.mp first_mem).1 mem same
          rw [isIdle] at isGot
          cases isGot
        · intro _ _ _
          simp [inState, notGot]
      rw [unchanged]
      exact views.held

theorem set_state_twice (first second : AlrState) (ctl : AlrCtl) (lsn : XLogRecPtr) :
    setState second (setState first ctl lsn) lsn = setState second ctl lsn := by
  unfold setState
  rw [Keyed.modify_modify]
  exact fun _ => rfl

section
variable (views : Views table queue held) (mem : alrLock ∈ table)
include views mem

theorem views_got (getting : alrLock.state = .getting) :
    Views (withState .got alrLock.lsn table) queue (alrLock.lock.relation :: held) := by
  constructor
  · rw [Keyed.map_modify]
    · exact views.keys
    · exact fun _ _ _ => rfl
  · rw [Keyed.filter_modify_loses, Keyed.remove_of_absent]
    · exact views.queue
    · intro other inside same
      have isIdle := views.state_of_lsn mem inside same
      rw [getting] at isIdle
      cases isIdle
    · exact fun _ _ _ => rfl
  · have gained : ((withState .got alrLock.lsn table).filter (inState .got)).Perm
        ({ alrLock with state := .got } :: table.filter (inState .got)) :=
      Keyed.filter_modify_gains views.keys mem (by simp [inState, getting]) (by simp [inState])
    have relations := gained.map fun other : AlrLock => other.lock.relation
    exact (views.held.cons _).trans relations.symm

theorem lock_release_spec : ∃ rest, lockRelease held alrLock = .ok rest ∧
      rest.Perm (((Keyed.remove AlrLock.lsn alrLock.lsn table).filter (inState .got)).map
        fun other => other.lock.relation) := by
  unfold lockRelease
  rw [Keyed.filter_remove]
  by_cases isGot : alrLock.state = .got
  · have inView : alrLock ∈ table.filter (inState .got) :=
      mem_filter.mpr ⟨mem, by simp [inState, isGot]⟩
    have split := ((Keyed.perm_remove (Keyed.nodup_filter views.keys) inView).map
      fun other => other.lock.relation)
    have whole := views.held.trans split
    have isHeld : alrLock.lock.relation ∈ held := whole.mem_iff.mpr (by simp)
    rw [if_pos isGot, if_pos isHeld]
    exact ⟨_, rfl, (perm_cons _).mp ((perm_cons_erase isHeld).symm.trans whole)⟩
  · rw [if_neg isGot]
    refine ⟨held, rfl, ?_⟩
    rw [Keyed.remove_of_absent]
    · exact views.held
    · exact fun _ inside same => isGot (views.state_of_lsn mem inside same)

theorem leave_queue_spec : leaveQueue queue alrLock = .ok
      (((Keyed.remove AlrLock.lsn alrLock.lsn table).filter (inState .idle)).map AlrLock.lsn) := by
  rw [Keyed.filter_remove, Keyed.map_key_remove (Keyed.nodup_filter views.keys), ← views.queue]
  unfold leaveQueue
  by_cases isIdle : alrLock.state = .idle
  · have queued : alrLock.lsn ∈ queue := by
      rw [views.queue]
      exact mem_map_of_mem (mem_filter.mpr ⟨mem, by simp [inState, isIdle]⟩)
    rw [if_pos isIdle, alrRemoveIdleLock, if_pos queued]
  have notQueued : alrLock.lsn ∉ queue := by
    rw [views.queue]
    intro inside
    rcases mem_map.mp inside with ⟨_, isIn, same⟩
    exact isIdle (views.state_of_lsn mem isIn same)
  rw [if_neg isIdle, erase_of_not_mem notQueued]

end

theorem release_lock_spec (views : Views ctl.lockTbl ctl.locks held) (mem : alrLock ∈ ctl.lockTbl) :
    ∃ queue rest, alrReleaseLock (ctl, held) alrLock.lsn =
        .ok ({ ctl with
            locks := queue, lockTbl := Keyed.remove AlrLock.lsn alrLock.lsn ctl.lockTbl }, rest) ∧
      Views (Keyed.remove AlrLock.lsn alrLock.lsn ctl.lockTbl) queue rest := by
  rcases lock_release_spec views mem with ⟨rest, released, heldRest⟩
  refine ⟨_, rest, ?_, ⟨Keyed.nodup_remove views.keys, rfl, heldRest⟩⟩
  unfold alrReleaseLock
  rw [Keyed.lookup_of_mem views.keys mem]
  dsimp only
  rw [released, leave_queue_spec views mem]
  rfl

theorem filter_remove_other (keys : (table.map AlrLock.lsn).Nodup)
    (mem : alrLock ∈ table) (mine : alrLock.lock.xid = xid) :
    (Keyed.remove AlrLock.lsn alrLock.lsn table).filter (fun other => !ofXact xid other) =
      table.filter (fun other => !ofXact xid other) := by
  rw [Keyed.filter_remove, Keyed.remove_of_absent]
  intro _ inside same
  have inTable := mem_filter.mp inside
  have isSame := Keyed.eq_of_key keys inTable.1 mem same
  have notMine := inTable.2
  rw [isSame] at notMine
  simp [ofXact, mine] at notMine

theorem release_locks_spec (locks : List XLogRecPtr) (ctl : AlrCtl) (held : Held)
    (views : Views ctl.lockTbl ctl.locks held)
    (isList : locks = (ctl.lockTbl.filter (ofXact xid)).map AlrLock.lsn) :
    ∃ queue rest, locks.foldlM alrReleaseLock (ctl, held) = .ok ({ ctl with
          locks := queue, lockTbl := ctl.lockTbl.filter (fun alrLock => !ofXact xid alrLock) },
          rest) ∧
      Views (ctl.lockTbl.filter (fun alrLock => !ofXact xid alrLock)) queue rest := by
  induction locks generalizing ctl held with
  | nil =>
    have none : ctl.lockTbl.filter (ofXact xid) = [] := map_eq_nil_iff.mp isList.symm
    have all : ctl.lockTbl.filter (fun alrLock => !ofXact xid alrLock) = ctl.lockTbl := by
      rw [filter_eq_self]
      intro alrLock mem
      simpa using filter_eq_nil_iff.mp none alrLock mem
    rw [all]
    exact ⟨ctl.locks, held, rfl, views⟩
  | cons _ rest ih =>
    cases mine : ctl.lockTbl.filter (ofXact xid) with
    | nil =>
      rw [mine] at isList
      cases isList
    | cons first =>
      rw [mine, map_cons] at isList
      injection isList with isFirst isRest
      have inView : first ∈ ctl.lockTbl.filter (ofXact xid) := by simp [mine]
      have inTable := mem_filter.mp inView
      rcases release_lock_spec views inTable.1 with ⟨queue, held', released, views'⟩
      have shorter :
        rest = ((Keyed.remove AlrLock.lsn first.lsn ctl.lockTbl).filter (ofXact xid)).map
          AlrLock.lsn := by
        rw [Keyed.filter_remove, mine, Keyed.remove_head]
        · exact isRest
        · rw [← mine]
          exact Keyed.nodup_filter views.keys
      have done := ih { ctl with
        locks := queue, lockTbl := Keyed.remove AlrLock.lsn first.lsn ctl.lockTbl } held'
          views' shorter
      rw [foldlM_cons, isFirst, released]
      have sameOthers := filter_remove_other views.keys inTable.1 (of_decide_eq_true inTable.2)
      simp only [sameOthers] at done
      exact done

theorem xacts_remove (rep : Xacts table xacts) :
    Xacts (table.filter fun alrLock => !ofXact xid alrLock)
    (Keyed.remove AlrXact.xid xid xacts) := by
  constructor
  · exact Keyed.nodup_remove rep.xids
  · intro xact mem
    have kept := Keyed.mem_remove.mp mem
    have sameView : (table.filter fun alrLock => !ofXact xid alrLock).filter (ofXact xact.xid) =
        table.filter (ofXact xact.xid) := by
      rw [filter_filter]
      apply filter_congr
      intro alrLock _
      by_cases mine : alrLock.lock.xid = xact.xid
      · simp [ofXact, mine, kept.2]
      · simp [ofXact, mine]
    rw [sameView]
    exact rep.lists xact kept.1
  · intro alrLock mem
    have inTable := mem_filter.mp mem
    rcases rep.owners alrLock inTable.1 with ⟨owner, isOwner, isXid⟩
    have apart : alrLock.lock.xid ≠ xid := by simpa [ofXact] using inTable.2
    exact ⟨owner, Keyed.mem_remove.mpr ⟨isOwner, by rw [isXid]; exact apart⟩, isXid⟩

structure Released (gone : List TransactionId) (ctl next : AlrCtl) : Prop where
  lockTbl : ∀ alrLock, alrLock ∈ next.lockTbl ↔ alrLock ∈ ctl.lockTbl ∧ alrLock.lock.xid ∉ gone
  xactTbl : ∀ xact, xact ∈ next.xactTbl ↔ xact ∈ ctl.xactTbl ∧ xact.xid ∉ gone
  others : ∀ xid, xid ∉ gone → next.lockTbl.filter (ofXact xid) = ctl.lockTbl.filter (ofXact xid)
  lsn : next.lsn = ctl.lsn

theorem release_xact_spec {xact : AlrXact} (rep : Rep ctl held) (mem : xact ∈ ctl.xactTbl) :
    ∃ next rest, alrReleaseXact (ctl, held) xact = .ok (next, rest) ∧ Rep next rest ∧
    Released [xact.xid] ctl next := by
  rcases release_locks_spec xact.locks ctl held rep.views (rep.xacts.lists xact mem) with
    ⟨queue, rest, released, views⟩
  refine ⟨{ ctl with
    locks := queue
    lockTbl := ctl.lockTbl.filter fun alrLock => !ofXact xact.xid alrLock
    xactTbl := Keyed.remove AlrXact.xid xact.xid ctl.xactTbl }, rest, ?_,
      ⟨views, xacts_remove rep.xacts⟩, ?_⟩
  · unfold alrReleaseXact alrReleaseLocks
    rw [released]
    rfl
  constructor
  · intro alrLock
    simp [ofXact]
  · intro _
    simp [Keyed.mem_remove]
  · intro xid apart
    rw [filter_filter]
    apply filter_congr
    intro alrLock _
    by_cases mine : alrLock.lock.xid = xid
    · have away : xid ≠ xact.xid := by simpa using apart
      simp [ofXact, mine, away]
    · simp [ofXact, mine]
  · rfl

theorem release_xacts_spec (gone : List AlrXact) (rep : Rep ctl held)
    (unique : (gone.map AlrXact.xid).Nodup) (inside : ∀ xact ∈ gone, xact ∈ ctl.xactTbl) :
    ∃ next rest, gone.foldlM alrReleaseXact (ctl, held) = .ok (next, rest) ∧ Rep next rest ∧
      Released (gone.map AlrXact.xid) ctl next := by
  induction gone generalizing ctl held with
  | nil => exact ⟨ctl, held, rfl, rep, ⟨by simp, by simp, fun _ _ => rfl, rfl⟩⟩
  | cons first rest ih =>
    rw [map_cons, nodup_cons] at unique
    rcases release_xact_spec rep (inside first (by simp)) with ⟨middle, _, one, middleRep,
      first_gone⟩
    have still : ∀ xact ∈ rest, xact ∈ middle.xactTbl := by
      intro xact mem
      rw [first_gone.xactTbl]
      refine ⟨inside xact (by simp [mem]), ?_⟩
      intro same
      rw [mem_singleton] at same
      exact unique.1 (same ▸ mem_map_of_mem mem)
    rcases ih middleRep unique.2 still with ⟨next, left, many, nextRep, rest_gone⟩
    refine ⟨next, left, ?_, nextRep, ?_⟩
    · rw [foldlM_cons, one]
      exact many
    constructor
    · intro _
      rw [rest_gone.lockTbl, first_gone.lockTbl]
      simp [and_assoc]
    · intro _
      rw [rest_gone.xactTbl, first_gone.xactTbl]
      simp [and_assoc]
    · intro xid apart
      rw [map_cons, mem_cons, not_or] at apart
      rw [rest_gone.others xid apart.2, first_gone.others xid (by simpa using apart.1)]
    · rw [rest_gone.lsn, first_gone.lsn]

theorem Rep.try_to_release (rep : Rep ctl held) :
    ∃ next rest, alrTryToReleaseXact ctl held = .ok (next, rest) ∧ Rep next rest ∧
      Released ((ctl.xactTbl.filter fun xact => !xact.running).map AlrXact.xid) ctl next :=
  release_xacts_spec _ rep (Keyed.nodup_filter rep.xacts.xids) (fun _ mem => (mem_filter.mp mem).1)

end PolarDB.LockReplay.AsyncLockRep
