import Mathlib.Data.List.Basic

/-!
# The control lock around a flush

What a process does with the control lock of the cache is the list of its events; what it finds
in the segment table and how its system calls end are inputs.
-/

namespace PolarDB.LocalCache.LockDiscipline

open List

inductive LockEvent where
  | acquire
  | release
  /-- The segment table or the list of free items is read or written. -/
  | access
  deriving DecidableEq, Repr

/-- Whether the lock is held behind the events, if each of them was allowed. -/
def play : Bool → List LockEvent → Option Bool
  | held, [] => some held
  | false, .acquire :: rest => play true rest
  | true, .release :: rest => play false rest
  | true, .access :: rest => play true rest
  | _, _ :: _ => none

/-- A call of the flush: how often it waits for another write, whether the segment is then still
occupied and dirty, and which of its system calls succeed. -/
structure FlushCall where
  waits : Nat
  dirty : Bool
  opened : Bool
  written : Bool
  copied : Bool

def polarRecordLocalFlushedSeg (call : FlushCall) : Bool × List LockEvent :=
  if call.opened then (call.written, []) else (false, [.release])

/-- `sharedWrite` is the permission `POLAR_CACHE_SHARED_FILE_WRITE`. `polar_shared_file_flush` reads
the number and the write offset of the segment, which its I/O flag pins, without the lock: that is
no access here. -/
def polarLocalCacheFlush (sharedWrite : Bool) (call : FlushCall) : Bool × List LockEvent :=
  let waiting := (List.replicate call.waits [LockEvent.access, .release, .acquire]).flatten
  if call.dirty then
    let (flushed, inner) :=
      if sharedWrite then (call.copied, [.release, .acquire]) else polarRecordLocalFlushedSeg call
    (flushed, waiting ++ .access :: inner ++ [.access])
  else (true, waiting ++ [.access])

/-- What the loops of the two callers do: look at a segment, let the lock go for a moment, or
flush. -/
inductive Visit where
  | look
  | again
  | flush (call : FlushCall)

def visitEvents (sharedWrite : Bool) (done failed : List LockEvent) : List Visit → List LockEvent
  | [] => done
  | .look :: rest => .access :: visitEvents sharedWrite done failed rest
  | .again :: rest => .release :: .acquire :: visitEvents sharedWrite done failed rest
  | .flush call :: rest => .access :: (polarLocalCacheFlush sharedWrite call).2 ++
    if (polarLocalCacheFlush sharedWrite call).1 then visitEvents sharedWrite done failed rest
      else failed

/-- A failed flush is reported with `ERROR`, which leaves the function. -/
def polarLocalCacheFlushAll (sharedWrite : Bool) (visits : List Visit) : List LockEvent :=
  .acquire :: visitEvents sharedWrite [.access, .release] [] visits

/-- A failed flush ends the loop; the list of free items is then looked at once more. -/
def polarEvictIoSegment (sharedWrite : Bool) (visits : List Visit) : List LockEvent :=
  visitEvents sharedWrite [.access] [.access] visits

/-- The meta file is opened if the flush comes to it. -/
def Opens (sharedWrite : Bool) (call : FlushCall) : Prop := call.dirty = true →
    sharedWrite = false → call.opened = true

/-- No system call of the flush fails. -/
def Succeeds (sharedWrite : Bool) (call : FlushCall) : Prop :=
  call.dirty = true → if sharedWrite then call.copied = true else call.opened = true ∧
  call.written = true

/-- Every flush that is reached opens the meta file. -/
def OpensAll (sharedWrite : Bool) : List Visit → Prop
  | [] => True
  | .flush call :: rest => Opens sharedWrite call ∧
      (Succeeds sharedWrite call → OpensAll sharedWrite rest)
  | _ :: rest => OpensAll sharedWrite rest

variable {sharedWrite : Bool} {done failed : List LockEvent}

theorem play_waits (waits : Nat) (rest : List LockEvent) :
    play true ((List.replicate waits [LockEvent.access, .release, .acquire]).flatten ++ rest) =
    play true rest := by
  induction waits with
  | zero => rfl
  | succ _ ih =>
    exact ih

/-- A flush whose open fails leaves the lock free before its last access. -/
theorem play_flush (sharedWrite : Bool) (call : FlushCall) (rest : List LockEvent) :
    play true ((polarLocalCacheFlush sharedWrite call).2 ++ rest) =
      if call.dirty && !sharedWrite && !call.opened then none else play true rest := by
  rw [polarLocalCacheFlush]
  cases dirty : call.dirty with
  | false =>
    rw [if_neg Bool.false_ne_true, append_assoc, play_waits]
    rfl
  | true =>
    rw [if_pos rfl, append_assoc, append_assoc, play_waits]
    cases sharedWrite with
    | true => rfl
    | false =>
      rw [if_neg Bool.false_ne_true, polarRecordLocalFlushedSeg]
      cases call.opened <;> rfl

theorem opens_iff (call : FlushCall) :
    Opens sharedWrite call ↔ ¬ (call.dirty && !sharedWrite && !call.opened) = true := by
  rw [Opens]
  cases call.dirty <;> cases sharedWrite <;> cases call.opened <;> simp

theorem flush_succeeds_iff (call : FlushCall) :
    Succeeds sharedWrite call ↔ (polarLocalCacheFlush sharedWrite call).1 = true := by
  rw [Succeeds, polarLocalCacheFlush, polarRecordLocalFlushedSeg]
  cases call.dirty <;> cases sharedWrite <;> cases call.opened <;> simp

theorem play_visits (good : Option Bool → Prop) (refused : ¬ good none)
    (ends : good (play true done)) (stops : good (play true failed)) (visits : List Visit) :
    good (play true (visitEvents sharedWrite done failed visits)) ↔
    OpensAll sharedWrite visits := by
  induction visits with
  | nil => exact iff_of_true ends trivial
  | cons visit _ ih =>
    cases visit with
    | look | again => exact ih
    | flush call =>
      change good (play true ((polarLocalCacheFlush sharedWrite call).2 ++ _)) ↔ _ ∧ _
      rw [play_flush, opens_iff, flush_succeeds_iff]
      split
      · next fails =>
        exact iff_of_false refused fun opens => opens.1 fails
      · next fails =>
        cases (polarLocalCacheFlush sharedWrite call).1 with
        | false => exact iff_of_true stops ⟨fails, nofun⟩
        | true => exact ih.trans ⟨fun opens => ⟨fails, fun _ => opens⟩, fun opens => opens.2 rfl⟩

/-- The lock is held where its callers assume it, and nothing is done without it, exactly when the
meta file of flushed segments can be opened wherever a flush records a segment there. -/
theorem lock_kept_iff_opens (sharedWrite : Bool) :
    (∀ call, play true (polarLocalCacheFlush sharedWrite call).2 = some true ↔
      Opens sharedWrite call) ∧
    (∀ visits, play false (polarLocalCacheFlushAll sharedWrite visits) ≠ none ↔
      OpensAll sharedWrite visits) ∧
    ∀ visits, play true (polarEvictIoSegment sharedWrite visits) = some true ↔
      OpensAll sharedWrite visits := by
  refine ⟨fun call => ?_, fun visits => ?_, fun visits => ?_⟩
  · have played := play_flush sharedWrite call []
    rw [append_nil] at played
    rw [played, opens_iff]
    split_ifs with fails
    · exact iff_of_false nofun (not_not.mpr fails)
    · exact iff_of_true rfl fails
  · refine play_visits (· ≠ none) (not_not.mpr rfl) ?_ ?_ visits <;> exact Option.some_ne_none _
  · exact play_visits (· = some true) nofun rfl rfl visits

/-- The meta file cannot be opened: the inner function lets the lock go, and the flush changes the
segment. -/
theorem failed_open_loses_lock :
    play true (polarRecordLocalFlushedSeg ⟨0, true, false, false, false⟩).2 = some false ∧
      play true (polarLocalCacheFlush false ⟨0, true, false, false, false⟩).2 = none := by
  decide

end PolarDB.LocalCache.LockDiscipline
