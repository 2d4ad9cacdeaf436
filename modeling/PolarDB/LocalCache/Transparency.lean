import PolarDB.LocalCache.Files

/-!
# Reads return the last values

In every run in which no read copies a segment over a local file that is ahead of
shared storage, a read that returns true returns the last value of every byte. A read
whose range goes beyond the end of the local file copies the segment whatever the
local file holds, and so may bring back bytes that were overwritten.
-/

namespace PolarDB.LocalCache.Cache

open Lib.Runs
open Lib.SparseFile

variable {Byte : Type} [Zero Byte] {cfg : Config} {initial : Nat → Option (File Byte)}
  {st next : State Byte}

theorem step_keeps {event : Event} (inv : Inv cfg initial st) (step : Step cfg event st next)
    (met : CopiesAgree cfg event st) : Inv cfg initial next := by
  have sound : ∀ {proc pc}, st.procs proc = pc → pc.Sound cfg initial st proc := fun here =>
    here ▸ inv.procs _
  cases step with
  | polarLocalCacheRead proc _ _ inside | polarLocalCacheWrite proc _ _ inside =>
      exact inv.setPc proc _ inside
  | polarLocalCacheFlushAll proc | flushedAll proc => exact inv.setPc proc _ trivial
  | enter proc call here => exact enter_keeps inv (sound here)
  | evict proc _ here =>
    exact evict_keeps inv (sound here)
  | readLocal proc task idx here => exact readLocal_keeps inv (sound here)
  | readShared proc task idx here => exact readShared_keeps inv here met
  | readCopy proc task idx data here => exact readCopy_keeps inv (sound here)
  | readDone proc task idx _ here =>
    exact readDone_keeps inv (sound here).1
  | writeStat proc task idx here => exact writeStat_keeps inv (sound here)
  | writeCopy proc task idx data here =>
    exact writeCopy_keeps inv (sound here)
  | writeFile proc task idx here => exact writeFile_keeps inv (sound here)
  | writeDone proc _ idx here =>
    exact writeDone_keeps inv (sound here)
  | flushRead proc after idx here => exact flushRead_keeps inv (sound here)
  | flushWrite proc after idx _ here =>
    exact flushWrite_keeps inv (sound here)
  | flushDone proc _ _ here => exact flushDone_keeps inv (sound here)
  | flushAll proc _ here => exact flushAll_keeps inv

theorem Started.inv (started : Started cfg st) : Inv cfg st.sharedFile st where
  good := by
    have bytes : ∀ segno pos, Carries st.sharedFile st.written segno (opened (st.sharedFile segno))
      pos := by
      intro segno pos
      rw [started.written]
      rfl
    constructor
    case occupied =>
      intro idx used
      rw [(started.slots idx).1] at used
      cases used
    case hashed =>
      intro segno idx found
      rw [started.hash] at found
      cases found
    case free =>
      intro idx listed
      rw [started.free, List.mem_range] at listed
      exact ⟨(started.slots idx).1, listed⟩
    case nodup =>
      rw [started.free]
      exact List.nodup_range
    case vacant => exact fun idx _ => (started.slots idx).2
    case stored =>
      intro segno _ found
      rw [started.hash] at found
      cases found
    case localCarries =>
      intro _ segno _ found
      rw [started.localFile] at found
      cases found
    case sharedCarries => exact fun segno _ pos _ => bytes segno pos
  procs := by
    intro _
    rw [started.procs]
    trivial

theorem run_inv {start : State Byte} (started : Started cfg start)
    (run : Run (Step cfg) (CopiesAgree cfg) start st) : Inv cfg start.sharedFile st :=
  run.invariant (Inv cfg start.sharedFile) started.inv fun _ _ _ inv step met =>
    step_keeps inv step met

def pairConfig : Config where
  maxSegments := 1
  segmentSize := 4
  localWrite := true
  sharedRead := true
  sharedWrite := true

def pairFile : File Nat := File.empty.write 0 [1, 1]

def pairStart : State Nat where
  slots := fun _ =>
    { segno := 0
      occupied := false
      dirty := false
      setMinOffset := false
      readable := false
      writer := none
      readers := []
      minWriteOffset := 0 }
  hash := fun _ => none
  free := [0]
  localFile := fun _ => none
  sharedFile := fun segno => if segno = 0 then some pairFile else none
  procs := fun _ => .idle
  written := []

theorem pairStart_started : Started pairConfig pairStart where
  slots := fun _ => ⟨rfl, rfl, rfl, rfl⟩
  hash := fun _ => rfl
  free := rfl
  localFile := fun _ => rfl
  procs := fun _ => rfl
  written := rfl

/-- The first byte is overwritten. -/
def nineTask : WriteTask Nat where
  segno := 0
  offset := 0
  data := [9]

def firstByte : ReadTask where
  segno := 0
  offset := 0
  size := 1

/-- The read of the other three bytes, of which the last two are in neither file. -/
def tailBytes : ReadTask where
  segno := 0
  offset := 1
  size := 3

/-- The write and then the read, by process 0. -/
def staleCopied : State Nat :=
  let begun := enter (enter (pairStart.setPc 0 (.entering (.write nineTask))) 0 (.write nineTask)) 0
    (.write nineTask)
  let copied := writeCopy (writeStat pairConfig begun 0 nineTask 0) 0 nineTask 0 [1, 1]
  let written := writeDone pairConfig (writeFile pairConfig copied 0 nineTask 0) 0 0
  let entered := enter (written.setPc 0 (.entering (.read tailBytes))) 0 (.read tailBytes)
  let copying := readShared pairConfig (readLocal pairConfig entered 0 tailBytes 0) 0 tailBytes 0
  readDone (readCopy copying 0 tailBytes 0 [1, 1]) 0 0 none

theorem staleCopied_run : Run (Step pairConfig) (fun _ _ => True) pairStart staleCopied := by
  have started : Run (Step pairConfig) (fun _ _ => True) pairStart _ := .refl
  have called := started.snoc (.polarLocalCacheWrite 0 nineTask rfl (by decide) (by decide))
  have created := called.snoc (.enter 0 _ rfl)
  have begun := created.snoc (.enter 0 _ rfl)
  have found := begun.snoc (.writeStat 0 _ _ rfl)
  have copied := found.snoc (.writeCopy 0 _ _ _ rfl)
  have stored := copied.snoc (.writeFile 0 _ _ rfl)
  have done := stored.snoc (.writeDone 0 _ _ rfl)
  have called := done.snoc (.polarLocalCacheRead 0 tailBytes rfl (by decide))
  have entered := called.snoc (.enter 0 _ rfl)
  have short := entered.snoc (.readLocal 0 _ _ rfl)
  have copying := short.snoc (Step.readShared 0 _ _ rfl)
  have copied := copying.snoc (.readCopy 0 _ _ _ rfl)
  exact copied.snoc (.readDone 0 _ _ _ rfl)

/-- A read that is about to return true returns the last value of every byte. -/
theorem read_returns_last_values {start : State Byte} (started : Started cfg start)
    (localWrite : cfg.localWrite = true) (run : Run (Step cfg) (CopiesAgree cfg) start st)
    (proc : Nat) (task : ReadTask) (idx : Nat) (data : List Byte)
    (here : st.procs proc = .readDone task idx (some data)) :
    data.length = task.size ∧ ∀ pos, pos < task.size →
      data.getD pos 0 = lastValue start.sharedFile st.written task.segno (task.offset + pos) := by
  have sound := (run_inv started run).procs proc
  rw [here] at sound
  exact sound.2 localWrite data rfl

/-- Shared storage is read, the first byte is overwritten, and the next read returns what was
written. -/
theorem nine_read_back : ∃ st, Run (Step pairConfig) (CopiesAgree pairConfig) pairStart st ∧
    st.procs 0 = .readDone firstByte 0 (some [9]) ∧ [9].length = firstByte.size ∧
    ∀ pos, pos < firstByte.size →
      [9].getD pos 0 = lastValue pairStart.sharedFile st.written 0 (0 + pos) := by
  have started : Run (Step pairConfig) (CopiesAgree pairConfig) pairStart _ := .refl
  have called := started.snoc (.polarLocalCacheRead 0 firstByte rfl (by decide))
  have created := called.snoc (.enter 0 _ rfl)
  have entered := created.snoc (.enter 0 _ rfl)
  have missed := entered.snoc (.readLocal 0 _ _ rfl)
  have copying := missed.tail (.readShared 0 _ _ rfl) (by
    intro _ _ here _ _ present
    cases here
    cases present)
  have copied := copying.snoc (.readCopy 0 _ _ _ rfl)
  have first := copied.snoc (.readDone 0 _ _ _ rfl)
  have called := first.snoc (.polarLocalCacheWrite 0 nineTask rfl (by decide) (by decide))
  have begun := called.snoc (.enter 0 _ rfl)
  have found := begun.snoc (.writeStat 0 _ _ rfl)
  have written := found.snoc (.writeFile 0 _ _ rfl)
  have done := written.snoc (.writeDone 0 _ _ rfl)
  have called := done.snoc (.polarLocalCacheRead 0 firstByte rfl (by decide))
  have entered := called.snoc (.enter 0 _ rfl)
  have last := entered.snoc (Step.readLocal 0 _ _ rfl)
  exact ⟨_, last, rfl, read_returns_last_values pairStart_started rfl last 0 firstByte 0 [9] rfl⟩

/-- A read that goes beyond the end of both files fails, and the read after it returns the byte as
it was before it was overwritten. -/
theorem failed_read_undoes_write : ∃ st, Run (Step pairConfig) (fun _ _ => True) pairStart st ∧
    st.procs 0 = .readDone firstByte 0 (some [1]) ∧
    lastValue pairStart.sharedFile st.written 0 0 = 9 := by
  have called := staleCopied_run.snoc (.polarLocalCacheRead 0 firstByte rfl (by decide))
  have entered := called.snoc (.enter 0 _ rfl)
  have answered := entered.snoc (.readLocal 0 _ _ rfl)
  exact ⟨_, answered, rfl, rfl⟩

end PolarDB.LocalCache.Cache
