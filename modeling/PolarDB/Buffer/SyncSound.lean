import PolarDB.Buffer.SyncBuffer

/-!
# What the sync paths rely on

A process that has decided to flush a buffer relies on the page it has checked, which the
share content lock keeps but for hints. A process that has decided to flush a copy relies
on its LSN being at most that of the page, and checks it again under the I/O lock.
-/

namespace PolarDB.Buffer.SyncBuffer

open Function

open Buffer.Bufmgr (XLogRecPtr invalidXLogRecPtr)
open Lib.Runs

def Permitted (cfg : Config) (write : Write) : Prop :=
  write.lsn ≤ write.oldestApplyLsn ∨ letThrough cfg write.forkNum write.oldestApplyLsn = true ∨
    write.snapshotLogged = true

/-- `FlushBuffer` logs a snapshot of the buffer, should it have become a future page. -/
def Covered (cfg : Config) (buf : BufferDesc) (oldestApplyLsn : XLogRecPtr) : Prop :=
  cfg.fullpageEnabled = true ∧ buf.pageIsNew = false ∧ oldestApplyLsn ≠ invalidXLogRecPtr ∧
  buf.forkNum = .main

def MayFlush (cfg : Config) (buf : BufferDesc) (oldestApplyLsn : XLogRecPtr) : Prop :=
  letThrough cfg buf.forkNum oldestApplyLsn = true ∨ buf.lsn ≤ oldestApplyLsn ∨
  Covered cfg buf oldestApplyLsn

def CopyBelow (buf : BufferDesc) : Prop := ∀ cbuf ∈ buf.copyBuffer, cbuf.lsn ≤ buf.lsn

variable {cfg : Config} {desc later : BufferDesc} {oldest : XLogRecPtr}

theorem may_flush_of_can_be_flushed (can : polarBufferCanBeFlushed cfg desc oldest false = true) :
    MayFlush cfg desc oldest := by
  unfold polarBufferCanBeFlushed at can
  split at can
  case isTrue allowed =>
    rcases Bool.or_eq_true_iff.mp allowed with through | below
    · exact .inl through
    · exact .inr (.inl (of_decide_eq_true below))
  case isFalse => cases can

theorem future_of_not_flushed (cannot : polarBufferCanBeFlushed cfg desc oldest false = false) :
    letThrough cfg desc.forkNum oldest = false ∧ oldest < desc.lsn := by
  unfold polarBufferCanBeFlushed at cannot
  split at cannot
  case isTrue => cases cannot
  case isFalse refused =>
    rw [Bool.or_eq_true_iff, not_or, Bool.not_eq_true, decide_eq_true_iff] at refused
    exact ⟨refused.1, Nat.lt_of_not_le refused.2⟩

theorem copy_of_can_be_flushed (can : polarBufferCanBeFlushed cfg desc oldest true = true) :
    letThrough cfg desc.forkNum oldest = true ∨ desc.lsn ≤ oldest ∨ ∀ cbuf ∈ desc.copyBuffer,
    cbuf.lsn ≤ oldest := by
  unfold polarBufferCanBeFlushed at can
  split at can
  case isTrue allowed =>
    rcases Bool.or_eq_true_iff.mp allowed with through | below
    · exact .inl through
    · exact .inr (.inl (of_decide_eq_true below))
  case isFalse =>
    right
    right
    intro _ isCopy
    rw [if_pos rfl, Option.mem_def.mp isCopy] at can
    exact of_decide_eq_true can

theorem covered_of_need_snapshot {positions : Positions}
    (need : polarBufferNeedFullpageSnapshot cfg positions desc oldest = true) :
    Covered cfg desc oldest := by
  unfold polarBufferNeedFullpageSnapshot at need
  refine ⟨?_, ?_, ?_, ?_⟩
  · cases enabled : cfg.fullpageEnabled with
    | true => rfl
    | false => simp [enabled] at need
  · cases isNew : desc.pageIsNew with
    | false => rfl
    | true => simp [isNew] at need
  · rintro rfl
    simp at need
  · by_contra other
    simp [other] at need

theorem permitted_write (allowed : MayFlush cfg desc oldest) : Permitted cfg
      { forkNum := desc.forkNum
        lsn := desc.lsn
        oldestApplyLsn := oldest
        snapshotLogged := logsSnapshot cfg desc oldest false
        flushControl := true } := by
  rcases allowed with through | below | covered
  · exact .inr (.inl through)
  · exact .inl below
  · rcases Nat.lt_or_ge oldest desc.lsn with future | past
    · right
      right
      unfold logsSnapshot
      simp [covered.1, covered.2.1, covered.2.2.1, covered.2.2.2, future]
    · exact .inl past

variable {Buf : Type}

def Pc.shared : Pc Buf → Option Buf
  | .idle | .modifying _ | .pinned _ _ _ => none
  | .hinting buf _ | .flushCheck buf _ _ | .snapshotCheck buf _ _ | .copyFlushCheck buf
      _ | .copyCheck buf _
  | .victimCheck buf _ | .flush buf _ _ | .writing buf _ _ | .written buf | .flushCopy
      buf | .recheckCopy buf
  | .writingCopy buf _ | .copy buf _ | .copying buf _ => some buf

def Pc.doesIo : Pc Buf → Option Buf
  | .writing buf _ _ | .written buf | .recheckCopy buf | .writingCopy buf _ | .copying buf _ =>
      some buf
  | _ => none

/-- What a process at its place knows of the buffer it shares. -/
def Pc.Ready (cfg : Config) (desc : BufferDesc) : Pc Buf → Prop
  | .snapshotCheck _ oldest _ => letThrough cfg desc.forkNum oldest = false ∧
      (oldest < desc.lsn ∨ CopyBelow desc)
  | .copyFlushCheck _ oldest => letThrough cfg desc.forkNum oldest = false ∧
      (oldest < desc.lsn ∨ CopyBelow desc)
  | .flush _ oldest skipFullpage => skipFullpage = true ∨ MayFlush cfg desc oldest
  | .writing _ oldest skipFullpage => skipFullpage = true ∨ MayFlush cfg desc oldest
  | .flushCopy _ => CopyBelow desc
  | .recheckCopy _ => CopyBelow desc
  | .writingCopy _ oldest =>
    letThrough cfg desc.forkNum oldest = true ∨ ∀ cbuf ∈ desc.copyBuffer, cbuf.lsn ≤ oldest
  | _ => True

/-- The locks that a process holds, and what it knows. -/
structure Pc.Sound (cfg : Config) (buffers : Buf → BufferDesc) (sharers : Buf → List Nat)
    (io exclusive : Buf → Option Nat) (proc : Nat) (pc : Pc Buf) : Prop where
  shares : ∀ buf, pc.shared = some buf → proc ∈ sharers buf
  ready : ∀ buf, pc.shared = some buf → pc.Ready cfg (buffers buf)
  owns : ∀ buf, pc.doesIo = some buf → io buf = some proc ∧ (buffers buf).dirty = true
  modifier : ∀ buf, pc = .modifying buf → exclusive buf = some proc

structure Inv (cfg : Config) (st : State Buf) : Prop where
  procs : ∀ proc, (st.procs proc).Sound cfg st.buffers st.sharers st.io st.exclusive proc
  alone : ∀ buf, st.exclusive buf ≠ none → st.sharers buf = []
  clean : ∀ buf, (st.buffers buf).dirty = false → (st.buffers buf).copyBuffer = none
  stored : ∀ buf, (st.buffers buf).copyBuffer ≠ none → cfg.polarEnableSharedStorageMode = true
  permitted : ∀ write ∈ st.writes, write.flushControl = true → Permitted cfg write

theorem Pc.shared_of_doesIo {pc : Pc Buf} {buf : Buf} (busy : pc.doesIo = some buf) :
    pc.shared = some buf := by
  cases pc <;> first | exact busy | cases busy

/-- The page stays, and its copy stays, goes or is made anew. -/
structure Gentle (desc later : BufferDesc) : Prop where
  forkNum : later.forkNum = desc.forkNum
  pageIsNew : later.pageIsNew = desc.pageIsNew
  lsn : later.lsn = desc.lsn
  copyBuffer : later.copyBuffer = desc.copyBuffer ∨ CopyBelow later

theorem Gentle.copyBelow (gentle : Gentle desc later) (below : CopyBelow desc) :
    CopyBelow later := by
  rcases gentle.copyBuffer with same | anew
  · unfold CopyBelow
    rw [same, gentle.lsn]
    exact below
  · exact anew

theorem Gentle.mayFlush (gentle : Gentle desc later) (allowed : MayFlush cfg desc oldest) :
    MayFlush cfg later oldest := by
  unfold MayFlush Covered
  rw [gentle.forkNum, gentle.lsn, gentle.pageIsNew]
  exact allowed

theorem Gentle.behind (gentle : Gentle desc later) (behind : oldest < desc.lsn ∨ CopyBelow desc) :
    oldest < later.lsn ∨ CopyBelow later := by
  rw [gentle.lsn]
  exact behind.imp id gentle.copyBelow

theorem Pc.Ready.gentle {pc : Pc Buf} (ready : pc.Ready cfg desc) (gentle : Gentle desc later)
    (copy : pc.doesIo = none ∨ later.copyBuffer = desc.copyBuffer) : pc.Ready cfg later := by
  cases pc with
  | snapshotCheck | copyFlushCheck => exact ⟨gentle.forkNum ▸ ready.1, gentle.behind ready.2⟩
  | flush | writing => exact .imp id gentle.mayFlush ready
  | flushCopy | recheckCopy => exact gentle.copyBelow ready
  | writingCopy =>
    have same := copy.resolve_left nofun
    unfold Pc.Ready
    rw [gentle.forkNum, same]
    exact ready
  | _ => trivial

variable {st : State Buf} {proc : Nat} {buf : Buf}

section
variable (inv : Inv cfg st)
include inv

theorem Inv.go (pc : Pc Buf) (sound : pc.Sound cfg st.buffers st.sharers st.io st.exclusive proc) :
    Inv cfg (st.go proc pc) :=
  { inv with
    procs := (forall_update_iff st.procs fun other (pc : Pc Buf) => pc.Sound cfg _ _ _ _ other).mpr
      ⟨sound, fun other _ => inv.procs other⟩ }

theorem Inv.sound {pc : Pc Buf} (here : st.procs proc = pc) :
    pc.Sound cfg st.buffers st.sharers st.io st.exclusive proc :=
  here ▸ inv.procs proc

theorem Inv.goIdle : Inv cfg (st.go proc .idle) := inv.go .idle ⟨nofun, nofun, nofun, nofun⟩

theorem Inv.goOn (pc : Pc Buf) (mem : proc ∈ st.sharers buf) (shared : pc.shared = some buf)
    (owns : pc.doesIo = none ∨ st.io buf = some proc ∧ (st.buffers buf).dirty = true)
    (ready : pc.Ready cfg (st.buffers buf)) : Inv cfg (st.go proc pc) := by
  have only : ∀ which, pc.shared = some which → which = buf :=
    fun which shares => Option.some.inj (shares.symm.trans shared)
  apply inv.go
  constructor
  · exact fun which shares => only which shares ▸ mem
  · exact fun which shares => only which shares ▸ ready
  · intro which busy
    rw [only which (Pc.shared_of_doesIo busy)]
    exact owns.resolve_left fun idle => nomatch idle.symm.trans busy
  · rintro which rfl
    cases shared

theorem Inv.unused_of_free (free : st.io buf = none) (other : Nat) :
    (st.procs other).doesIo ≠ some buf :=
  fun busy => nomatch free.symm.trans ((inv.procs other).owns buf busy).1

theorem Inv.record (write : Write)
    (permitted : write.flushControl = true → Permitted cfg write) : Inv cfg (st.record write) :=
  { inv with permitted := List.forall_mem_cons.mpr ⟨permitted, inv.permitted⟩ }

end

variable [DecidableEq Buf]

theorem Inv.share (inv : Inv cfg st) (free : st.exclusive buf = none) :
    Inv cfg (st.share proc buf) := by
  refine { inv with procs := ?_, alone := ?_ }
  · intro other
    refine { inv.procs other with shares := ?_ }
    intro which shares
    have mem := (inv.procs other).shares which shares
    change other ∈ update st.sharers buf (proc :: st.sharers buf) which
    grind
  · intro which locked
    have alone := inv.alone which locked
    change update st.sharers buf (proc :: st.sharers buf) which = []
    have apart : which ≠ buf := fun same => locked (same ▸ free)
    grind

theorem mem_share : proc ∈ (st.share proc buf).sharers buf := by
  simp [State.share]

variable (inv : Inv cfg st)
include inv

theorem Inv.release : Inv cfg (st.release proc buf) := by
  have idle : Inv cfg (st.go proc .idle) := inv.goIdle
  refine { idle with procs := ?_, alone := ?_ }
  · intro other
    refine { idle.procs other with shares := ?_ }
    intro which shares
    have mem := (idle.procs other).shares which shares
    -- the process that releases the lock is idle
    have apart : other ≠ proc := by
      rintro rfl
      simp [State.release, Pc.shared] at shares
    change other ∈ update st.sharers buf ((st.sharers buf).erase proc) which
    change other ∈ st.sharers which at mem
    grind
  · intro which locked
    have alone := inv.alone which locked
    change update st.sharers buf ((st.sharers buf).erase proc) which = []
    grind

theorem Inv.setIo {owner : Option Nat}
    (unused : ∀ other, (st.procs other).doesIo ≠ some buf) : Inv cfg (st.setIo buf owner) := by
  refine { inv with procs := ?_ }
  intro other
  refine { inv.procs other with owns := ?_ }
  intro which busy
  have known := (inv.procs other).owns which busy
  have apart : which ≠ buf := by
    rintro rfl
    exact unused other busy
  change update st.io buf owner which = some other ∧ _
  rw [update_of_ne apart]
  exact known

theorem Inv.setBuffer (desc : BufferDesc)
    (ready : ∀ other, (st.procs other).shared = some buf → (st.procs other).Ready cfg desc)
    (dirty : ∀ other, (st.procs other).doesIo = some buf → desc.dirty = true)
    (clean : desc.dirty = false → desc.copyBuffer = none)
    (stored : desc.copyBuffer ≠ none → cfg.polarEnableSharedStorageMode = true) :
    Inv cfg (st.setBuffer buf desc) where
  __ := inv
  clean := (forall_update_iff st.buffers fun _ (desc : BufferDesc) =>
    desc.dirty = false → desc.copyBuffer = none).mpr ⟨clean, fun which _ => inv.clean which⟩
  stored := (forall_update_iff st.buffers fun _ (desc : BufferDesc) =>
    desc.copyBuffer ≠ none → cfg.polarEnableSharedStorageMode = true).mpr
      ⟨stored, fun which _ => inv.stored which⟩
  procs := by
    intro other
    have sound := inv.procs other
    refine { sound with ready := ?_, owns := ?_ }
    · exact (forall_update_iff st.buffers fun which (desc : BufferDesc) =>
        (st.procs other).shared = some which → (st.procs other).Ready cfg desc).mpr
          ⟨ready other, fun which _ => sound.ready which⟩
    · exact (forall_update_iff st.buffers fun which (desc : BufferDesc) =>
        (st.procs other).doesIo = some which → st.io which = some other ∧ desc.dirty = true).mpr
          ⟨fun busy => ⟨(sound.owns buf busy).1, dirty other busy⟩, fun which _ => sound.owns which⟩

theorem Inv.finishIo (busy : (st.procs proc).doesIo = some buf) :
    Inv cfg ((st.setIo buf none).release proc buf) := by
  have released : Inv cfg (st.release proc buf) := inv.release
  apply released.setIo
  have owner := ((inv.procs proc).owns buf busy).1
  refine (forall_update_iff st.procs fun _ (pc : Pc Buf) => pc.doesIo ≠ some buf).mpr ⟨nofun, ?_⟩
  intro other apart working
  exact apart (Option.some.inj (((inv.procs other).owns buf working).1.symm.trans owner))

theorem Inv.leave (free : st.io buf = none) (desc : BufferDesc)
    (gentle : Gentle (st.buffers buf) desc) (clean : desc.dirty = false → desc.copyBuffer = none)
    (stored : desc.copyBuffer ≠ none → cfg.polarEnableSharedStorageMode = true) :
    Inv cfg (st.setBuffer buf desc) := by
  have unused := inv.unused_of_free free
  apply inv.setBuffer desc _ (fun other busy => absurd busy (unused other)) clean stored
  intro other shares
  apply ((inv.procs other).ready buf shares).gentle gentle
  left
  cases busy : (st.procs other).doesIo with
  | none => rfl
  | some =>
    cases (Pc.shared_of_doesIo busy).symm.trans shares
    exact absurd busy (unused other)

end PolarDB.Buffer.SyncBuffer
