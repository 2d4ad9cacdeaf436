import PolarDB.Buffer.SyncSound

/-!
# No future page is written without a reason

Between the decision to flush a buffer and the start of its I/O another process may have
flushed the buffer, and a hint sets the LSN of a clean page. So the decision still holds
when the buffer is written if no such hint goes beyond the oldest apply LSN of the
decision. With a hint in between, a page is written that no replica has reached.
-/

namespace PolarDB.Buffer.SyncBuffer

open Buffer.Bufmgr (XLogRecPtr invalidXLogRecPtr)
open Function Lib.Runs

/-- A hint does not go beyond the oldest apply LSN of a decision to flush the same buffer, if it is
clean again. -/
def HintsApart {Buf : Type} (cfg : Config) (event : Event Buf) (st : State Buf) : Prop :=
  match event with
  | .other => True
  | .hint buf lsn => (st.buffers buf).dirty = false → ∀ proc oldest, st.procs proc =
      .flush buf oldest false →
        lsn ≤ oldest ∨ letThrough cfg (st.buffers buf).forkNum oldest = true ∨
        Covered cfg (st.buffers buf) oldest

variable {cfg : Config} {desc : BufferDesc} {oldest lsn : XLogRecPtr}

theorem gentle_hint (dirty : desc.dirty = true) : Gentle desc (markBufferDirtyHint desc lsn) := by
  refine ⟨rfl, rfl, ?_, .inl rfl⟩
  unfold markBufferDirtyHint
  rw [dirty]
  rfl

theorem may_flush_hint (allowed : MayFlush cfg desc oldest)
    (kept : lsn ≤ oldest ∨ letThrough cfg desc.forkNum oldest = true ∨ Covered cfg desc oldest) :
    MayFlush cfg (markBufferDirtyHint desc lsn) oldest := by
  rcases kept with small | through | covered
  · rcases allowed with through | before | covered
    · exact .inl through
    · right
      left
      unfold markBufferDirtyHint
      split_ifs
      · exact small
      · exact before
    · exact .inr (.inr covered)
  · exact .inl through
  · exact .inr (.inr covered)

variable {Buf : Type} {st : State Buf} {proc : Nat} {buf : Buf} {shutdown skipFullpage : Bool}

theorem Inv.ready_hint (inv : Inv cfg st) (clean : (st.buffers buf).dirty = false)
    (apart : HintsApart cfg (.hint buf lsn) st) (shares : (st.procs proc).shared = some buf) :
    (st.procs proc).Ready cfg (markBufferDirtyHint (st.buffers buf) lsn) := by
  have sound := inv.procs proc
  have below : CopyBelow (markBufferDirtyHint (st.buffers buf) lsn) :=
    fun cbuf isCopy => nomatch (inv.clean buf clean).symm.trans isCopy
  have noIo : (st.procs proc).doesIo ≠ some buf := fun busy =>
    nomatch clean.symm.trans (sound.owns buf busy).2
  have ready := sound.ready buf shares
  cases isPc : st.procs proc with
  | snapshotCheck | copyFlushCheck =>
    rw [isPc] at ready
    exact ⟨ready.1, .inr below⟩
  | flush which oldest skipFullpage =>
    rw [isPc] at shares ready
    cases shares
    cases skipFullpage with
    | true => exact .inl rfl
    | false => exact .inr (may_flush_hint (ready.resolve_left nofun) (apart clean proc oldest isPc))
  | writing | writingCopy =>
    rw [isPc] at shares noIo
    exact absurd shares noIo
  | flushCopy | recheckCopy => exact below
  | _ => trivial

theorem buffer_of_shared {pc : Pc Buf} (shares : pc.shared = some buf) : pc.buffer = some buf := by
  cases pc <;> first | exact shares | cases shares

theorem inv_start (started : Started st) : Inv cfg st where
  procs := fun proc => by rw [started.idle proc]; exact ⟨nofun, nofun, nofun, nofun⟩
  alone := fun buf _ => started.unshared buf
  clean := fun buf _ => started.uncopied buf
  stored := fun buf copied => absurd (started.uncopied buf) copied
  permitted := fun write mem => by rw [started.nothing] at mem; cases mem

section
variable (inv : Inv cfg st)
include inv

theorem Inv.flushCheck (here : st.procs proc = .flushCheck buf oldest shutdown) :
    Inv cfg (flushCheck cfg st proc buf oldest shutdown) := by
  have mem := (inv.sound here).shares buf rfl
  unfold SyncBuffer.flushCheck
  cases can : polarBufferCanBeFlushed cfg (st.buffers buf) oldest false with
  | true =>
    exact inv.goOn (.flush buf oldest false) mem rfl (.inl rfl)
      (.inr (may_flush_of_can_be_flushed can))
  | false =>
    have future := future_of_not_flushed can
    exact inv.goOn (.snapshotCheck buf oldest shutdown) mem rfl (.inl rfl) ⟨future.1, .inl future.2⟩

theorem Inv.snapshotCheck (here : st.procs proc = .snapshotCheck buf oldest shutdown) :
    Inv cfg (snapshotCheck cfg st proc buf oldest shutdown) := by
  have mem := (inv.sound here).shares buf rfl
  have ready := (inv.sound here).ready buf rfl
  unfold SyncBuffer.snapshotCheck
  split_ifs with need
  · have covered := covered_of_need_snapshot (Bool.and_eq_true_iff.mp need).2
    exact inv.goOn (.flush buf oldest false) mem rfl (.inl rfl) (.inr (.inr (.inr covered)))
  · exact inv.goOn (.copyFlushCheck buf oldest) mem rfl (.inl rfl) ready

theorem Inv.copyFlushCheck (here : st.procs proc = .copyFlushCheck buf oldest) :
    Inv cfg (copyFlushCheck cfg st proc buf oldest) := by
  have mem := (inv.sound here).shares buf rfl
  have ready := (inv.sound here).ready buf rfl
  unfold SyncBuffer.copyFlushCheck
  cases can : polarBufferCanBeFlushed cfg (st.buffers buf) oldest true with
  | false => exact inv.goOn (.copyCheck buf oldest) mem rfl (.inl rfl) trivial
  | true =>
    apply inv.goOn (.flushCopy buf) mem rfl (.inl rfl)
    rcases ready.2 with future | below
    · -- the page is a future page, so the copy was let through for its own LSN
      rcases copy_of_can_be_flushed can with through | past | copied
      · exact nomatch ready.1.symm.trans through
      · exact absurd future (Nat.not_lt.mpr past)
      · exact fun cbuf isCopy => Nat.le_of_lt (Nat.lt_of_le_of_lt (copied cbuf isCopy) future)
    · exact below

theorem Inv.writeBuffer (here : st.procs proc = .writing buf oldest skipFullpage) :
    Inv cfg (writeBuffer cfg st proc buf oldest skipFullpage) := by
  have ⟨shares, ready, owns, _⟩ := inv.sound here
  have recorded : Inv cfg (st.record
      { forkNum := (st.buffers buf).forkNum
        lsn := (st.buffers buf).lsn
        oldestApplyLsn := oldest
        snapshotLogged := logsSnapshot cfg (st.buffers buf) oldest skipFullpage
        flushControl := !skipFullpage }) := by
    apply inv.record
    cases skipFullpage with
    | true => exact nofun
    | false => exact fun _ => permitted_write ((ready buf rfl).resolve_left nofun)
  exact recorded.goOn (.written buf) (shares buf rfl) rfl (.inr (owns buf rfl)) trivial

end

variable [DecidableEq Buf]

theorem Inv.hint (inv : Inv cfg st) (apart : HintsApart cfg (.hint buf lsn) st) :
    Inv cfg (st.setBuffer buf (markBufferDirtyHint (st.buffers buf) lsn)) := by
  refine inv.setBuffer _ ?_ (fun _ _ => rfl) Bool.noConfusion (inv.stored buf)
  intro other shares
  cases dirty : (st.buffers buf).dirty with
  | true => exact ((inv.procs other).ready buf shares).gentle (gentle_hint dirty) (.inr rfl)
  | false => exact inv.ready_hint dirty apart shares

theorem Inv.setUnshared (inv : Inv cfg st) (unshared : ∀ proc, (st.procs proc).shared ≠ some buf)
    (clean : desc.dirty = false → desc.copyBuffer = none)
    (stored : desc.copyBuffer ≠ none → cfg.polarEnableSharedStorageMode = true) :
    Inv cfg (st.setBuffer buf desc) := by
  apply inv.setBuffer desc _ _ clean stored
  · exact fun other shares => absurd shares (unshared other)
  · exact fun other busy => absurd (Pc.shared_of_doesIo busy) (unshared other)

section
variable (inv : Inv cfg st)
include inv

theorem Inv.modify {pageIsNew : Bool} (here : st.procs proc = .modifying buf) :
    Inv cfg (st.setBuffer buf (modifyBuffer cfg st.positions (st.buffers buf) lsn pageIsNew)) := by
  have owned := (inv.procs proc).modifier buf here
  have sameCopy : (polarSetBufferFakeOldestLsn cfg st.positions (st.buffers buf)).copyBuffer =
      (st.buffers buf).copyBuffer := by
    unfold polarSetBufferFakeOldestLsn
    split_ifs
    all_goals rfl
  refine inv.setUnshared ?_ Bool.noConfusion fun copied => ?_
  swap
  · exact inv.stored buf fun uncopied => copied (sameCopy.trans uncopied)
  intro other shares
  have mem := (inv.procs other).shares buf shares
  rw [inv.alone buf (by rw [owned]; exact nofun)] at mem
  cases mem

theorem Inv.lockExclusive (unshared : st.sharers buf = []) (free : st.exclusive buf = none) :
    Inv cfg ((st.setExclusive buf (some proc)).go proc (.modifying buf)) := by
  have locked : Inv cfg (st.setExclusive buf (some proc)) := by
    refine { inv with procs := ?_, alone := ?_ }
    · intro other
      refine { inv.procs other with modifier := ?_ }
      have known := (inv.procs other).modifier
      exact (forall_update_iff st.exclusive fun which owner =>
        st.procs other = .modifying which → owner = some other).mpr
          ⟨fun modifying => (nomatch free.symm.trans (known buf modifying)),
            fun which _ => known which⟩
    · exact (forall_update_iff st.exclusive fun which owner => owner ≠ none →
        st.sharers which = []).mpr ⟨fun _ => unshared, fun which _ => inv.alone which⟩
  apply locked.go
  refine ⟨nofun, nofun, nofun, ?_⟩
  rintro which ⟨⟩
  exact update_self ..

theorem Inv.unlockExclusive (here : st.procs proc = .modifying buf) :
    Inv cfg ((st.setExclusive buf none).go proc .idle) := by
  have owned := (inv.procs proc).modifier buf here
  have idle : Inv cfg (st.go proc .idle) := inv.goIdle
  refine { idle with procs := ?_, alone := ?_ }
  · intro other
    refine { idle.procs other with modifier := ?_ }
    have known := (idle.procs other).modifier
    refine (forall_update_iff st.exclusive fun which owner =>
      (st.go proc .idle).procs other = .modifying which → owner = some other).mpr
        ⟨?_, fun which _ => known which⟩
    intro modifying
    -- only the holder of the lock modifies the buffer, and it is idle now
    cases owned.symm.trans (known buf modifying)
    change update st.procs proc .idle proc = _ at modifying
    rw [update_self] at modifying
    cases modifying
  · exact (forall_update_iff st.exclusive fun which owner => owner ≠ none →
      st.sharers which = []).mpr ⟨absurd rfl, fun which _ => inv.alone which⟩

theorem Inv.copyCheck (here : st.procs proc = .copyCheck buf oldest) :
    Inv cfg (copyCheck cfg st proc buf oldest) := by
  have mem := (inv.sound here).shares buf rfl
  unfold SyncBuffer.copyCheck
  split_ifs
  · exact inv.goOn (.copy buf oldest) mem rfl (.inl rfl) trivial
  · exact inv.release

theorem Inv.victimCheck (here : st.procs proc = .victimCheck buf oldest) :
    Inv cfg (victimCheck cfg st proc buf oldest) := by
  have mem := (inv.sound here).shares buf rfl
  unfold SyncBuffer.victimCheck
  split_ifs with can
  · exact inv.goOn (.flush buf oldest false) mem rfl (.inl rfl)
      (.inr (may_flush_of_can_be_flushed can))
  · exact inv.release

theorem Inv.startIo (pc : Pc Buf) (here : (st.procs proc).shared = some buf)
    (idle : st.io buf = none) (dirty : (st.buffers buf).dirty = true)
    (shared : pc.shared = some buf) (ready : pc.Ready cfg (st.buffers buf)) :
    Inv cfg ((st.setIo buf (some proc)).go proc pc) := by
  have locked : Inv cfg (st.setIo buf (some proc)) := inv.setIo (inv.unused_of_free idle)
  exact locked.goOn pc ((inv.procs proc).shares buf here) shared
    (.inr ⟨update_self .., dirty⟩) ready

theorem Inv.startFlush (here : st.procs proc = .flush buf oldest skipFullpage)
    (idle : st.io buf = none) : Inv cfg (startFlush st proc buf oldest skipFullpage) := by
  have ready := (inv.sound here).ready buf rfl
  unfold SyncBuffer.startFlush
  cases dirty : (st.buffers buf).dirty with
  | false => exact inv.release
  | true =>
    have gentle : Gentle (st.buffers buf) { st.buffers buf with justDirtied := false } :=
      ⟨rfl, rfl, rfl, .inl rfl⟩
    have cleared : Inv cfg (st.setBuffer buf { st.buffers buf with justDirtied := false }) :=
      inv.leave idle _ gentle (inv.clean buf) (inv.stored buf)
    apply cleared.startIo (.writing buf oldest skipFullpage) (congrArg Pc.shared here) idle _ rfl
    · change skipFullpage = true ∨ MayFlush cfg (update st.buffers buf _ buf) oldest
      rw [update_self]
      exact ready.imp id gentle.mayFlush
    · exact (congrArg BufferDesc.dirty (update_self buf _ st.buffers)).trans dirty

theorem Inv.finishFlush (here : st.procs proc = .written buf) :
    Inv cfg (finishFlush cfg st proc buf) := by
  have finished : Inv cfg ((st.setIo buf none).release proc buf) :=
    inv.finishIo (congrArg Pc.doesIo here)
  have copies : (cleaned cfg (st.buffers buf)).copyBuffer = none := by
    unfold cleaned
    split_ifs with mode
    · rfl
    · exact not_not.mp fun copied => mode (inv.stored buf copied)
  apply finished.leave (update_self ..) _
  · have below : CopyBelow (cleaned cfg (st.buffers buf)) := fun cbuf isCopy =>
      nomatch copies.symm.trans isCopy
    refine ⟨?_, ?_, ?_, .inr below⟩
    all_goals
      unfold cleaned
      split_ifs
      all_goals rfl
  · exact fun _ => copies
  · exact absurd copies

theorem Inv.startFlushCopy (here : st.procs proc = .flushCopy buf)
    (idle : st.io buf = none) : Inv cfg (startFlushCopy st proc buf) := by
  have ready := (inv.sound here).ready buf rfl
  unfold SyncBuffer.startFlushCopy
  split_ifs with done
  · exact inv.release
  · have dirty : (st.buffers buf).dirty = true := by simp_all
    exact inv.startIo (.recheckCopy buf) (congrArg Pc.shared here) idle dirty rfl ready

theorem Inv.recheckCopy (here : st.procs proc = .recheckCopy buf) :
    Inv cfg (recheckCopy cfg st proc buf) := by
  have ⟨shares, below, owns, _⟩ := inv.sound here
  unfold SyncBuffer.recheckCopy
  cases can : polarBufferCanBeFlushed cfg (st.buffers buf) st.oldestApplyLsn true with
  | false => exact inv.finishIo (congrArg Pc.doesIo here)
  | true =>
    apply inv.goOn (.writingCopy buf st.oldestApplyLsn) (shares buf rfl) rfl (.inr (owns buf rfl))
    rcases copy_of_can_be_flushed can with through | past | copied
    · exact .inl through
    · exact .inr fun cbuf isCopy => Nat.le_trans (below buf rfl cbuf isCopy) past
    · exact .inr copied

theorem Inv.writeCopy (here : st.procs proc = .writingCopy buf oldest) :
    Inv cfg (writeCopy st proc buf oldest) := by
  have busy : (st.procs proc).doesIo = some buf := congrArg Pc.doesIo here
  have ready := (inv.sound here).ready buf rfl
  unfold SyncBuffer.writeCopy
  cases isCopy : (st.buffers buf).copyBuffer with
  | none => exact inv.finishIo busy
  | some cbuf =>
    have recorded : Inv cfg (st.record
        { forkNum := (st.buffers buf).forkNum
          lsn := cbuf.lsn
          oldestApplyLsn := oldest
          snapshotLogged := false
          flushControl := true }) :=
      inv.record _ fun _ => ready.elim (fun through => .inr (.inl through)) fun below =>
        .inl (below cbuf isCopy)
    apply (recorded.finishIo busy).leave (update_self ..) _
    · exact ⟨rfl, rfl, rfl, .inr nofun⟩
    · exact fun _ => rfl
    · exact absurd rfl

theorem Inv.startCopy (here : st.procs proc = .copy buf oldest)
    (idle : st.io buf = none) : Inv cfg (startCopy st proc buf oldest) := by
  unfold SyncBuffer.startCopy
  split_ifs with done
  · exact inv.release
  · have dirty : (st.buffers buf).dirty = true := by simp_all
    exact inv.startIo (.copying buf oldest) (congrArg Pc.shared here) idle dirty rfl trivial

end

theorem stored_of_copy_satisfied {positions : Positions}
    (satisfied : polarBufferCopyIsSatisfied cfg positions desc oldest false = true) :
    cfg.polarEnableSharedStorageMode = true := by
  unfold polarBufferCopyIsSatisfied at satisfied
  cases mode : cfg.polarEnableSharedStorageMode with
  | true => rfl
  | false => simp [mode] at satisfied

theorem Inv.copyBufferAlloc (inv : Inv cfg st) {available : Bool}
    (here : st.procs proc = .copying buf oldest) :
    Inv cfg (copyBufferAlloc cfg st proc buf oldest available) := by
  have busy : (st.procs proc).doesIo = some buf := congrArg Pc.doesIo here
  have dirty := ((inv.procs proc).owns buf busy).2
  have finished : Inv cfg ((st.setIo buf none).release proc buf) := inv.finishIo busy
  unfold SyncBuffer.copyBufferAlloc
  split_ifs with satisfied
  · have mode := stored_of_copy_satisfied (Bool.and_eq_true_iff.mp satisfied).1
    apply finished.leave (update_self ..)
      { st.buffers buf with
        copyBuffer :=
          some { lsn := (st.buffers buf).lsn, oldestLsn := (st.buffers buf).oldestLsn } }
    · refine ⟨rfl, rfl, rfl, .inr ?_⟩
      rintro cbuf ⟨⟩
      exact Nat.le_refl _
    · exact fun clean => nomatch dirty.symm.trans clean
    · exact fun _ => mode
  · exact finished

theorem step_keeps {event : Event Buf} {next : State Buf} (inv : Inv cfg st)
    (step : Step cfg event st next) (met : HintsApart cfg event st) : Inv cfg next := by
  cases step with
  | positions | setOldestReplicaLsn => exact { inv with }
  | replace buf _ unpinned _ uncopied =>
    apply inv.setUnshared _ (fun _ => uncopied) fun copied => absurd uncopied copied
    exact fun other shares => unpinned other (buffer_of_shared shares)
  | lockExclusive proc buf here unshared free => exact inv.lockExclusive unshared free
  | modify proc buf lsn _ here => exact inv.modify here
  | unlockExclusive proc buf here => exact inv.unlockExclusive here
  | hintLog proc buf lsn here free =>
    exact (inv.share free).goOn (.hinting buf lsn) mem_share rfl (.inl rfl) trivial
  | markBufferDirtyHint proc buf _ here => exact (inv.hint met).release
  | syncOneBuffer proc buf shutdown here _ dirty =>
    exact inv.go (.pinned buf st.oldestApplyLsn shutdown) ⟨nofun, nofun, nofun, nofun⟩
  | lockShared proc buf oldest shutdown here free =>
    exact (inv.share free).goOn (.flushCheck buf oldest shutdown) mem_share rfl (.inl rfl) trivial
  | flushCheck proc buf oldest shutdown here => exact inv.flushCheck here
  | snapshotCheck proc buf oldest _ here => exact inv.snapshotCheck here
  | copyFlushCheck proc buf oldest here => exact inv.copyFlushCheck here
  | copyCheck proc buf oldest here => exact inv.copyCheck here
  | bufferAlloc proc buf here _ free =>
    exact (inv.share free).goOn (.victimCheck buf st.oldestApplyLsn) mem_share rfl
      (.inl rfl) trivial
  | victimCheck proc buf oldest here => exact inv.victimCheck here
  | flushRelationBuffers proc buf oldest here free =>
    exact (inv.share free).goOn (.flush buf oldest true) mem_share rfl (.inl rfl) (.inl rfl)
  | startFlush proc buf oldest skipFullpage here idle => exact inv.startFlush here idle
  | writeBuffer proc buf oldest _ here => exact inv.writeBuffer here
  | finishFlush proc buf here => exact inv.finishFlush here
  | startFlushCopy proc buf here idle => exact inv.startFlushCopy here idle
  | recheckCopy proc buf here => exact inv.recheckCopy here
  | writeCopy proc buf oldest here => exact inv.writeCopy here
  | startCopy proc buf oldest here idle => exact inv.startCopy here idle
  | copyBufferAlloc _ _ _ _ here => exact inv.copyBufferAlloc here

/-- Every write of the sync paths is of a page that all replicas have reached, or has its reason. -/
theorem no_future_page_written {start : State Buf} (started : Started start)
    (run : Run (Step cfg) (HintsApart cfg) start st) :
    ∀ write ∈ st.writes, write.flushControl = true → Permitted cfg write := by
  have inv := run.invariant (Inv cfg) (inv_start started) fun _ _ _ inv step met =>
    step_keeps inv step met
  exact inv.permitted

def plainConfig : Config where
  polarEnableSharedStorageMode := true
  polarEnableFlushlist := true
  polarEnableControlVmFlush := true
  polarIgnoreRoLatency := false
  polarCopyBufferEnabled := true
  fullpageEnabled := false
  bgRedoStateIsParallel := false
  replayDelayThreshold := 0
  oldestLsnDelayThreshold := 0
  snapshotMinModifiedCount := 0
  fullpageMaxSegmentSize := 0
  copyMinModifiedCount := 0
  copyThresholdLag := 1

/-- One heap page at LSN 10, and replicas that have replayed up to 20. -/
def heapStart : State Unit where
  buffers := fun _ =>
    { forkNum := .main, valid := true, dirty := false, justDirtied := false, permanent := true,
      lsn := 10
      pageIsNew := false, oldestLsn := invalidXLogRecPtr, recentlyModifiedCount :=
        0, copyBuffer := none
      firstTouchedAfterCopy := false }
  sharers := fun _ => []
  exclusive := fun _ => none
  io := fun _ => none
  positions := { insertLsn := 15, consistentLsn := 10, fullpageSegmentSize := 0 }
  oldestApplyLsn := 20
  procs := fun _ => .idle
  writes := []

theorem heapStart_started : Started heapStart :=
  ⟨fun _ => rfl, fun _ => rfl, fun _ => rfl, fun _ => rfl, fun _ => rfl, fun _ => rfl, rfl⟩

/-- Two processes decide to flush the page at 16. Behind the first flush a hint at 18, which all
replicas have reached, marks the page dirty, and the second writes it again. -/
theorem modified_page_written : ∃ st, Run (Step plainConfig) (HintsApart plainConfig) heapStart st ∧
    st.writes.map Write.lsn = [18, 16] ∧
    ∀ write ∈ st.writes, write.flushControl = true → Permitted plainConfig write := by
  have started : Run (Step plainConfig) (HintsApart plainConfig) heapStart _ := .refl
  have locked := started.snoc (.lockExclusive 0 () rfl rfl rfl)
  have modified := locked.snoc (.modify 0 () 16 false rfl)
  have unlocked := modified.snoc (.unlockExclusive 0 () rfl)
  have pinned := unlocked.snoc (.syncOneBuffer 1 () false rfl rfl rfl)
  have shared := pinned.snoc (.lockShared 1 () 20 false rfl rfl)
  have checked := shared.snoc (.flushCheck 1 () 20 false rfl)
  have victim := checked.snoc (.bufferAlloc 2 () rfl rfl rfl)
  have chosen := victim.snoc (.victimCheck 2 () 20 rfl)
  have busy := chosen.snoc (.startFlush 2 () 20 false rfl rfl)
  have written := busy.snoc (.writeBuffer 2 () 20 false rfl)
  have clean := written.snoc (.finishFlush 2 () rfl)
  have logged := clean.snoc (.hintLog 0 () 18 rfl rfl)
  have hinted := logged.snoc (.markBufferDirtyHint 0 () 18 rfl) ?_
  · have again := hinted.snoc (.startFlush 1 () 20 false rfl rfl)
    have rewritten := again.snoc (.writeBuffer 1 () 20 false rfl)
    exact ⟨_, rewritten, rfl, no_future_page_written heapStart_started rewritten⟩
  · -- only process 1 is about to flush
    intro _ other oldest decided
    rcases other with _ | _ | _ | other
    · cases decided
    · cases decided
      exact .inl (by decide)
    · cases decided
    · cases decided

/-- Two processes decide to flush the page at 16. Behind the first flush a hint is logged at 30 and
marks the page dirty; the second writes the page at 30, while no replica is beyond 20. -/
theorem hint_makes_future_page : ∃ st, Run (Step plainConfig) (fun _ _ => True) heapStart st ∧
    ∃ write ∈ st.writes, write.flushControl = true ∧ write.lsn = 30 ∧
    ¬ Permitted plainConfig write := by
  have started : Run (Step plainConfig) (fun _ _ => True) heapStart _ := .refl
  have locked := started.snoc (.lockExclusive 0 () rfl rfl rfl)
  have modified := locked.snoc (.modify 0 () 16 false rfl)
  have unlocked := modified.snoc (.unlockExclusive 0 () rfl)
  have pinned := unlocked.snoc (.syncOneBuffer 1 () false rfl rfl rfl)
  have shared := pinned.snoc (.lockShared 1 () 20 false rfl rfl)
  have checked := shared.snoc (.flushCheck 1 () 20 false rfl)
  have victim := checked.snoc (.bufferAlloc 2 () rfl rfl rfl)
  have chosen := victim.snoc (.victimCheck 2 () 20 rfl)
  have busy := chosen.snoc (.startFlush 2 () 20 false rfl rfl)
  have written := busy.snoc (.writeBuffer 2 () 20 false rfl)
  have clean := written.snoc (.finishFlush 2 () rfl)
  have logged := clean.snoc (.hintLog 0 () 30 rfl rfl)
  have hinted := logged.snoc (.markBufferDirtyHint 0 () 30 rfl)
  have again := hinted.snoc (.startFlush 1 () 20 false rfl rfl)
  have future := again.snoc (.writeBuffer 1 () 20 false rfl)
  refine ⟨_, future, _, List.mem_cons_self, rfl, rfl, ?_⟩
  rintro (past | through | logged)
  · exact absurd past (by decide)
  · cases through
  · cases logged

end PolarDB.Buffer.SyncBuffer
