import PolarDB.LocalCache.Steps

/-!
# The accesses to files keep the agreement

The one access that needs a condition is the copy of a segment from shared storage
by a read: it must not find a local file that is ahead of the shared one.
-/

namespace PolarDB.LocalCache.Cache

open Function List Lib.SparseFile

variable {Byte : Type} [Zero Byte] {cfg : Config} {initial : Nat → Option (File Byte)}
  {st next : State Byte}
  {proc other idx segno : Nat} {file : File Byte}

theorem Good.setLocal (good : Good cfg initial st) (carried : cfg.localWrite = true →
      ∀ pos, pos < cfg.segmentSize → Carries initial st.written segno file pos) :
    Good cfg initial (st.setLocal segno file) := by
  refine { good with
      stored := ?stored, localCarries := ?localCarries, sharedCarries := ?sharedCarries }
  all_goals
    unfold State.setLocal
    dsimp only
  case stored =>
    intro number slot found dirty idle
    have stored := good.stored number slot found dirty idle
    refine ⟨stored.1, ?_⟩
    rw [update_apply]
    split_ifs
    · simp
    · exact stored.2
  case localCarries =>
    intro permitted number found
    rw [update_apply]
    split_ifs with same
    · rw [same]
      rintro here
      cases here
      exact carried permitted
    · exact good.localCarries permitted number found
  case sharedCarries =>
    intro number
    rw [update_apply]
    split_ifs with same
    · rw [same]
      intro which
      rcases which with absent | direct
      · cases absent
      · exact good.sharedCarries segno (.inr direct)
    · exact good.sharedCarries number

/-- A process writes to the local file of a segment that it reads from, or is the only one to
use. -/
theorem UndisturbedFiles.setLocal (found : st.hash segno = some idx)
    (busy : (st.slots idx).writer = some other → (st.slots idx).readers ≠ []) :
    UndisturbedFiles initial other st (st.setLocal segno file) := by
  intro number _ mapped _
  unfold State.setLocal
  dsimp only
  by_cases same : number = segno
  · subst same
    rw [found] at mapped
    cases mapped
    rw [update_self]
    refine ⟨fun _ => rfl, ?_, ?_⟩
    · intro absent
      cases absent
    · intro writer
      exact ⟨rfl, fun empty => absurd empty (busy writer)⟩
  · rw [update_of_ne same]
    exact ⟨fun _ => rfl, fun absent => ⟨absent, rfl⟩, fun _ => ⟨rfl, fun _ => rfl⟩⟩

variable {task : WriteTask Byte} {data : List Byte}

theorem Copied.carries (good : Good cfg initial st) (permitted : cfg.localWrite = true)
    (copied : Copied cfg initial st segno data) (pos : Nat) (inside : pos < cfg.segmentSize) :
    Carries initial st.written segno ((opened (st.localFile segno)).write 0 data) pos := by
  have ⟨_, values, complete⟩ := copied
  unfold Carries
  by_cases within : pos < data.length
  · rw [byteAt_write_inside _ (Nat.zero_le _) (by omega)]
    exact values pos within
  have outside : pos < 0 ∨ 0 + data.length ≤ pos := by omega
  rw [byteAt_write_outside _ outside]
  cases was : st.localFile segno with
  | none =>
    -- Without a local file the copy is all there is of the shared file.
    have shared := good.sharedCarries segno (.inl was) pos inside
    have short : (opened (st.sharedFile segno)).size ≤ pos := by
      have bound := complete was
      omega
    rw [← shared, (opened (st.sharedFile segno)).beyond pos short]
    rfl
  | some earlier => exact good.localCarries permitted segno earlier was pos inside

theorem Copied.read {shared : File Byte} (present : st.sharedFile segno = some shared)
    (values : ∀ pos, pos < min shared.size cfg.segmentSize →
      shared.byteAt pos = lastValue initial st.written segno pos) :
    Copied cfg initial st segno (shared.read 0 cfg.segmentSize) := by
  have length := length_read shared 0 cfg.segmentSize
  refine ⟨by omega, ?_, ?_⟩
  · intro pos _
    rw [getD_read shared (by omega), Nat.zero_add]
    exact values pos (by omega)
  · intro _
    rw [present]
    change min shared.size cfg.segmentSize ≤ _
    omega

theorem readLocal_keeps (inv : Inv cfg initial st) {task : ReadTask}
    (reading : Reading cfg st proc task idx) :
    Inv cfg initial (readLocal cfg st proc task idx) := by
  have nothing : cfg.localWrite = true → Answers initial st task none := by
    intro _ data never
    cases never
  unfold readLocal
  cases present : st.localFile task.segno with
  | none =>
    dsimp only
    split
    · exact inv.setPc proc _ reading
    · exact inv.setPc proc _ ⟨reading, nothing⟩
  | some file =>
    dsimp only
    split
    · next full =>
      apply inv.setPc proc
      refine ⟨reading, ?_⟩
      intro permitted _ answered
      cases answered
      refine ⟨full, ?_⟩
      intro _ within
      rw [getD_read file within]
      have inside := reading.2.2
      exact inv.good.localCarries permitted _ file present _ (by omega)
    split
    · exact inv.setPc proc _ ⟨reading, nothing⟩
    · exact inv.setPc proc _ reading

/-- A read goes on to copy the segment when there is no local file, or when the local file holds
what the shared file holds. -/
def CopiesAgree (cfg : Config) : Event → State Byte → Prop
  | .copyShared proc, st => ∀ task idx, st.procs proc = .readShared task idx →
    ∀ own shared, st.localFile task.segno = some own → st.sharedFile task.segno = some shared →
      ∀ pos, pos < min shared.size cfg.segmentSize → own.byteAt pos = shared.byteAt pos
  | .step, _ => True

theorem readShared_keeps (inv : Inv cfg initial st) {task : ReadTask}
    (here : st.procs proc = .readShared task idx) (met : CopiesAgree cfg (.copyShared proc) st) :
    Inv cfg initial (readShared cfg st proc task idx) := by
  have reading : Reading cfg st proc task idx := by
    have sound := inv.procs proc
    rw [here] at sound
    exact sound
  unfold readShared
  cases present : st.sharedFile task.segno with
  | none =>
    apply inv.setPc proc
    exact ⟨reading, fun _ data never => absurd never (by simp)⟩
  | some shared =>
    apply inv.setPc proc
    refine ⟨reading, ?_⟩
    intro permitted
    apply Copied.read present
    intro pos inside
    cases own : st.localFile task.segno with
    | none =>
      have carried := inv.good.sharedCarries _ (.inl own) pos (by omega)
      rw [present] at carried
      exact carried
    | some file =>
      rw [← met task idx here file shared own present pos inside]
      exact inv.good.localCarries permitted _ file own pos (by omega)

theorem getD_drop_take (data : List Byte) {offset count pos : Nat} (within : pos < count) :
    ((data.drop offset).take count).getD pos 0 = data.getD (offset + pos) 0 := by
  simp [List.getD, within]

theorem readCopy_keeps (inv : Inv cfg initial st) {task : ReadTask}
    (sound : (Pc.readCopy task idx data).Sound cfg initial st proc) :
    Inv cfg initial (readCopy st proc task idx data) := by
  have ⟨reading, copied⟩ := sound
  apply inv.move proc _ (by rfl)
  · apply inv.good.setLocal
    intro permitted
    exact (copied permitted).carries inv.good permitted
  · intro _ _
    refine ⟨UndisturbedSlot.of_same rfl rfl, UndisturbedFiles.setLocal reading.1 ?_⟩
    intro _ empty
    have holds := reading.2.1
    rw [empty] at holds
    cases holds
  · refine ⟨reading, ?_⟩
    intro permitted _ answered
    split at answered
    · cases answered
    next long =>
    cases answered
    refine ⟨by rw [length_take, length_drop]; omega, ?_⟩
    intro _ within
    rw [getD_drop_take data within]
    exact (copied permitted).2.1 _ (by omega)

theorem writeStat_keeps (inv : Inv cfg initial st)
    (writing : Writing cfg st proc task idx) :
    Inv cfg initial (writeStat cfg st proc task idx) := by
  unfold writeStat
  split_ifs with permitted
  · cases own : st.localFile task.segno with
    | none =>
      cases present : st.sharedFile task.segno with
      | none =>
        apply inv.setPc proc
        exact ⟨writing, fun _ _ => present⟩
      | some shared =>
        apply inv.setPc proc
        refine ⟨writing, permitted, own, .read present ?_⟩
        intro pos _
        have carried := inv.good.sharedCarries _ (.inl own) pos (by omega)
        rw [present] at carried
        exact carried
    | some =>
      apply inv.setPc proc
      exact ⟨writing, fun _ absent => absurd (own.symm.trans absent) (by simp)⟩
  · apply inv.setPc proc
    exact ⟨writing, fun allowed => absurd allowed permitted⟩

theorem Writing.alone (writing : Writing cfg st proc task idx) (apart : other ≠ proc) :
    (st.slots idx).writer ≠ some other := by
  rw [writing.2.1]
  intro same
  exact apart (Option.some.inj same).symm

theorem writeCopy_keeps (inv : Inv cfg initial st)
    (sound : (Pc.writeCopy task idx data).Sound cfg initial st proc) :
    Inv cfg initial (writeCopy st proc task idx data) := by
  have ⟨writing, permitted, absent, copied⟩ := sound
  apply inv.move proc _ (by rfl)
  · apply inv.good.setLocal
    intro _
    exact copied.carries inv.good permitted
  · intro _ apart
    refine ⟨UndisturbedSlot.of_same rfl rfl, UndisturbedFiles.setLocal writing.1 ?_⟩
    intro holds
    exact absurd holds (writing.alone apart)
  · refine ⟨writing, ?_⟩
    intro _ missing
    change update st.localFile task.segno _ task.segno = none at missing
    exact absurd missing (by simp)

/-- The write of one task: the file that takes it, and the task among the written ones. -/
def stored (cfg : Config) (st : State Byte) (task : WriteTask Byte) : State Byte :=
  { storeWrite cfg st task with written := task :: st.written }

variable {written : List (WriteTask Byte)} {after : After Byte}

theorem carries_elsewhere {pos : Nat} (apart : segno ≠ task.segno)
    (carries : Carries initial written segno file pos) :
    Carries initial (task :: written) segno file pos :=
  carries.trans (lastValue_cons_other fun covers => apart covers.1.symm).symm

theorem Good.storeLocal (good : Good cfg initial st) (permitted : cfg.localWrite = true)
    (based : st.localFile task.segno = none → st.sharedFile task.segno = none) :
    Good cfg initial
      { st.setLocal task.segno ((opened (st.localFile task.segno)).write task.offset task.data) with
        written := task :: st.written } := by
  have before : ∀ pos, pos < cfg.segmentSize →
      Carries initial st.written task.segno (opened (st.localFile task.segno)) pos := by
    cases own : st.localFile task.segno with
    | none =>
      have carried := good.sharedCarries task.segno (.inl own)
      rw [based own] at carried
      exact carried
    | some file => exact good.localCarries permitted task.segno file own
  refine { good with
      stored := ?stored, localCarries := ?localCarries, sharedCarries := ?sharedCarries }
  case stored =>
    intro number slot found dirty idle
    refine ⟨permitted, ?_⟩
    change update st.localFile task.segno _ number ≠ none
    rw [update_apply]
    split_ifs
    · simp
    · exact (good.stored number slot found dirty idle).2
  case localCarries =>
    intro _ number file
    change update st.localFile task.segno _ number = some file → _
    rw [update_apply]
    split_ifs with same
    · subst same
      intro here
      cases here
      intro pos inside
      exact (before pos inside).write
    · intro found pos inside
      exact carries_elsewhere same (good.localCarries permitted number file found pos inside)
  case sharedCarries =>
    intro number
    change update st.localFile task.segno _ number = none ∨ _ → _
    intro which pos inside
    rcases which with absent | direct
    · by_cases same : number = task.segno
      · rw [same, update_self] at absent
        cases absent
      · rw [update_of_ne same] at absent
        exact carries_elsewhere same (good.sharedCarries number (.inl absent) pos inside)
    · rw [permitted] at direct
      cases direct

theorem Good.storeShared (good : Good cfg initial st) (direct : cfg.localWrite = false) :
    Good cfg initial
      { st.setShared task.segno
        ((opened (st.sharedFile task.segno)).write task.offset task.data) with
        written := task :: st.written } := by
  refine { good with localCarries := ?localCarries, sharedCarries := ?sharedCarries }
  case localCarries =>
    intro permitted
    rw [direct] at permitted
    cases permitted
  case sharedCarries =>
    intro number _ pos inside
    have carried := good.sharedCarries number (.inr direct) pos inside
    change Carries initial _ number (opened (update st.sharedFile task.segno _ number)) pos
    rw [update_apply]
    split_ifs with same
    · subst same
      exact carried.write
    · exact carries_elsewhere same carried

theorem Writing.undisturbedFiles (writing : Writing cfg st proc task idx)
    (apart : other ≠ proc) (written : next.written = task :: st.written)
    (localFile : ∀ number, number ≠ task.segno → next.localFile number = st.localFile number)
    (sharedFile : ∀ number, number ≠ task.segno → next.sharedFile number = st.sharedFile number) :
    UndisturbedFiles initial other st next := by
  intro number _ found held
  have elsewhere : number ≠ task.segno := by
    rintro rfl
    rw [writing.1] at found
    cases found
    rcases held with reads | writes
    · rw [writing.2.2.1] at reads
      cases reads
    · exact absurd writes (writing.alone apart)
  have missed : ∀ pos, ¬ task.Covers number pos := fun pos covers => elsewhere covers.1.symm
  rw [written, localFile number elsewhere, sharedFile number elsewhere]
  exact ⟨fun pos => lastValue_cons_other (missed pos), fun absent => ⟨absent, rfl⟩,
    fun _ => ⟨rfl, fun _ => rfl⟩⟩

theorem writeFile_keeps (inv : Inv cfg initial st)
    (sound : (Pc.writeFile task idx).Sound cfg initial st proc) :
    Inv cfg initial (writeFile cfg st proc task idx) := by
  have ⟨writing, based⟩ := sound
  change Inv cfg initial ((stored cfg st task).setPc proc (.writeDone task idx))
  unfold stored storeWrite
  split_ifs with permitted
  · apply inv.move proc (.writeDone task idx) (by rfl)
      (inv.good.storeLocal permitted (based permitted))
    · intro other apart
      refine ⟨UndisturbedSlot.of_same rfl rfl,
        writing.undisturbedFiles apart rfl ?_ (fun _ _ => rfl)⟩
      intro number elsewhere
      exact update_of_ne elsewhere ..
    · refine ⟨writing, ?_⟩
      intro _
      change update st.localFile task.segno _ task.segno ≠ none
      simp
  · apply inv.move proc (.writeDone task idx) (by rfl)
      (inv.good.storeShared (Bool.eq_false_iff.mpr permitted))
    · intro _ apart
      refine ⟨UndisturbedSlot.of_same rfl rfl,
        writing.undisturbedFiles apart rfl (fun _ _ => rfl) ?_⟩
      intro _ elsewhere
      exact update_of_ne elsewhere ..
    · exact ⟨writing, fun allowed => absurd allowed permitted⟩

theorem flushRead_keeps (inv : Inv cfg initial st) (flushing : Flushing cfg st proc after idx) :
    Inv cfg initial (flushRead cfg st proc after idx) := by
  unfold flushRead
  dsimp only
  cases own : st.localFile (st.slots idx).segno with
  | none => exact absurd own flushing.2.2.2.1
  | some file => exact inv.setPc proc _ flushing

theorem flushWrite_keeps (inv : Inv cfg initial st) (flushing : Flushing cfg st proc after idx) :
    Inv cfg initial (flushWrite st proc after idx data) := by
  have ⟨mapped, writer, permitted, present, _⟩ := flushing
  have good := inv.good
  unfold flushWrite
  dsimp only
  generalize target : (st.slots idx).segno = segno at *
  generalize (opened (st.sharedFile segno)).write (st.slots idx).minWriteOffset data = res
  have elsewhere : ∀ number, number ≠ segno → update st.sharedFile segno (some res) number =
    st.sharedFile number :=
    fun number apart => update_of_ne apart ..
  apply inv.move proc (.flushDone after idx) (by rfl)
  · refine { good with sharedCarries := ?_ }
    intro number which
    have away : number ≠ segno := by
      rintro rfl
      rcases which with absent | direct
      · exact present absent
      · rw [permitted] at direct
        cases direct
    change ∀ pos, _ → Carries initial _ number (opened (update st.sharedFile segno _ number)) pos
    rw [elsewhere number away]
    exact good.sharedCarries number which
  · intro _ apart
    refine ⟨UndisturbedSlot.of_same rfl rfl, ?_⟩
    intro number _ found _
    refine ⟨fun _ => rfl, ?_, ?_⟩
    · intro absent
      have away : number ≠ segno := by
        rintro rfl
        exact present absent
      exact ⟨absent, elsewhere number away⟩
    · intro holds
      have away : number ≠ segno := by
        rintro rfl
        rw [mapped] at found
        cases found
        rw [writer] at holds
        exact apart (Option.some.inj holds).symm
      exact ⟨elsewhere number away, fun _ => rfl⟩
  · exact flushing

theorem flushAll_keeps (inv : Inv cfg initial st) {round : Round} :
    Inv cfg initial (flushAll cfg st proc round) := by
  unfold flushAll
  dsimp only
  split
  · split
    · exact inv.setPc proc _ trivial
    split
    · exact inv.setPc proc _ trivial
    split
    · exact inv.setPc proc _ trivial
    · apply polarLocalCacheFlush_keeps inv
      rfl
  · split
    · exact inv.setPc proc _ trivial
    · exact inv.setPc proc _ trivial

end PolarDB.LocalCache.Cache
