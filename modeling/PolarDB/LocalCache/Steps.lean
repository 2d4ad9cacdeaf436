import PolarDB.LocalCache.Sound

/-!
# Every step keeps the slots, the files and the processes in agreement

Each kind of change, to a slot, to the table, to a local or a shared file, keeps the
agreement under its own conditions; the steps are put together from these.
-/

namespace PolarDB.LocalCache.Cache

open Function List Lib.SparseFile

variable {Byte : Type} [Zero Byte] {cfg : Config} {initial : Nat → Option (File Byte)}
  {st next : State Byte}
  {proc other idx : Nat}

/-- One slot is replaced, and the table follows; the files stay. -/
structure Replaced (st next : State Byte) (idx : Nat) (seg : IoSegment) : Prop where
  slots : next.slots = update st.slots idx seg
  hash : ∀ number slot, next.hash number = some slot ↔
    slot ≠ idx ∧ st.hash number = some slot ∨ slot = idx ∧ seg.occupied = true ∧ number = seg.segno
  localFile : next.localFile = st.localFile
  sharedFile : next.sharedFile = st.sharedFile
  written : next.written = st.written

variable {seg : IoSegment} {after : After Byte}

theorem Good.replace (good : Good cfg initial st) (replaced : Replaced st next idx seg)
    (bound : idx < cfg.maxSegments)
    (free : ∀ slot ∈ next.free, slot ≠ idx ∧ slot ∈ st.free ∨ slot = idx ∧ seg.occupied = false)
    (nodup : next.free.Nodup)
    (vacant : seg.occupied = false → seg.dirty = false ∧ seg.writer = none ∧ seg.readers = [])
    (stored : seg.dirty = true → seg.writer = none → cfg.localWrite = true ∧
      st.localFile seg.segno ≠ none) : Good cfg initial next := by
  have here : next.slots idx = seg := by rw [replaced.slots, update_self]
  have elsewhere : ∀ slot, slot ≠ idx → next.slots slot = st.slots slot := by
    intro slot apart
    rw [replaced.slots, update_of_ne apart]
  constructor
  case occupied =>
    intro slot used
    by_cases same : slot = idx
    · subst same
      rw [here] at used ⊢
      exact ⟨(replaced.hash _ slot).mpr (.inr ⟨rfl, used, rfl⟩), bound⟩
    · rw [elsewhere slot same] at used ⊢
      have mapped := good.occupied slot used
      exact ⟨(replaced.hash _ slot).mpr (.inl ⟨same, mapped.1⟩), mapped.2⟩
  case hashed =>
    intro number slot found
    rcases (replaced.hash number slot).mp found with ⟨apart, known⟩ | ⟨rfl, used, rfl⟩
    · rw [elsewhere slot apart]
      exact good.hashed number slot known
    · rw [here]
      exact ⟨used, rfl⟩
  case free =>
    intro slot listed
    rcases free slot listed with ⟨apart, known⟩ | ⟨rfl, unused⟩
    · rw [elsewhere slot apart]
      exact good.free slot known
    · rw [here]
      exact ⟨unused, bound⟩
  case nodup => exact nodup
  case vacant =>
    rw [replaced.slots]
    exact (forall_update_iff st.slots fun _ seg => seg.occupied = false → seg.dirty = false ∧
      seg.writer = none ∧ seg.readers = []).mpr ⟨vacant, fun slot _ => good.vacant slot⟩
  case stored =>
    intro number slot found
    rw [replaced.localFile]
    rcases (replaced.hash number slot).mp found with ⟨apart, known⟩ | ⟨rfl, used, rfl⟩
    · rw [elsewhere slot apart]
      exact good.stored number slot known
    · rw [here]
      exact stored
  case localCarries =>
    rw [replaced.written, replaced.localFile]
    exact good.localCarries
  case sharedCarries =>
    rw [replaced.written, replaced.localFile, replaced.sharedFile]
    exact good.sharedCarries

theorem Good.setSlot (good : Good cfg initial st)
    (taken : (st.slots idx).occupied = true) (occupied : seg.occupied = true)
    (segno : seg.segno = (st.slots idx).segno) (stored : seg.dirty = true → seg.writer = none →
      cfg.localWrite = true ∧ st.localFile (st.slots idx).segno ≠ none) :
      Good cfg initial (st.setSlot idx seg) := by
  have mapped := good.occupied idx taken
  have replaced : Replaced st (st.setSlot idx seg) idx seg := by
    refine ⟨rfl, ?_, rfl, rfl, rfl⟩
    intro number slot
    rw [segno]
    by_cases same : slot = idx
    · subst same
      exact ⟨fun found => .inr ⟨rfl, occupied, (good.hashed number slot found).2.symm⟩,
        fun known => known.elim (fun apart => absurd rfl apart.1) fun own => own.2.2 ▸ mapped.1⟩
    · exact ⟨fun found => .inl ⟨same, found⟩,
        fun known => known.elim And.right fun own => absurd own.1 same⟩
  apply good.replace replaced mapped.2
  · intro slot listed
    have unused := good.free slot listed
    have apart : slot ≠ idx := by
      rintro rfl
      rw [taken] at unused
      cases unused.1
    exact .inl ⟨apart, listed⟩
  · exact good.nodup
  · intro unused
    rw [occupied] at unused
    cases unused
  · rw [segno]
    exact stored

theorem UndisturbedSlot.setSlot (slots : next.slots = update st.slots idx seg)
    (hash : next.hash = st.hash) (readers : other ∈ (st.slots idx).readers → other ∈ seg.readers)
    (writer : (st.slots idx).writer = some other → SameSlot (st.slots idx) seg) :
    UndisturbedSlot other st next := by
  intro _ _ found _
  rw [slots, hash]
  rw [update_apply]
  split_ifs with same
  · subst same
    exact ⟨found, readers, writer⟩
  · exact ⟨found, id, fun _ => ⟨rfl, rfl, id⟩⟩

theorem Inv.moveSlot (inv : Inv cfg initial st) (proc : Nat) (pc : Pc Byte)
    (good : Good cfg initial (st.setSlot idx seg))
    (readers : ∀ other, other ≠ proc → other ∈ (st.slots idx).readers → other ∈ seg.readers)
    (writer : ∀ other, other ≠ proc → (st.slots idx).writer = some other →
      SameSlot (st.slots idx) seg) (sound : pc.Sound cfg initial (st.setSlot idx seg) proc) :
    Inv cfg initial ((st.setSlot idx seg).setPc proc pc) := by
  apply inv.move proc pc _ good _ sound
  · rfl
  · intro other apart
    exact ⟨UndisturbedSlot.setSlot rfl rfl (readers other apart) (writer other apart),
      UndisturbedFiles.of_same rfl rfl rfl⟩

theorem State.setSlot_slots (st : State Byte) (idx : Nat) (seg : IoSegment) :
    (st.setSlot idx seg).slots idx = seg :=
  update_self ..

/-- Only the readers differ. -/
theorem Good.setSlot_io (good : Good cfg initial st) {segno : Nat}
    (found : st.hash segno = some idx) (readers : List Nat) (readable : Bool) :
    Good cfg initial (st.setSlot idx { st.slots idx with
        readers := readers, readable := readable }) := by
  have taken := good.hashed segno idx found
  refine good.setSlot taken.1 taken.1 rfl ?_
  rw [taken.2]
  exact good.stored segno idx found

theorem takeReadReference_keeps (inv : Inv cfg initial st) {task : ReadTask}
    (found : st.hash task.segno = some idx) (inside : task.offset + task.size ≤ cfg.segmentSize) :
    Inv cfg initial (takeReadReference st proc task idx) := by
  unfold takeReadReference
  dsimp only
  split
  · exact inv
  next ready =>
  have noWriter : (st.slots idx).writer = none := by
    by_contra busy
    exact ready (.inl (Option.isSome_iff_ne_none.mpr busy))
  apply inv.moveSlot
  · exact inv.good.setSlot_io found _ _
  · intro other _ holds
    exact mem_cons_of_mem _ holds
  · intro _ _ holds
    rw [noWriter] at holds
    cases holds
  · refine ⟨found, ?_, inside⟩
    rw [State.setSlot_slots]
    exact mem_cons_self

theorem readDone_keeps (inv : Inv cfg initial st) {task : ReadTask} {res : Option (List Byte)}
    (reading : Reading cfg st proc task idx) : Inv cfg initial (readDone st proc idx res) := by
  apply inv.moveSlot
  · exact inv.good.setSlot_io reading.1 _ _
  · intro other apart holds
    exact (mem_erase_of_ne apart).mpr holds
  · intro _ _ _
    refine ⟨rfl, rfl, ?_⟩
    intro empty
    rw [empty]
    rfl
  · trivial

variable {task : WriteTask Byte} {call : Call Byte}

theorem beginWrite_keeps (inv : Inv cfg initial st)
    (found : st.hash task.segno = some idx)
    (inside : task.offset + task.data.length ≤ cfg.segmentSize) :
    Inv cfg initial (beginWrite st proc task idx) := by
  have taken := inv.good.hashed task.segno idx found
  unfold beginWrite
  dsimp only
  split
  · exact inv
  next ready =>
  have quiet : (st.slots idx).writer = none ∧ (st.slots idx).readers = [] := by
    unfold IoSegment.ioInProgress at ready
    simp only [Bool.or_eq_true, Bool.not_eq_true', not_or, Option.isSome_iff_ne_none,
      ne_eq, not_not, Bool.not_eq_false, List.isEmpty_iff] at ready
    exact ready
  apply inv.moveSlot
  · refine inv.good.setSlot taken.1 taken.1 rfl ?_
    intro _ idle
    exact absurd idle (by simp [IoSegment.beginWrite])
  · intro _ _ holds
    rw [quiet.2] at holds
    cases holds
  · intro _ _ holds
    rw [quiet.1] at holds
    cases holds
  · change Writing cfg _ proc _ idx
    unfold Writing
    rw [State.setSlot_slots]
    exact ⟨found, rfl, quiet.2, inside⟩

/-- Where a process goes when its flush has succeeded. -/
def After.resume : After Byte → Pc Byte
  | .evict call => .evicting call
  | .all round =>
    .flushAll { round with
        needFlush := update round.needFlush round.next false, next := round.next + 1 }

theorem flushReturn_eq (st : State Byte) (proc : Nat) (after : After Byte) :
    flushReturn st proc after = st.setPc proc after.resume := by
  cases after <;> rfl

theorem After.Inside.resume (inside : after.Inside cfg idx) :
    after.resume.Sound cfg initial st proc := by
  cases after with
  | evict => exact inside
  | all => trivial

variable (inv : Inv cfg initial st)
include inv

theorem Inv.clean (proc : Nat) (pc : Pc Byte) (taken : (st.slots idx).occupied = true)
    (alone : (st.slots idx).writer = none ∨ (st.slots idx).writer = some proc)
    (sound : pc.Sound cfg initial (clean st idx) proc) :
    Inv cfg initial ((clean st idx).setPc proc pc) := by
  apply inv.moveSlot proc pc _ _ _ sound
  · exact inv.good.setSlot taken taken rfl nofun
  · exact fun _ _ holds => holds
  · intro _ apart holds
    rw [holds] at alone
    rcases alone with never | same
    · cases never
    · exact absurd (Option.some.inj same) apart

theorem writeDone_keeps (sound : (Pc.writeDone task idx).Sound cfg initial st proc) :
    Inv cfg initial (writeDone cfg st proc idx) := by
  have ⟨writing, present⟩ := sound
  have taken := inv.good.hashed task.segno idx writing.1
  unfold writeDone
  split_ifs with permitted
  · apply inv.moveSlot
    · refine inv.good.setSlot taken.1 taken.1 rfl ?_
      intro _ _
      rw [taken.2]
      exact ⟨permitted, present permitted⟩
    · intro other _ holds
      exact holds
    · intro _ apart holds
      rw [writing.2.1] at holds
      exact absurd (Option.some.inj holds).symm apart
    · trivial
  · exact inv.clean proc .idle taken.1 (.inr writing.2.1) trivial

theorem flushDone_keeps (flushing : Flushing cfg st proc after idx) :
    Inv cfg initial (flushReturn (clean st idx) proc after) := by
  have taken := inv.good.hashed _ idx flushing.1
  rw [flushReturn_eq]
  exact inv.clean proc _ taken.1 (.inr flushing.2.1) flushing.2.2.2.2.resume

theorem polarLocalCacheFlush_keeps
    (inside : after.Inside cfg idx) :
    Inv cfg initial (polarLocalCacheFlush cfg st proc after idx) := by
  unfold polarLocalCacheFlush
  by_cases nothing : (st.slots idx).occupied = false ∨ (st.slots idx).dirty = false
  · rw [if_pos nothing, flushReturn_eq]
    exact inv.setPc proc _ inside.resume
  rw [if_neg nothing]
  simp only [not_or, Bool.not_eq_false] at nothing
  have mapped := (inv.good.occupied idx nothing.1).1
  by_cases busy : (st.slots idx).writer.isSome = true
  · rw [if_pos busy]
    exact inv
  have idle : (st.slots idx).writer = none := by simpa using busy
  have stored := inv.good.stored _ idx mapped nothing.2 idle
  split_ifs with permitted
  · apply inv.moveSlot
    · exact inv.good.setSlot nothing.1 nothing.1 rfl fun _ _ => stored
    · intro other _ holds
      exact holds
    · intro _ _ holds
      rw [idle] at holds
      cases holds
    · change Flushing cfg _ proc after idx
      unfold Flushing
      rw [State.setSlot_slots]
      exact ⟨mapped, rfl, stored.1, stored.2, inside⟩
  · rw [flushReturn_eq]
    exact inv.clean proc _ nothing.1 (.inl idle) inside.resume

theorem createEntry_keeps {segno : Nat} {rest : List Nat}
    (missing : st.hash segno = none) (free : st.free = idx :: rest) :
    Inv cfg initial (createEntry st segno idx rest) := by
  have good := inv.good
  have unused := good.free idx (by rw [free]; exact mem_cons_self)
  have distinct := good.nodup
  rw [free, nodup_cons] at distinct
  -- No segment is mapped to the slot yet.
  have unmapped : ∀ number slot, st.hash number = some slot → slot ≠ idx := by
    rintro number slot found rfl
    have used := (good.hashed number slot found).1
    rw [unused.1] at used
    cases used
  have other : ∀ number slot, st.hash number = some slot → number ≠ segno := by
    rintro number slot found rfl
    rw [missing] at found
    cases found
  apply inv.change
  · rfl
  · have replaced : Replaced st (createEntry st segno idx rest) idx
        { segno, occupied := true, dirty := false, setMinOffset := false, readable := false
          writer := none, readers := [], minWriteOffset := 0 } := by
      refine ⟨rfl, ?_, rfl, rfl, rfl⟩
      intro number slot
      change update st.hash segno (some idx) number = some slot ↔ _
      rw [update_apply]
      split_ifs with same
      · subst same
        rw [missing]
        exact ⟨fun found => .inr ⟨(Option.some.inj found).symm, rfl, rfl⟩,
          fun known => known.elim (fun apart => nomatch apart.2) fun own =>
            congrArg some own.1.symm⟩
      · exact ⟨fun found => .inl ⟨unmapped number slot found, found⟩,
          fun known => known.elim And.right fun own => absurd own.2.2 same⟩
    apply good.replace replaced
    · exact unused.2
    · intro slot remaining
      exact .inl ⟨fun same => distinct.1 (same ▸ remaining),
        by rw [free]; exact mem_cons_of_mem _ remaining⟩
    · exact distinct.2
    · exact nofun
    · exact nofun
  · intro _
    refine ⟨?_, UndisturbedFiles.of_same rfl rfl rfl⟩
    intro number slot found _
    unfold createEntry State.setSlot
    dsimp only
    rw [update_of_ne (other number slot found), update_of_ne (unmapped number slot found)]
    exact ⟨found, id, fun _ => ⟨rfl, rfl, id⟩⟩

theorem evictSlot_keeps (idx : Nat) : Inv cfg initial (evictSlot st idx) := by
  have good := inv.good
  unfold evictSlot
  dsimp only
  split
  · next idle =>
    have ⟨quiet, used, _⟩ := idle
    have mapped := good.occupied idx used
    have nobody : (st.slots idx).writer = none ∧ (st.slots idx).readers = [] := by
      unfold IoSegment.ioInProgress at quiet
      simpa using quiet
    have apart : ∀ number slot, st.hash number = some slot → slot ≠ idx →
      number ≠ (st.slots idx).segno := by
      rintro number slot found distinct rfl
      rw [mapped.1] at found
      exact distinct (Option.some.inj found).symm
    apply inv.change
    · rfl
    · have replaced : Replaced st { st.setSlot idx (st.slots idx).clear with
            hash := update st.hash (st.slots idx).segno none
            free := idx :: st.free } idx (st.slots idx).clear := by
        refine ⟨rfl, ?_, rfl, rfl, rfl⟩
        intro number slot
        change update st.hash (st.slots idx).segno none number = some slot ↔ _
        rw [update_apply]
        split_ifs with same
        · subst same
          rw [mapped.1]
          exact ⟨nofun,
            fun known => known.elim (fun other => absurd (Option.some.inj other.2).symm other.1)
            fun own => nomatch own.2.1⟩
        · refine ⟨fun found => .inl ⟨?_, found⟩,
            fun known => known.elim And.right fun own => nomatch own.2.1⟩
          rintro rfl
          exact same (good.hashed number slot found).2.symm
      apply good.replace replaced
      · exact mapped.2
      · intro slot listed
        by_cases same : slot = idx
        · exact .inr ⟨same, rfl⟩
        · exact .inl ⟨same, (mem_cons.mp listed).resolve_left same⟩
      · refine nodup_cons.mpr ⟨?_, good.nodup⟩
        intro listed
        have unused := (good.free idx listed).1
        rw [used] at unused
        cases unused
      · exact fun _ => ⟨rfl, rfl, rfl⟩
      · exact nofun
    · intro _
      refine ⟨?_, UndisturbedFiles.of_same rfl rfl rfl⟩
      intro number slot found held
      have distinct : slot ≠ idx := by
        rintro rfl
        rw [nobody.1, nobody.2] at held
        simp at held
      unfold State.setSlot
      dsimp only
      rw [update_of_ne (apart number slot found distinct), update_of_ne distinct]
      exact ⟨found, id, fun _ => ⟨rfl, rfl, id⟩⟩
  · exact inv

theorem evictClean_keeps : Inv cfg initial (evictClean cfg st) := by
  apply List.foldlRecOn
  · exact inv
  · intro _ kept idx _
    exact evictSlot_keeps kept idx

theorem evict_keeps (inside : call.Inside cfg) : Inv cfg initial (evict cfg st proc call) := by
  unfold evict
  dsimp only
  split
  · exact inv.setPc proc _ inside
  split
  · exact (evictClean_keeps inv).setPc proc _ inside
  split
  · exact inv
  · exact polarLocalCacheFlush_keeps inv inside

theorem enter_keeps (inside : call.Inside cfg) : Inv cfg initial (enter st proc call) := by
  unfold enter
  split
  · next missing =>
    split
    · exact inv.setPc proc _ inside
    · next free => exact createEntry_keeps inv missing free
  · next found =>
    cases call with
    | read task => exact takeReadReference_keeps inv found inside
    | write => exact beginWrite_keeps inv found inside

end PolarDB.LocalCache.Cache
