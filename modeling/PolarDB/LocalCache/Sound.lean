import PolarDB.LocalCache.Cache

/-!
# What the table of slots, the files and the processes agree on

The local file of a segment, where there is one, holds the last value of every byte,
and shared storage holds it where there is none. A process that holds a slot relies on
its slot and its segment only, so that the steps of the others do not disturb it.
-/

namespace PolarDB.LocalCache.Cache

open Lib.SparseFile

variable {Byte : Type} [Zero Byte]

/-- The file has the last value of the byte. -/
def Carries (initial : Nat → Option (File Byte)) (written : List (WriteTask Byte)) (segno : Nat)
    (file : File Byte) (pos : Nat) : Prop :=
  file.byteAt pos = lastValue initial written segno pos

variable {initial : Nat → Option (File Byte)} {written : List (WriteTask Byte)}
  {task : WriteTask Byte}
  {segno pos : Nat} {file : File Byte}

theorem lastValue_cons_other (apart : ¬ task.Covers segno pos) :
    lastValue initial (task :: written) segno pos = lastValue initial written segno pos :=
  if_neg apart

theorem lastValue_cons_covered (covers : task.Covers segno pos) :
    lastValue initial (task :: written) segno pos = task.data.getD (pos - task.offset) 0 :=
  if_pos covers

/-- A write to a file that carries the byte makes it carry the byte as written. -/
theorem Carries.write (carries : Carries initial written task.segno file pos) :
    Carries initial (task :: written) task.segno (file.write task.offset task.data) pos := by
  by_cases covers : task.Covers task.segno pos
  · unfold Carries
    rw [byteAt_write_inside file covers.2.1 covers.2.2, lastValue_cons_covered covers]
  · have outside : pos < task.offset ∨ task.offset + task.data.length ≤ pos := by
      by_contra within
      exact covers ⟨rfl, by omega, by omega⟩
    unfold Carries
    rw [byteAt_write_outside file outside, lastValue_cons_other covers]
    exact carries

/-- A read of a segment from shared storage, kept while its copy is written: the bytes are the last
values and nothing of the shared file is missing should there be no local file. -/
def Copied (cfg : Config) (initial : Nat → Option (File Byte)) (st : State Byte) (segno : Nat)
    (data : List Byte) : Prop :=
  data.length ≤ cfg.segmentSize ∧
    (∀ idx, idx < data.length → data.getD idx 0 = lastValue initial st.written segno idx) ∧
    (st.localFile segno = none → min (opened (st.sharedFile segno)).size cfg.segmentSize ≤
      data.length)

structure Good (cfg : Config) (initial : Nat → Option (File Byte)) (st : State Byte) : Prop where
  occupied : ∀ idx, (st.slots idx).occupied = true → st.hash (st.slots idx).segno = some idx ∧
    idx < cfg.maxSegments
  hashed : ∀ segno idx, st.hash segno = some idx → (st.slots idx).occupied = true ∧
    (st.slots idx).segno = segno
  free : ∀ idx ∈ st.free, (st.slots idx).occupied = false ∧ idx < cfg.maxSegments
  nodup : st.free.Nodup
  vacant : ∀ idx, (st.slots idx).occupied = false →
    (st.slots idx).dirty = false ∧ (st.slots idx).writer = none ∧ (st.slots idx).readers = []
  /-- The flush of a dirty segment finds its local file. -/
  stored : ∀ segno idx, st.hash segno = some idx → (st.slots idx).dirty = true →
    (st.slots idx).writer = none → cfg.localWrite = true ∧ st.localFile segno ≠ none
  localCarries : cfg.localWrite = true → ∀ segno file, st.localFile segno = some file →
    ∀ pos, pos < cfg.segmentSize → Carries initial st.written segno file pos
  sharedCarries : ∀ segno, st.localFile segno = none ∨ cfg.localWrite = false →
    ∀ pos, pos < cfg.segmentSize →
      Carries initial st.written segno (opened (st.sharedFile segno)) pos

def Call.Inside (cfg : Config) : Call Byte → Prop
  | .read task => task.offset + task.size ≤ cfg.segmentSize
  | .write task => task.offset + task.data.length ≤ cfg.segmentSize

def After.Inside (cfg : Config) (idx : Nat) : After Byte → Prop
  | .evict call => call.Inside cfg
  | .all round => round.next = idx

def Reading (cfg : Config) (st : State Byte) (proc : Nat) (task : ReadTask) (idx : Nat) : Prop :=
  st.hash task.segno = some idx ∧ proc ∈ (st.slots idx).readers ∧ task.offset + task.size ≤
  cfg.segmentSize

def Writing (cfg : Config) (st : State Byte) (proc : Nat) (task : WriteTask Byte)
    (idx : Nat) : Prop :=
  st.hash task.segno = some idx ∧ (st.slots idx).writer = some proc ∧ (st.slots idx).readers = [] ∧
    task.offset + task.data.length ≤ cfg.segmentSize

def Flushing (cfg : Config) (st : State Byte) (proc : Nat) (after : After Byte)
    (idx : Nat) : Prop :=
  st.hash (st.slots idx).segno = some idx ∧ (st.slots idx).writer = some proc ∧
    cfg.localWrite = true ∧ st.localFile (st.slots idx).segno ≠ none ∧ after.Inside cfg idx

/-- The answer of a read has the last values. -/
def Answers (initial : Nat → Option (File Byte)) (st : State Byte) (task : ReadTask)
    (res : Option (List Byte)) : Prop :=
  ∀ data, res = some data → data.length = task.size ∧
    ∀ idx, idx < task.size → data.getD idx 0 = lastValue initial st.written task.segno
    (task.offset + idx)

/-- What a process may rely on at its place. -/
def Pc.Sound (cfg : Config) (initial : Nat → Option (File Byte)) (st : State Byte) (proc : Nat) :
    Pc Byte → Prop
  | .entering call => call.Inside cfg
  | .evicting call => call.Inside cfg
  | .readLocal task idx => Reading cfg st proc task idx
  | .readShared task idx => Reading cfg st proc task idx
  | .readCopy task idx data =>
    Reading cfg st proc task idx ∧ (cfg.localWrite = true → Copied cfg initial st task.segno data)
  | .readDone task idx res =>
    Reading cfg st proc task idx ∧ (cfg.localWrite = true → Answers initial st task res)
  | .writeStat task idx => Writing cfg st proc task idx
  | .writeCopy task idx data =>
    Writing cfg st proc task idx ∧ cfg.localWrite = true ∧ st.localFile task.segno = none ∧
      Copied cfg initial st task.segno data
  | .writeFile task idx =>
    Writing cfg st proc task idx ∧
      (cfg.localWrite = true → st.localFile task.segno = none → st.sharedFile task.segno = none)
  | .writeDone task idx =>
    Writing cfg st proc task idx ∧ (cfg.localWrite = true → st.localFile task.segno ≠ none)
  | .flushRead after idx => Flushing cfg st proc after idx
  | .flushWrite after idx _ => Flushing cfg st proc after idx
  | .flushDone after idx => Flushing cfg st proc after idx
  | _ => True

structure Inv (cfg : Config) (initial : Nat → Option (File Byte)) (st : State Byte) : Prop where
  good : Good cfg initial st
  procs : ∀ proc, (st.procs proc).Sound cfg initial st proc

/-- A slot whose writer goes on: others may only let go of it. -/
def SameSlot (before after : IoSegment) : Prop :=
  after.segno = before.segno ∧ after.writer = before.writer ∧
  (before.readers = [] → after.readers = [])

/-- What a process that holds a slot sees of a step of another. -/
def UndisturbedSlot (other : Nat) (st next : State Byte) : Prop :=
  ∀ segno idx, st.hash segno = some idx →
  (other ∈ (st.slots idx).readers ∨ (st.slots idx).writer = some other) →
    next.hash segno = some idx ∧
      (other ∈ (st.slots idx).readers → other ∈ (next.slots idx).readers) ∧
      ((st.slots idx).writer = some other → SameSlot (st.slots idx) (next.slots idx))

/-- What it sees of the files: the local file may be copied to while it reads or flushes, and the
shared file may be flushed while it reads and has a local file. -/
def UndisturbedFiles (initial : Nat → Option (File Byte)) (other : Nat) (st next : State Byte) :
    Prop :=
  ∀ segno idx, st.hash segno = some idx →
    (other ∈ (st.slots idx).readers ∨ (st.slots idx).writer = some other) →
    (∀ pos, lastValue initial next.written segno pos = lastValue initial st.written segno pos) ∧
      (next.localFile segno = none → st.localFile segno = none ∧
        next.sharedFile segno = st.sharedFile segno) ∧
      ((st.slots idx).writer = some other → next.sharedFile segno = st.sharedFile segno ∧
        ((st.slots idx).readers = [] → next.localFile segno = st.localFile segno))

def Undisturbed (initial : Nat → Option (File Byte)) (other : Nat) (st next : State Byte) : Prop :=
  UndisturbedSlot other st next ∧ UndisturbedFiles initial other st next

variable {cfg : Config} {st next : State Byte} {proc other idx : Nat}

theorem UndisturbedSlot.of_same (slots : next.slots = st.slots) (hash : next.hash = st.hash) :
    UndisturbedSlot other st next := by
  intro _ _ found _
  rw [slots, hash]
  exact ⟨found, id, fun _ => ⟨rfl, rfl, id⟩⟩

theorem UndisturbedFiles.of_same (written : next.written = st.written)
    (localFile : next.localFile = st.localFile) (sharedFile : next.sharedFile = st.sharedFile) :
    UndisturbedFiles initial other st next := by
  intro _ _ _ _
  rw [written, localFile, sharedFile]
  exact ⟨fun _ => rfl, fun absent => ⟨absent, rfl⟩, fun _ => ⟨rfl, fun _ => rfl⟩⟩

theorem Reading.undisturbed {task : ReadTask} (reading : Reading cfg st other task idx)
    (frame : Undisturbed initial other st next) : Reading cfg next other task idx := by
  have kept := frame.1 task.segno idx reading.1 (.inl reading.2.1)
  exact ⟨kept.1, kept.2.1 reading.2.1, reading.2.2⟩

section
variable (writing : Writing cfg st other task idx) (frame : Undisturbed initial other st next)
include writing frame

theorem Writing.undisturbed : Writing cfg next other task idx := by
  have kept := frame.1 task.segno idx writing.1 (.inr writing.2.1)
  have same := kept.2.2 writing.2.1
  unfold Writing
  rw [same.2.1]
  exact ⟨kept.1, writing.2.1, same.2.2 writing.2.2.1, writing.2.2.2⟩

theorem Writing.files : next.sharedFile task.segno = st.sharedFile task.segno ∧
      next.localFile task.segno = st.localFile task.segno := by
  have kept := (frame.2 task.segno idx writing.1 (.inr writing.2.1)).2.2 writing.2.1
  exact ⟨kept.1, kept.2 writing.2.2.1⟩

end

variable {after : After Byte} {data : List Byte}

section
variable (flushing : Flushing cfg st other after idx) (frame : Undisturbed initial other st next)
include flushing frame

theorem Flushing.slot : SameSlot (st.slots idx) (next.slots idx) :=
  (frame.1 _ idx flushing.1 (.inr flushing.2.1)).2.2 flushing.2.1

theorem Flushing.undisturbed : Flushing cfg next other after idx := by
  have kept := frame.1 _ idx flushing.1 (.inr flushing.2.1)
  have files := frame.2 _ idx flushing.1 (.inr flushing.2.1)
  have same := flushing.slot frame
  unfold Flushing
  rw [same.1, same.2.1]
  exact ⟨kept.1, flushing.2.1, flushing.2.2.1, fun absent => flushing.2.2.2.1 (files.2.1 absent).1,
    flushing.2.2.2.2⟩

end

theorem Copied.undisturbed (copied : Copied cfg initial st segno data)
    (files :
      (∀ pos, lastValue initial next.written segno pos = lastValue initial st.written segno pos) ∧
      (next.localFile segno = none → st.localFile segno = none ∧
        next.sharedFile segno = st.sharedFile segno)) : Copied cfg initial next segno data := by
  constructor
  · exact copied.1
  constructor
  · intro idx within
    rw [files.1]
    exact copied.2.1 idx within
  · intro absent
    rw [(files.2 absent).2]
    exact copied.2.2 (files.2 absent).1

theorem Pc.Sound.undisturbed {pc : Pc Byte} (sound : pc.Sound cfg initial st other)
    (frame : Undisturbed initial other st next) : pc.Sound cfg initial next other := by
  cases pc with
  | readLocal | readShared => exact Reading.undisturbed sound frame
  | readCopy task idx data =>
    have files := frame.2 _ idx sound.1.1 (.inl sound.1.2.1)
    exact ⟨sound.1.undisturbed frame, fun permitted => (sound.2 permitted).undisturbed
      ⟨files.1, files.2.1⟩⟩
  | readDone task idx =>
    have files := frame.2 _ idx sound.1.1 (.inl sound.1.2.1)
    constructor
    · exact sound.1.undisturbed frame
    intro permitted data found
    have answered := sound.2 permitted data found
    constructor
    · exact answered.1
    · intro idx within
      rw [files.1]
      exact answered.2 idx within
  | writeStat task idx => exact Writing.undisturbed sound frame
  | writeCopy task idx data =>
    have files := sound.1.files frame
    have views := frame.2 _ idx sound.1.1 (.inr sound.1.2.1)
    constructor
    · exact sound.1.undisturbed frame
    · rw [files.2]
      exact ⟨sound.2.1, sound.2.2.1, sound.2.2.2.undisturbed ⟨views.1, views.2.1⟩⟩
  | writeFile task idx =>
    have files := sound.1.files frame
    constructor
    · exact sound.1.undisturbed frame
    · rw [files.1, files.2]
      exact sound.2
  | writeDone _ idx =>
    have files := sound.1.files frame
    constructor
    · exact sound.1.undisturbed frame
    · rw [files.2]
      exact sound.2
  | flushRead | flushWrite | flushDone => exact Flushing.undisturbed sound frame
  | _ => exact sound

theorem Good.setPc (good : Good cfg initial st) (proc : Nat) (pc : Pc Byte) :
    Good cfg initial (st.setPc proc pc) :=
  { good with }

variable (inv : Inv cfg initial st)
include inv

/-- A process changes the state without disturbing the others, and goes on to a place that fits. -/
theorem Inv.move (proc : Nat) (pc : Pc Byte) (procs : next.procs = st.procs)
    (good : Good cfg initial next)
    (frame : ∀ other, other ≠ proc → Undisturbed initial other st next)
    (sound : pc.Sound cfg initial next proc) : Inv cfg initial (next.setPc proc pc) where
  good := good.setPc proc pc
  procs := by
    intro other
    by_cases here : other = proc
    · subst here
      have at_pc : (next.setPc other pc).procs other = pc := Function.update_self ..
      rw [at_pc]
      cases pc <;> exact sound
    · have elsewhere : (next.setPc proc pc).procs other = st.procs other := by
        rw [← procs]
        exact Function.update_of_ne here ..
      rw [elsewhere]
      exact (inv.procs other).undisturbed (frame other here)

theorem Inv.setPc (proc : Nat) (pc : Pc Byte)
    (sound : pc.Sound cfg initial st proc) : Inv cfg initial (st.setPc proc pc) :=
  inv.move proc pc rfl inv.good
    (fun _ _ => ⟨UndisturbedSlot.of_same rfl rfl, UndisturbedFiles.of_same rfl rfl rfl⟩) sound

theorem Inv.change (procs : next.procs = st.procs)
    (good : Good cfg initial next) (frame : ∀ other, Undisturbed initial other st next) :
    Inv cfg initial next where
  good := good
  procs := by
    intro other
    rw [procs]
    exact (inv.procs other).undisturbed (frame other)

end PolarDB.LocalCache.Cache
