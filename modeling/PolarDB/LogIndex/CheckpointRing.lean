import Mathlib.Data.List.Sort
import PolarDB.Lib.Circular
import PolarDB.Lib.Runs
import PolarDB.Lib.Snoc

/-!
# The ring of checkpoints

A standby keeps the checkpoints it cannot use yet in a ring of 1024 positions, of which
one stays free. `kept` says from the calls alone which checkpoints were accepted and are
neither overwritten nor popped; every ring reached holds exactly these, in this order.
-/

namespace PolarDB.LogIndex.CheckpointRing

open List Lib.Circular Lib.Runs Lib.Snoc

structure CheckPoint where
  recPtr : Nat
  endPtr : Nat
  redo : Nat
  deriving DecidableEq, Repr

/-- `InvalidXLogRecPtr` twice and a zeroed checkpoint. -/
def noCheckPoint : CheckPoint := ⟨0, 0, 0⟩

def polarCheckpointRingbufDefaultSize : Nat := 1024

/-- The three arrays are one; the counters of the statistics are left out. -/
structure Ringbuf where
  slots : Nat → CheckPoint
  head : Nat
  tail : Nat

def Ringbuf.isEmpty (ring : Ringbuf) : Bool := ring.head = ring.tail

def Ringbuf.isFull (ring : Ringbuf) : Bool :=
  ring.head = (ring.tail + 1) % polarCheckpointRingbufDefaultSize

def Ringbuf.prev (ring : Ringbuf) : Nat :=
  if 0 < ring.tail then ring.tail - 1 else polarCheckpointRingbufDefaultSize - 1

def tooLow (given last : CheckPoint) : Bool := given.recPtr ≤ last.recPtr || given.redo < last.redo

def polarCheckpointRingbufPush (ring : Ringbuf) (given : CheckPoint) : Ringbuf :=
  if !ring.isEmpty && tooLow given (ring.slots ring.prev) then ring
  else if ring.isFull then { ring with slots := Function.update ring.slots ring.prev given }
  else
    { ring with
      slots := Function.update ring.slots ring.tail given
      tail := (ring.tail + 1) % polarCheckpointRingbufDefaultSize }

/-- Every round moves the head, so as many rounds as there are positions are enough. -/
def polarCheckpointRingbufPop (bgReplayedLsn : Nat) : Nat → Ringbuf → CheckPoint →
    CheckPoint × Ringbuf
  | 0, ring, found => (found, ring)
  | fuel + 1, ring, found =>
    if ring.isEmpty || bgReplayedLsn < (ring.slots ring.head).redo then (found, ring)
    else polarCheckpointRingbufPop bgReplayedLsn fuel
      { ring with head := (ring.head + 1) % polarCheckpointRingbufDefaultSize }
      (ring.slots ring.head)

/-- A call that came to the ring. -/
structure Call where
  given : CheckPoint
  bgReplayedLsn : Nat
  result : CheckPoint

structure State where
  ring : Ringbuf
  bgReplayedLsn : Nat
  /-- Newest first. -/
  calls : List Call

def emptyRing : State := ⟨⟨fun _ => noCheckPoint, 0, 0⟩, 0, []⟩

/-- `polar_checkpoint_ringbuf_check`; an invalid argument is given back as it is. -/
def polarCheckpointRingbufCheck (st : State) (given : CheckPoint) : State :=
  if given.recPtr = 0 ∨ given.endPtr = 0 then st
  else
    let (res, ring) := polarCheckpointRingbufPop st.bgReplayedLsn polarCheckpointRingbufDefaultSize
      (polarCheckpointRingbufPush st.ring given) noCheckPoint
    { st with ring := ring, calls := ⟨given, st.bgReplayedLsn, res⟩ :: st.calls }

/-- A checkpoint without a redo LSN fails the assertion of the check and has no step. -/
inductive Step : Option CheckPoint → State → State → Prop
  | check {st : State} (given : CheckPoint) (redo : given.redo ≠ 0) :
      Step (some given) st (polarCheckpointRingbufCheck st given)
  | replay {st : State} (lsn : Nat) (grows : st.bgReplayedLsn ≤ lsn) :
      Step none st { st with bgReplayedLsn := lsn }

def UpTo (early late : CheckPoint) : Prop := early.recPtr ≤ late.recPtr ∧ early.redo ≤ late.redo

def Below (early late : CheckPoint) : Prop := early.recPtr < late.recPtr ∧ early.redo ≤ late.redo

/-- Checkpoints are given in the order of the WAL. -/
def InOrder : Option CheckPoint → State → Prop
  | none, _ => True
  | some given, st => ∀ old ∈ st.calls, UpTo old.given given

/-- A checkpoint is accepted when it lies above the newest one kept or none is kept; where
1023 are kept it overwrites the newest. -/
def offered (old : List CheckPoint) (given : CheckPoint) : List CheckPoint :=
  if old.getLast?.any (tooLow given) then old
  else (if old.length + 1 = polarCheckpointRingbufDefaultSize then old.dropLast else old) ++ [given]

/-- The checkpoints that were accepted and neither overwritten nor popped. -/
def kept : List Call → List CheckPoint
  | [] => []
  | call :: earlier => (offered (kept earlier) call.given).filter (call.bgReplayedLsn < ·.redo)

/-- The positions from the head up to the tail have these checkpoints. -/
structure Holds (ring : Ringbuf) (entries : List CheckPoint) : Prop where
  head : ring.head < polarCheckpointRingbufDefaultSize
  room : entries.length < polarCheckpointRingbufDefaultSize
  tail : ring.tail = (ring.head + entries.length) % polarCheckpointRingbufDefaultSize
  slots : load polarCheckpointRingbufDefaultSize ring.slots ring.head entries.length = entries

/-- What a call answers, from the calls before it. -/
def Call.Exact (call : Call) (earlier : List Call) : Prop :=
  (call.result = noCheckPoint ∧
      ∀ entry ∈ offered (kept earlier) call.given, call.bgReplayedLsn < entry.redo) ∨
    call.result ∈ offered (kept earlier) call.given ∧
      call.result ∈ (call :: earlier).map Call.given ∧ call.result.redo ≤ call.bgReplayedLsn ∧
      ∀ entry ∈ offered (kept earlier) call.given,
        entry.redo ≤ call.bgReplayedLsn → UpTo entry call.result

variable {ring : Ringbuf} {entries : List CheckPoint} {st next : State} {event : Option CheckPoint}

theorem load_snoc {size : Nat} (slots : Nat → CheckPoint) (start count : Nat) :
    load size slots start (count + 1) = load size slots start count ++
    [slots ((start + count) % size)] := by
  rw [load_add]
  rfl

/-- The position after the first `count` ones is written. -/
theorem load_written {size count : Nat} (slots : Nat → CheckPoint) (start : Nat)
    (given : CheckPoint) (room : count < size) :
      load size (Function.update slots ((start + count) % size) given) start (count + 1) =
      load size slots start count ++ [given] := by
  rw [load_snoc, Function.update_self]
  apply congrArg (· ++ [given])
  apply load_congr
  intro idx below
  exact Function.update_of_ne (mod_ne_of_lt (by omega) (by omega)) _ _

theorem Holds.is_empty (holds : Holds ring entries) : ring.isEmpty = entries.isEmpty := by
  obtain ⟨head, room, tail, -⟩ := holds
  rw [Bool.eq_iff_iff, Ringbuf.isEmpty, decide_eq_true_eq, List.isEmpty_iff_length_eq_zero]
  simp only [polarCheckpointRingbufDefaultSize] at head room tail
  omega

theorem Holds.is_full (holds : Holds ring entries) :
    ring.isFull = true ↔ entries.length + 1 = polarCheckpointRingbufDefaultSize := by
  obtain ⟨head, room, tail, -⟩ := holds
  rw [Ringbuf.isFull, decide_eq_true_eq]
  simp only [polarCheckpointRingbufDefaultSize] at head room tail ⊢
  omega

/-- The position before the tail has the newest checkpoint. -/
theorem Holds.newest {last : CheckPoint} (holds : Holds ring (entries ++ [last])) :
    ring.prev = (ring.head + entries.length) % polarCheckpointRingbufDefaultSize ∧
      ring.slots ring.prev = last ∧
      load polarCheckpointRingbufDefaultSize ring.slots ring.head entries.length = entries := by
  obtain ⟨head, room, tail, slots⟩ := holds
  have position : ring.prev = (ring.head + entries.length) % polarCheckpointRingbufDefaultSize := by
    rw [length_append, length_singleton] at tail room
    simp only [polarCheckpointRingbufDefaultSize, Ringbuf.prev] at head room tail ⊢
    split_ifs <;> omega
  rw [length_append, length_singleton, load_snoc, ← position] at slots
  obtain ⟨front, written⟩ := append_inj slots (length_load _ _)
  exact ⟨position, singleton_inj.mp written, front⟩

theorem Holds.push (holds : Holds ring entries) (given : CheckPoint) :
    Holds (polarCheckpointRingbufPush ring given) (offered entries given) := by
  have compared : (!ring.isEmpty && tooLow given (ring.slots ring.prev)) =
      entries.getLast?.any (tooLow given) := by
    rw [holds.is_empty]
    rcases eq_nil_or_concat entries with rfl | ⟨front, last, rfl⟩
    · rfl
    · rw [concat_eq_append] at holds ⊢
      rw [holds.newest.2.1, getLast?_concat, Option.any_some]
      simp
  rw [polarCheckpointRingbufPush, offered, compared]
  split_ifs with low full length length
  · exact holds
  · -- the newest entry of a full ring is overwritten
    rcases eq_nil_or_concat entries with rfl | ⟨front, last, rfl⟩
    · exact absurd length (by decide)
    rw [concat_eq_append] at holds length ⊢
    obtain ⟨position, -, slots⟩ := holds.newest
    rw [dropLast_concat]
    have same : (front ++ [given]).length = (front ++ [last]).length := by simp
    refine ⟨holds.head, same ▸ holds.room, same ▸ holds.tail, ?_⟩
    have room : front.length < polarCheckpointRingbufDefaultSize := by
      rw [← length, length_append, length_singleton]
      omega
    rw [length_append, length_singleton, position, load_written _ _ _ room, slots]
  · exact absurd (holds.is_full.mp full) length
  · exact absurd (holds.is_full.mpr length) full
  · have room := holds.room
    have grown : (entries ++ [given]).length = entries.length + 1 := by simp
    refine ⟨holds.head, by omega, ?_, ?_⟩
    · rw [grown, holds.tail, Nat.mod_add_mod, add_assoc]
    · rw [grown, holds.tail, load_written _ _ _ room, holds.slots]

/-- The pop splits the ring at the replayed LSN and returns the last entry before the cut. -/
theorem Holds.pop (holds : Holds ring entries) (lsn : Nat) (ordered : entries.Pairwise Below)
    (found : CheckPoint) {fuel : Nat} (enough : entries.length < fuel) : ∃ front back rest,
      entries = front ++ back ∧ polarCheckpointRingbufPop lsn fuel ring found =
      (front.getLastD found, rest) ∧ Holds rest back ∧ (∀ entry ∈ front, entry.redo ≤ lsn) ∧
      ∀ entry ∈ back, lsn < entry.redo := by
  induction entries generalizing ring found fuel with
  | nil =>
    refine ⟨[], [], ring, rfl, ?_, holds, nofun, nofun⟩
    obtain ⟨fuel, rfl⟩ := Nat.exists_eq_succ_of_ne_zero (Nat.ne_zero_of_lt enough)
    rw [polarCheckpointRingbufPop, holds.is_empty]
    rfl
  | cons first later ih =>
    obtain ⟨fuel, rfl⟩ := Nat.exists_eq_succ_of_ne_zero (Nat.ne_zero_of_lt enough)
    obtain ⟨below, ordered⟩ := pairwise_cons.mp ordered
    rw [length_cons] at enough
    have room : later.length + 1 < polarCheckpointRingbufDefaultSize := holds.room
    have slots := holds.slots
    rw [length_cons, add_comm, load_add] at slots
    have oldest : ring.slots ((ring.head + 0) % polarCheckpointRingbufDefaultSize) = first :=
      (cons.inj slots).1
    rw [add_zero, Nat.mod_eq_of_lt holds.head] at oldest
    have advanced : Holds { ring with head := (ring.head + 1) % polarCheckpointRingbufDefaultSize }
      later := by
      refine ⟨Nat.mod_lt _ (by decide), by omega, ?_, ?_⟩
      · rw [holds.tail, length_cons, Nat.mod_add_mod, add_assoc, add_comm 1]
      · rw [load_mod]
        exact (cons.inj slots).2
    rw [polarCheckpointRingbufPop, holds.is_empty, oldest, List.isEmpty_cons, Bool.false_or]
    split_ifs with late
    · have late := of_decide_eq_true late
      refine ⟨[], first :: later, ring, rfl, rfl, holds, nofun, forall_mem_cons.mpr ⟨late, ?_⟩⟩
      exact fun entry mem => late.trans_le (below entry mem).2
    · obtain ⟨front, back, rest, whole, popped, holds, early, late'⟩ :=
        ih advanced ordered first (Nat.lt_of_succ_lt_succ enough)
      have usable : first.redo ≤ lsn := not_lt.mp fun above => late (decide_eq_true above)
      refine ⟨first :: front, back, rest, by rw [whole, cons_append], ?_, holds,
        forall_mem_cons.mpr ⟨usable, early⟩, late'⟩
      rw [popped, getLastD_cons]

theorem offered_ordered (ordered : entries.Pairwise Below) (given : CheckPoint) :
    (offered entries given).Pairwise Below ∧
      ∀ entry ∈ offered entries given, entry ∈ entries ∨ entry = given := by
  rw [offered]
  split
  · exact ⟨ordered, fun entry mem => .inl mem⟩
  rename_i low
  have above : ∀ entry ∈ entries, Below entry given := by
    rcases eq_nil_or_concat entries with rfl | ⟨front, last, rfl⟩
    · exact nofun
    rw [concat_eq_append] at ordered low ⊢
    simp only [getLast?_concat, Option.any_some, tooLow, Bool.or_eq_true, decide_eq_true_eq,
      not_or, not_le, not_lt] at low
    refine forall_mem_snoc.mpr ⟨fun entry early => ?_, low⟩
    have below := (pairwise_snoc.mp ordered).2 entry early
    exact ⟨below.1.trans low.1, below.2.trans low.2⟩
  have sub : (if entries.length + 1 = polarCheckpointRingbufDefaultSize then entries.dropLast
      else entries).Sublist entries := by
    split_ifs
    · exact dropLast_sublist entries
    · exact List.Sublist.refl entries
  constructor
  · exact pairwise_snoc.mpr ⟨ordered.sublist sub, fun entry mem => above entry (sub.subset mem)⟩
  · exact fun entry mem => (mem_append.mp mem).imp (fun old => sub.subset old) mem_singleton.mp

theorem Below.up_to {early late : CheckPoint} (below : Below early late) : UpTo early late :=
  ⟨below.1.le, below.2⟩

structure Inv (st : State) : Prop where
  holds : Holds st.ring (kept st.calls)
  ordered : (kept st.calls).Pairwise Below
  known : ∀ entry ∈ kept st.calls, entry ∈ st.calls.map Call.given
  exact : ∀ call earlier, call :: earlier <:+ st.calls → call.Exact earlier

/-- No checkpoint that is kept and no later answer lies below an answer. -/
structure Sorted (st : State) : Prop where
  kept : ∀ call ∈ st.calls, call.result ≠ noCheckPoint →
    ∀ entry ∈ kept st.calls, UpTo call.result entry
  answers : st.calls.Pairwise fun late early =>
    early.result ≠ noCheckPoint → late.result ≠ noCheckPoint → UpTo early.result late.result

theorem Inv.answer_given (inv : Inv st) {call : Call} (mem : call ∈ st.calls)
    (valid : call.result ≠ noCheckPoint) : call.result ∈ st.calls.map Call.given := by
  obtain ⟨later, earlier, split⟩ := append_of_mem mem
  have suffix : call :: earlier <:+ st.calls := ⟨later, split.symm⟩
  rcases inv.exact call earlier suffix with none | answered
  · exact absurd none.1 valid
  · exact (suffix.map _).subset answered.2.1

/-- The new call, from how the pop splits what is offered. -/
theorem exact_of_split {call : Call} {earlier : List Call} {front back : List CheckPoint}
    (whole : offered (kept earlier) call.given = front ++ back)
    (ordered : (front ++ back).Pairwise Below)
    (known : ∀ entry ∈ front ++ back, entry ∈ (call :: earlier).map Call.given)
    (answer : call.result = front.getLastD noCheckPoint)
    (early : ∀ entry ∈ front, entry.redo ≤ call.bgReplayedLsn)
    (late : ∀ entry ∈ back, call.bgReplayedLsn < entry.redo) : call.Exact earlier := by
  rw [Call.Exact, whole]
  rcases eq_nil_or_concat front with rfl | ⟨init, res, rfl⟩
  · exact .inl ⟨answer, late⟩
  rw [concat_eq_append] at *
  rw [getLastD_concat] at answer
  rw [answer]
  have mem : res ∈ init ++ [res] ++ back := mem_append_left _ mem_concat_self
  refine .inr ⟨mem, known _ mem, early _ mem_concat_self, fun entry inside low => ?_⟩
  rcases mem_append.mp inside with isEarly | isLate
  · rcases mem_append.mp isEarly with before | isResult
    · exact ((pairwise_snoc.mp (pairwise_append.mp ordered).1).2 entry before).up_to
    · rw [mem_singleton.mp isResult]
      exact ⟨le_rfl, le_rfl⟩
  · exact absurd (late entry isLate) (not_lt.mpr low)

/-- The new answer lies above the earlier ones, and what is left above the new answer. -/
theorem sorted_answer {call : Call} {front back : List CheckPoint} (sorted : Sorted st)
    (keeps : kept (call :: st.calls) = back) (ordered : (front ++ back).Pairwise Below)
    (answer : call.result = front.getLastD noCheckPoint)
    (above : ∀ old ∈ st.calls, old.result ≠ noCheckPoint →
      ∀ entry ∈ front ++ back, UpTo old.result entry) (ring : Ringbuf) :
    Sorted { st with ring := ring, calls := call :: st.calls } := by
  rcases eq_nil_or_concat front with rfl | ⟨init, res, rfl⟩
  · refine ⟨forall_mem_cons.mpr ⟨absurd answer, fun old mem valid => ?_⟩,
      pairwise_cons.mpr ⟨?_, sorted.answers⟩⟩
    · rw [keeps]
      exact above old mem valid
    · exact fun _ _ _ valid => absurd answer valid
  rw [concat_eq_append] at *
  rw [getLastD_concat] at answer
  have mem : res ∈ init ++ [res] := mem_concat_self
  refine ⟨forall_mem_cons.mpr ⟨fun _ entry inBack => ?_, fun old isCall valid entry inBack => ?_⟩,
    pairwise_cons.mpr ⟨fun old isCall valid _ => ?_, sorted.answers⟩⟩
  · rw [answer]
    exact ((pairwise_append.mp ordered).2.2 res mem entry (keeps ▸ inBack)).up_to
  · exact above old isCall valid entry (mem_append_right _ (keeps ▸ inBack))
  · rw [answer]
    exact above old isCall valid res (mem_append_left _ mem)

theorem Inv.check (inv : Inv st) (given : CheckPoint) :
    Inv (polarCheckpointRingbufCheck st given) ∧ (Sorted st → InOrder (some given) st →
      Sorted (polarCheckpointRingbufCheck st given)) := by
  rw [polarCheckpointRingbufCheck]
  split_ifs
  · exact ⟨inv, fun sorted _ => sorted⟩
  obtain ⟨ordered, pushed⟩ := offered_ordered inv.ordered given
  have holds := inv.holds.push given
  obtain ⟨front, back, rest, whole, popped, holds, early, late⟩ :=
    holds.pop st.bgReplayedLsn ordered noCheckPoint holds.room
  rw [popped]
  dsimp only
  generalize made : (⟨given, st.bgReplayedLsn, front.getLastD noCheckPoint⟩ : Call) = call
  have keeps : kept (call :: st.calls) = back := by
    rw [← made, kept, whole, filter_append, filter_eq_nil_iff.mpr, filter_eq_self.mpr, nil_append]
    · exact fun entry mem => decide_eq_true (late entry mem)
    · exact fun entry mem above => not_lt.mpr (early entry mem) (of_decide_eq_true above)
  have known : ∀ entry ∈ front ++ back, entry ∈ (call :: st.calls).map Call.given := by
    intro entry mem
    rcases pushed entry (whole ▸ mem) with old | same
    · exact mem_cons_of_mem _ (inv.known entry old)
    · rw [same, map_cons, ← made]
      exact mem_cons_self
  rw [whole] at ordered pushed
  have answer : call.result = front.getLastD noCheckPoint := by rw [← made]
  constructor
  · refine ⟨by rw [keeps]; exact holds, ?_, ?_, fun other earlier suffix => ?_⟩
    · rw [keeps]
      exact (pairwise_append.mp ordered).2.1
    · rw [keeps]
      exact fun entry mem => known entry (mem_append_right _ mem)
    · rcases suffix_cons_iff.mp suffix with same | older
      · obtain ⟨rfl, rfl⟩ := cons.inj same
        refine exact_of_split ?_ ordered known answer ?_ ?_ <;> rw [← made] <;> assumption
      · exact inv.exact other earlier older
  intro sorted inOrder
  refine sorted_answer sorted keeps ordered answer (fun old mem valid entry inside => ?_) rest
  rcases pushed entry inside with kept | same
  · exact sorted.kept old mem valid entry kept
  · obtain ⟨source, isCall, same'⟩ := mem_map.mp (inv.answer_given mem valid)
    rw [same, ← same']
    exact inOrder source isCall

theorem Inv.step (inv : Inv st) (step : Step event st next) :
    Inv next ∧ (Sorted st → InOrder event st → Sorted next) := by
  cases step with
  | check given => exact inv.check given
  | replay => exact ⟨{ inv with }, fun sorted _ => ⟨sorted.kept, sorted.answers⟩⟩

/-- Every ring has what the calls left, in order, and every answer is the newest usable checkpoint
of those; when checkpoints come in the order of the WAL, no answer lies below an earlier one. -/
theorem checkpoint_ring_exact : (∀ st, Run Step (fun _ _ => True) emptyRing st →
      Holds st.ring (kept st.calls) ∧ (kept st.calls).Pairwise Below ∧
        ∀ call earlier, call :: earlier <:+ st.calls → call.Exact earlier) ∧
    ∀ st, Run Step InOrder emptyRing st → st.calls.Pairwise fun late early =>
      early.result ≠ noCheckPoint → late.result ≠ noCheckPoint → UpTo early.result late.result := by
  have first : Inv emptyRing := ⟨⟨by decide, by decide, rfl, rfl⟩, .nil, nofun, by simp [emptyRing]⟩
  constructor
  · intro st run
    have inv := run.invariant Inv first fun _ _ _ inv step _ => (inv.step step).1
    exact ⟨inv.holds, inv.ordered, inv.exact⟩
  · intro st run
    have both := run.invariant (fun st => Inv st ∧ Sorted st) ⟨first, by simp [emptyRing], .nil⟩
      fun _ _ _ both step inOrder => ⟨(both.1.step step).1, (both.1.step step).2 both.2 inOrder⟩
    exact both.2.answers

/-- The ring is emptied by the first answer, so the smaller checkpoint is not compared with
anything. -/
theorem emptied_ring_answers_smaller : ∃ st, Run Step (fun _ _ => True) emptyRing st ∧
    st.calls.map Call.result = [⟨3, 4, 2⟩, ⟨10, 11, 5⟩] := by
  have started : Run Step (fun _ _ => True) emptyRing _ := .refl
  have replayed := started.snoc (.replay 100 (Nat.zero_le _))
  have first := replayed.snoc (.check ⟨10, 11, 5⟩ (by decide))
  have second := first.snoc (.check ⟨3, 4, 2⟩ (by decide))
  exact ⟨_, second, rfl⟩

end PolarDB.LogIndex.CheckpointRing
