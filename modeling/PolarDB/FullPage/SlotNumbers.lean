import PolarDB.FullPage.Snapshot

/-!
# The numbers of the slots

While a primary runs, its counter lies above every number in use. Replay leaves it
at the number of the last record, so the first snapshot after a restart repeats
that number; it does no harm only when no older record is retained any more.
-/

namespace PolarDB.FullPage.Snapshot

open List Lib.Snoc

variable {Tag Page : Type} {st next : State Tag Page} {event : Event}

structure Inv (st : State Tag Page) : Prop where
  numbers : st.storage.wal.Pairwise fun early late => early.fullpageNo < late.fullpageNo
  positions : st.storage.wal.Pairwise fun early late => early.lsn < late.lsn
  within : ∀ record ∈ st.storage.wal, st.storage.walStart ≤ record.lsn ∧
    record.endLsn ≤ st.insertLsn
  ordered : ∀ record ∈ st.storage.wal, record.lsn < record.endLsn
  window : st.storage.walStart ≤ st.storage.flushLsn ∧ st.storage.flushLsn ≤ st.insertLsn
  below : st.restored = false → ∀ record ∈ st.storage.wal, record.fullpageNo < st.ctl.maxFullpageNo
  saving : ∀ saving ∈ st.saving, st.restored = false ∧ saving.record.fullpageNo <
    st.ctl.maxFullpageNo
  spares : SparesImages st

/-- The first snapshot after a restart is logged when no older record is retained. -/
def Guarded : Event → State Tag Page → Prop
  | .log, st => st.restored = true → st.storage.wal = []
  | _, _ => True

theorem inv_start (lsn : Nat) : Inv (startState lsn : State Tag Page) := by
  constructor
  · exact List.Pairwise.nil
  · exact List.Pairwise.nil
  · exact forall_mem_nil _
  · exact forall_mem_nil _
  · exact ⟨Nat.le_refl _, Nat.le_refl _⟩
  · exact fun _ => forall_mem_nil _
  · exact nofun
  · exact nofun

theorem Inv.log (inv : Inv st) {tag : Tag} {size : Nat} {image : Page} (positive : 0 < size)
    (guard : st.restored = true → st.storage.wal = []) : Inv (logSnapshot st tag size image) := by
  have above : ∀ record ∈ st.storage.wal, record.fullpageNo < st.ctl.maxFullpageNo := by
    intro record mem
    cases isRestored : st.restored with
    | false => exact inv.below isRestored record mem
    | true =>
      rw [guard isRestored] at mem
      cases mem
  constructor
  · exact pairwise_snoc.mpr ⟨inv.numbers, above⟩
  · refine pairwise_snoc.mpr ⟨inv.positions, fun early inWal => ?_⟩
    exact Nat.lt_of_lt_of_le (inv.ordered early inWal) (inv.within early inWal).2
  · refine forall_mem_snoc.mpr ⟨fun record inWal => ?_, Nat.le_trans inv.window.1 inv.window.2,
      Nat.le_refl _⟩
    have before := inv.within record inWal
    exact ⟨before.1, Nat.le_add_right_of_le before.2⟩
  · exact forall_mem_snoc.mpr ⟨inv.ordered, Nat.lt_add_of_pos_right positive⟩
  · exact ⟨inv.window.1, Nat.le_add_right_of_le inv.window.2⟩
  · intro _
    exact forall_mem_snoc.mpr ⟨fun record inWal => Nat.lt_succ_of_lt (above record inWal),
      Nat.lt_succ_self _⟩
  · refine forall_mem_snoc.mpr ⟨fun saving before => ?_, rfl, Nat.lt_succ_self _⟩
    exact ⟨rfl, Nat.lt_succ_of_lt (inv.saving saving before).2⟩
  · refine forall_mem_snoc.mpr ⟨fun saving before => forall_mem_snoc.mpr ⟨inv.spares saving before,
      fun same => ?_⟩, forall_mem_snoc.mpr ⟨fun record inWal same => ?_, fun _ => rfl⟩⟩
    · have small := (inv.saving saving before).2
      rw [← same] at small
      exact absurd small (Nat.lt_irrefl _)
    · have small := above record inWal
      rw [same] at small
      exact absurd small (Nat.lt_irrefl _)

theorem Inv.step (inv : Inv st) (step : Step event st next) (guard : Guarded event st) :
    Inv next := by
  cases step with
  | log _ _ _ positive => exact inv.log positive guard
  | save front back saving whole =>
    have kept : ∀ other ∈ front ++ back, other ∈ st.saving := by
      intro other mem
      rw [whole]
      rcases mem_append.mp mem with inFront | inBack
      · exact mem_append_left _ inFront
      · exact mem_append_right _ (mem_cons_of_mem _ inBack)
    refine { inv with saving := ?_, spares := ?_ }
    · exact fun other mem => inv.saving other (kept other mem)
    · exact fun other mem => inv.spares other (kept other mem)
  | flush upTo forward within =>
    refine { inv with window := ?_ }
    exact ⟨Nat.le_trans inv.window.1 forward, within⟩
  | remove _ _ within =>
    constructor
    · exact inv.numbers.filter _
    · exact inv.positions.filter _
    · intro record mem
      have inFilter := mem_filter.mp mem
      exact ⟨of_decide_eq_true inFilter.2, (inv.within record inFilter.1).2⟩
    · exact fun record mem => inv.ordered record (mem_filter.mp mem).1
    · exact ⟨within, inv.window.2⟩
    · exact fun running record mem => inv.below running record (mem_filter.mp mem).1
    · exact inv.saving
    · exact fun saving isSaving record mem => inv.spares saving isSaving record
        (mem_filter.mp mem).1
  | restart =>
    constructor
    · exact inv.numbers.filter _
    · exact inv.positions.filter _
    · intro record mem
      have inFilter := mem_filter.mp mem
      exact ⟨(inv.within record inFilter.1).1, of_decide_eq_true inFilter.2⟩
    · exact fun record mem => inv.ordered record (mem_filter.mp mem).1
    · exact ⟨inv.window.1, Nat.le_refl _⟩
    · exact nofun
    · exact nofun
    · exact nofun

theorem Inv.run {start : State Tag Page} (inv : Inv start) (run : Run Guarded start st) :
    Inv st := by
  induction run with
  | refl => exact inv
  | tail _ step met before => exact before.step step met

theorem replayed_number (records : List (Record Tag)) (last : Record Tag) (ctl : FullpageCtl)
    (isLast : records.getLast? = some last) :
    (records.foldl redoRecord ctl).maxFullpageNo = last.fullpageNo := by
  have whole := dropLast_append_getLast? last isLast
  rw [← whole, foldl_append]
  rfl

variable {last : Record Tag} {ctl : FullpageCtl}

theorem last_of_filter {records : List (Record Tag)} {keep : Record Tag → Bool}
    (isLast : records.getLast? = some last) (kept : keep last = true) :
    (records.filter keep).getLast? = some last := by
  have whole := dropLast_append_getLast? last isLast
  rw [← whole, filter_append]
  simp [kept]

theorem Inv.number_le_last (inv : Inv st) {record last : Record Tag}
    (isLast : st.storage.wal.getLast? = some last) (mem : record ∈ st.storage.wal) :
    record.fullpageNo ≤ last.fullpageNo := by
  have whole := dropLast_append_getLast? last isLast
  have sorted := inv.numbers
  rw [← whole] at sorted mem
  have before := (pairwise_snoc.mp sorted).2
  exact forall_mem_snoc.mpr ⟨fun record early => Nat.le_of_lt (before record early), Nat.le_refl _⟩
    record mem

/-- The restart knows the last retained record: it replays it, or the logindex ends with it. -/
def KnowsLast (writable : Bool) (readFrom maxLsn : Nat) (last : Record Tag) : Prop :=
  readFrom ≤ last.lsn ∨ writable = true ∧ maxLsn = last.lsn ∧ 0 < maxLsn

variable {writable : Bool} {readFrom maxLsn : Nat}

theorem calc_cases {maxLsn : Nat} {storage : Storage Tag Page} {before after : FullpageCtl}
    (calculated : polarLogindexCalcMaxFullpageNo writable maxLsn storage before = some after) :
    after = before ∨ before.maxFullpageNo = 0 ∧ (after.maxFullpageNo = 0 ∨
      ∃ record ∈ storage.wal, record.lsn = maxLsn ∧ after.maxFullpageNo = record.fullpageNo) := by
  unfold polarLogindexCalcMaxFullpageNo at calculated
  split_ifs at calculated with readOnly set unknown removed
  · exact .inl (Option.some.inj calculated).symm
  · exact .inl (Option.some.inj calculated).symm
  · exact .inl (Option.some.inj calculated).symm
  · right
    refine ⟨Nat.eq_zero_of_not_pos set, .inl ?_⟩
    rw [← Option.some.inj calculated]
  · right
    refine ⟨Nat.eq_zero_of_not_pos set, .inr ?_⟩
    obtain ⟨_, isRead, isAfter⟩ := Option.map_eq_some_iff.mp calculated
    obtain ⟨record, isFound, isNumber⟩ := Option.map_eq_some_iff.mp isRead
    have isHere := List.find?_some isFound
    refine ⟨record, mem_of_find?_eq_some isFound, of_decide_eq_true isHere, ?_⟩
    rw [← isAfter, isNumber]

section
variable (inv : Inv st) (isLast : st.storage.wal.getLast? = some last)
include inv isLast

theorem Inv.replayed_recovered (replays : readFrom ≤ last.lsn)
    (recovered : recoverCtl writable readFrom maxLsn st.storage = some ctl) :
    ctl.maxFullpageNo = last.fullpageNo := by
  have lastReplayed : (st.storage.wal.filter fun record => readFrom ≤ record.lsn).getLast? =
    some last :=
    last_of_filter isLast (decide_eq_true replays)
  have replayed := replayed_number _ last polarFullpageShmemInit lastReplayed
  rcases calc_cases recovered with same | ⟨zero, reset | ⟨record, mem, -, isNumber⟩⟩
  · rw [same, replayed]
  · rw [reset, ← replayed, zero]
  · have small := inv.number_le_last isLast mem
    omega

theorem Inv.indexed_recovered {readFrom : Nat} (behind : last.lsn < readFrom) (valid : 0 < last.lsn)
    (recovered : recoverCtl true readFrom last.lsn st.storage = some ctl) :
    ctl.maxFullpageNo = last.fullpageNo := by
  have whole := dropLast_append_getLast? last isLast
  have inWal : last ∈ st.storage.wal := mem_of_getLast? isLast
  have sorted := inv.positions
  rw [← whole] at sorted
  have before := (pairwise_snoc.mp sorted).2
  have nothing : (st.storage.wal.filter fun record => readFrom ≤ record.lsn) = [] := by
    apply filter_eq_nil_iff.mpr
    rw [← whole]
    refine forall_mem_snoc.mpr ⟨fun record early => ?_, by simpa using behind⟩
    simpa using Nat.lt_trans (before record early) behind
  have found : (st.storage.wal.find? fun record => record.lsn = last.lsn) = some last := by
    rw [← whole, List.find?_append]
    have absent : (st.storage.wal.dropLast.find? fun record => record.lsn = last.lsn) = none := by
      apply List.find?_eq_none.mpr
      intro record mem
      have small := before record mem
      simpa using Nat.ne_of_lt small
    rw [absent]
    simp
  have kept : ¬ last.lsn < st.storage.walStart := Nat.not_lt.mpr (inv.within last inWal).1
  rw [recoverCtl, nothing, foldl_nil, polarLogindexCalcMaxFullpageNo, if_neg (by simp),
    if_neg (by simp [polarFullpageShmemInit]), if_neg (Nat.ne_of_gt valid), if_neg kept,
    polarXlogReadFullpageNo,
    found] at recovered
  rw [← Option.some.inj recovered]

theorem Inv.recovered_number (knows : KnowsLast writable readFrom maxLsn last)
    (recovered : recoverCtl writable readFrom maxLsn st.storage = some ctl) :
    ctl.maxFullpageNo = last.fullpageNo := by
  by_cases replays : readFrom ≤ last.lsn
  · exact inv.replayed_recovered isLast replays recovered
  · rcases knows with replays' | ⟨isWritable, isLsn, valid⟩
    · exact absurd replays' replays
    · rw [isWritable, isLsn] at recovered
      rw [isLsn] at valid
      exact inv.indexed_recovered isLast (Nat.lt_of_not_le replays) valid recovered

end

/-- A snapshot that is logged then shares its number with a retained record. -/
theorem repeats_number (isLast : st.storage.wal.getLast? = some last)
    (isNumber : st.ctl.maxFullpageNo = last.fullpageNo) (tag : Tag) (size : Nat) (image : Page) :
    ¬ Distinct (logSnapshot st tag size image).storage.wal := by
  intro distinct
  exact (pairwise_snoc.mp distinct).2 last (mem_of_getLast? isLast) isNumber.symm

/--
In every run in which the first snapshot after each restart or promotion is
logged when no older record is retained, retained records have distinct numbers
and no image that one of them refers to is overwritten. A snapshot that is logged
right after a restart that knows the last retained record repeats its number.
-/
theorem guarded_run_keeps_numbers_distinct {lsn : Nat} {st : State Tag Page}
    (run : Run Guarded (startState lsn) st) : Distinct st.storage.wal ∧ SparesImages st ∧
    ∀ writable readFrom maxLsn ctl last, (durable st.storage).wal.getLast? = some last →
      KnowsLast writable readFrom maxLsn last →
      recoverCtl writable readFrom maxLsn (durable st.storage) = some ctl →
      ∀ tag size image, ¬ Distinct (logSnapshot (restarted st ctl) tag size image).storage.wal := by
  have inv := (inv_start lsn).run run
  refine ⟨inv.numbers.imp Nat.ne_of_lt, inv.spares, ?_⟩
  intro writable readFrom maxLsn ctl last isLast knows recovered tag size image
  have after : Inv (restarted st ctl) :=
    inv.step (.restart writable readFrom maxLsn recovered) trivial
  have isNumber : ctl.maxFullpageNo = last.fullpageNo :=
    after.recovered_number isLast knows recovered
  exact repeats_number isLast isNumber tag size image

/-- Two snapshots, all WAL removed, a restart and another snapshot. After one more restart a
snapshot would repeat the number of that one. -/
theorem guarded_run_after_removal : ∃ (st : State Nat Nat) (ctl : FullpageCtl),
    Run Guarded (startState 1) st ∧ st.storage.wal.length = 1 ∧ Distinct st.storage.wal ∧
    SparesImages st ∧ recoverCtl true 21 0 (durable st.storage) = some ctl ∧
    ¬ Distinct (logSnapshot (restarted st ctl) 8 10 103).storage.wal := by
  have started : Run Guarded (startState 1 : State Nat Nat) _ := .refl _
  have one := started.tail (.log 7 10 100 (by decide)) nofun
  have two := one.tail (.log 7 10 101 (by decide)) nofun
  have flushed := two.tail (.flush 21 (by decide) (by decide)) trivial
  have removed := flushed.tail (.remove 21 (by decide) (by decide)) trivial
  have restarts := removed.tail (.restart true 21 0 rfl) trivial
  have again := restarts.tail (.log 7 10 102 (by decide)) (fun _ => rfl)
  have whole := again.tail (.flush 31 (by decide) (by decide)) trivial
  obtain ⟨distinct, spares, repeats⟩ := guarded_run_keeps_numbers_distinct whole
  refine ⟨_, _, whole, rfl, distinct, spares, rfl, ?_⟩
  exact repeats true 21 0 _ _ rfl (.inl (by decide)) rfl 8 10 103

/-- Two snapshots, a crash, replay of both records and another snapshot: the second number is used
twice. -/
theorem restart_repeats_number : ∃ st : State Nat Nat, Run (fun _ _ => True) (startState 1) st ∧
    st.storage.wal.map Record.fullpageNo = [0, 1, 1] ∧ ¬ Distinct st.storage.wal ∧
    ¬ SparesImages st := by
  have started : Run (fun _ _ => True) (startState 1 : State Nat Nat) _ := .refl _
  have one := started.tail (.log 7 10 100 (by decide)) trivial
  have two := one.tail (.log 8 10 101 (by decide)) trivial
  have flushed := two.tail (.flush 21 (by decide) (by decide)) trivial
  have restarts := flushed.tail (.restart true 1 0 rfl) trivial
  have again := restarts.tail (.log 9 10 102 (by decide)) trivial
  refine ⟨_, again, rfl, ?_, ?_⟩
  · intro distinct
    have pair := (pairwise_cons.mp (pairwise_cons.mp distinct).2).1
    exact pair _ (mem_singleton.mpr rfl) rfl
  · intro spares
    have isNew := spares _ (mem_singleton.mpr rfl) _ (mem_cons_of_mem _ mem_cons_self) rfl
    exact absurd (congrArg Record.lsn isNew) (by decide)

end PolarDB.FullPage.Snapshot
