import PolarDB.BgReplay.ReplayedLsn

/-!
# The oldest LSN in use

A dispatch iteration reads `bg_replayed_lsn` and then looks at one backend after the
other. What a backend publishes under the spinlock is `bg_replayed_lsn` itself, so it
is not below the result of an iteration that already passed this backend. The redo LSN
that a backend of a replica publishes has no such bound.
-/

namespace PolarDB.BgReplay.Dispatch

open Function Lib.Runs

variable {Tag : Type} {st next : State Tag} {event : Event}

/-- Invalid, or not below `floor`. -/
def AtLeast (floor lsn : Nat) : Prop := lsn = 0 ∨ floor ≤ lsn

/-- What the result of the iteration can be: not yet computed, it is at most the copy of
`bg_replayed_lsn`. -/
def dispatchFloor (phase : Phase) (replayedOldest : Nat) : Nat :=
  match phase with
  | .scan bgReplayed _ _ => max bgReplayed replayedOldest
  | _ => replayedOldest

/-- A redo LSN is published, or kept over a promotion, only when it is not below the oldest LSN. -/
def Guarded : Event → State Tag → Prop
  | .publishRedo backend, st => ∀ redo, st.localRedo backend = some redo →
      dispatchFloor st.phase st.replayedOldest ≤ redo
  | .promoteReplica oldestRedo, st => ∀ backend < st.numProcs, AtLeast oldestRedo
      (st.readMin backend)
  | _, _ => True

/-- An iteration that has looked at the backends before `idx`. -/
structure Scanning (replayedOldest bgReplayed copied idx res : Nat) (readMin : Nat → Nat) :
    Prop where
  above : replayedOldest ≤ copied
  behind : copied ≤ bgReplayed
  lowest : AtLeast replayedOldest res
  seen : ∀ backend < idx, AtLeast (oldestLsn copied res) (readMin backend)

structure Bounds (bgReplayed replayedOldest numProcs : Nat) (readMin : Nat → Nat) (phase : Phase) :
    Prop where
  valid : 0 < bgReplayed
  below : replayedOldest ≤ bgReplayed
  published : ∀ backend < numProcs, AtLeast replayedOldest (readMin backend)
  scanning : ∀ copied idx res, phase = .scan copied idx res →
    Scanning replayedOldest bgReplayed copied idx res readMin
  calm : phase ≠ .panicked

def StateBounds (st : State Tag) : Prop := Bounds st.bgReplayed st.replayedOldest st.numProcs
    st.readMin st.phase

theorem oldestLsn_le {copied res : Nat} : oldestLsn copied res ≤ copied := by
  unfold oldestLsn
  split
  · next smaller => exact smaller.2.le
  · exact le_rfl

theorem le_oldestLsn {floor copied res : Nat} (above : floor ≤ copied) (valid : AtLeast floor res) :
    floor ≤ oldestLsn copied res := by
  unfold oldestLsn
  split
  · next smaller => exact valid.resolve_left smaller.1
  · exact above

theorem AtLeast.mono {floor lower lsn : Nat} (known : AtLeast floor lsn) (less : lower ≤ floor) :
    AtLeast lower lsn :=
  known.imp_right (le_trans less)

theorem oldestLsn_minReplay (copied res readMin : Nat) :
    oldestLsn copied (minReplay res readMin) ≤ oldestLsn copied res ∧
      AtLeast (oldestLsn copied (minReplay res readMin)) readMin := by
  unfold oldestLsn minReplay AtLeast
  grind

theorem atLeast_minReplay {floor res readMin : Nat} (known : AtLeast floor res)
    (publishes : AtLeast floor readMin) : AtLeast floor (minReplay res readMin) := by
  unfold minReplay
  split
  · exact publishes
  · exact known

section
variable {replayedOldest bgReplayed copied idx res : Nat} {readMin : Nat → Nat}

section
variable (scanning : Scanning replayedOldest bgReplayed copied idx res readMin)
include scanning

theorem Scanning.look (publishes : AtLeast replayedOldest (readMin idx)) :
    Scanning replayedOldest bgReplayed copied (idx + 1) (minReplay res (readMin idx)) readMin := by
  obtain ⟨lowered, own⟩ := oldestLsn_minReplay copied res (readMin idx)
  refine ⟨scanning.above, scanning.behind, atLeast_minReplay scanning.lowest publishes, ?_⟩
  intro backend before
  rcases lt_or_eq_of_le (Nat.le_of_lt_succ before) with earlier | same
  · exact (scanning.seen backend earlier).mono lowered
  · rw [same]
    exact own

theorem Scanning.publish {backend lsn : Nat} (large : AtLeast copied lsn) :
    Scanning replayedOldest bgReplayed copied idx res (update readMin backend lsn) := by
  refine { scanning with seen := ?_ }
  intro other before
  rw [update_apply]
  split_ifs
  · exact large.mono oldestLsn_le
  · exact scanning.seen other before

theorem Scanning.advance {later : Nat}
    (forward : bgReplayed ≤ later) : Scanning replayedOldest later copied idx res readMin :=
  { scanning with behind := scanning.behind.trans forward }

end

variable {numProcs : Nat} {phase : Phase}

variable (bounds : Bounds bgReplayed replayedOldest numProcs readMin phase)
include bounds

theorem Bounds.advance {later : Nat}
    (forward : bgReplayed ≤ later) : Bounds later replayedOldest numProcs readMin phase := by
  refine ⟨bounds.valid.trans_le forward, bounds.below.trans forward, bounds.published, ?_,
    bounds.calm⟩
  intro copied idx res scanning
  exact (bounds.scanning copied idx res scanning).advance forward

theorem Bounds.leave {other : Phase}
    (outside : ∀ copied idx res, other ≠ .scan copied idx res) (calm : other ≠ .panicked) :
    Bounds bgReplayed replayedOldest numProcs readMin other := by
  refine { bounds with scanning := ?_, calm := calm }
  intro copied idx res scanning
  exact absurd scanning (outside copied idx res)

theorem Bounds.publish {backend lsn : Nat}
    (large : AtLeast (dispatchFloor phase replayedOldest) lsn) :
    Bounds bgReplayed replayedOldest numProcs (update readMin backend lsn) phase := by
  refine { bounds with published := ?_, scanning := ?_ }
  · intro other inside
    rw [update_apply]
    split_ifs
    · apply large.mono
      unfold dispatchFloor
      split
      · exact le_max_right _ _
      · exact le_rfl
    · exact bounds.published other inside
  · intro copied idx res scanning
    apply (bounds.scanning copied idx res scanning).publish
    apply large.mono
    rw [scanning]
    exact le_max_left _ _

theorem Bounds.floor_le : dispatchFloor phase replayedOldest ≤ bgReplayed := by
  unfold dispatchFloor
  split
  · next copied idx res =>
      exact Nat.max_le.mpr ⟨(bounds.scanning copied idx res rfl).behind, bounds.below⟩
  · exact bounds.below

end

theorem bounds_start (started : Started st) : StateBounds st := by
  refine ⟨started.valid, le_of_eq started.oldest, ?_, ?_, ?_⟩
  · exact fun backend _ => .inl (started.readMin backend)
  · intro _ _ _ scanning
    rw [started.phase] at scanning
    cases scanning
  · rw [started.phase]
    exact nofun

section
variable (bounds : StateBounds st)
include bounds

section
variable {copied idx res : Nat} (here : st.phase = .scan copied idx res)
include here

theorem passes_assertion : st.replayedOldest ≤ oldestLsn copied res := by
  have scanning := bounds.scanning copied idx res here
  exact le_oldestLsn scanning.above scanning.lowest

theorem bounds_compute (whole : st.numProcs ≤ idx) :
    StateBounds (setOldest st (oldestLsn copied res)) := by
  have scanning := bounds.scanning copied idx res here
  unfold setOldest
  rw [if_pos (passes_assertion bounds here)]
  refine ⟨bounds.valid, oldestLsn_le.trans scanning.behind, ?_, nofun, nofun⟩
  intro backend inside
  exact scanning.seen backend (inside.trans_le whole)

end

theorem bounds_poll {xlogReplayed : Nat} : StateBounds (pollIterator st xlogReplayed) := by
  unfold pollIterator
  split
  · exact bounds.leave nofun nofun
  · split
    · exact bounds.leave nofun nofun
    · exact bounds.leave nofun nofun

theorem bounds_require {backend lsn : Nat} (required : requireBackendRedo st = some lsn) :
    StateBounds { st with readMin := update st.readMin backend lsn } := by
  have isBg : lsn = st.bgReplayed := by
    unfold requireBackendRedo at required
    rw [if_neg (ne_of_gt bounds.valid)] at required
    cases role : st.role with
    | replica =>
      rw [role] at required
      cases required
    | standby =>
      rw [role] at required
      exact (Option.some.inj required).symm
    | promoting =>
      rw [role] at required
      by_cases reached : st.bgReplayed ≤ st.lastReplayedRead
      · exact (Option.some.inj ((if_pos reached).symm.trans required)).symm
      · cases (if_neg reached).symm.trans required
  apply bounds.publish
  rw [isBg]
  exact .inr bounds.floor_le

theorem bounds_step (inv : Inv st) (step : Step event st next) (guard : Guarded event st) :
    StateBounds next := by
  cases step with
  | parse | add | replayed | checkpoint => exact bounds
  | enter | dispatchLoop | readReplayed | beyond | dispatch | full => exact bounds.leave nofun nofun
  | remove | handle | compare | finish | readRedo | promoteStandby => exact bounds
  | poll xlogReplayed here => exact bounds_poll bounds
  | settle xlogReplayed _ here =>
    apply Bounds.leave bounds
    · intro copied idx res scanning
      change (if _ then _ else _) = _ at scanning
      split at scanning <;> cases scanning
    · change (if _ then _ else _) ≠ _
      split <;> exact nofun
  | forward _ here =>
    have copies := inv.copies
    rw [here] at copies
    exact (bounds.advance copies.2.1).leave nofun nofun
  | readBg here =>
    refine { bounds with scanning := ?_, calm := nofun }
    intro copied idx res scanning
    cases scanning
    exact ⟨bounds.below, le_rfl, .inl rfl, nofun⟩
  | scan copied idx res here more =>
    refine { bounds with scanning := ?_, calm := nofun }
    intro _ _ _ scanning
    cases scanning
    exact (bounds.scanning copied idx res here).look (bounds.published idx more)
  | compute copied idx res here whole => exact bounds_compute bounds here whole
  | advance front back task _ whole seen =>
    apply bounds.advance
    unfold advanceBgReplayed
    split
    · next moved => exact moved.2.le
    · exact le_rfl
  | publishRedo backend redo seen => exact bounds.publish (.inr (guard redo seen))
  | requireRedo backend _ required => exact bounds_require bounds required
  | lockApply backend => exact bounds.publish (.inr bounds.floor_le)
  | clear => exact bounds.publish (.inl rfl)
  | promoteReplica _ _ _ released valid =>
    refine ⟨valid, le_rfl, guard, ?_, bounds.calm⟩
    intro _ _ _ scanning
    change st.phase = _ at scanning
    rw [released] at scanning
    cases scanning

end

theorem bounds_run {start : State Tag} (started : Started start) (run : Run Step Guarded start st) :
    Inv st ∧ StateBounds st := by
  apply run.invariant fun reached => Inv reached ∧ StateBounds reached
  · exact ⟨inv_start started, bounds_start started⟩
  · intro _ _ _ known step guard
    exact ⟨known.1.step step, bounds_step known.2 known.1 step guard⟩

/-- No iteration of a guarded run computes a smaller oldest LSN than the one before it. -/
theorem guarded_run_never_panics {start : State Tag} (started : Started start)
    (run : Run Step Guarded start st) : st.phase ≠ .panicked ∧ ∀ copied idx res,
      st.phase = .scan copied idx res → st.replayedOldest ≤ oldestLsn copied res := by
  have bounds := (bounds_run started run).2
  exact ⟨bounds.calm, fun copied idx res here => passes_assertion bounds here⟩

/-- A replica whose redo LSN has caught up with the oldest LSN. -/
theorem caught_up_replica_never_panics : ∃ st : State Nat,
    Run Step Guarded (wakeupState .replica 90 100 100 1) st ∧ st.readMin 0 = 100 ∧
      st.replayedOldest = 100 ∧ st.phase ≠ .panicked := by
  have started : Run Step Guarded (wakeupState .replica 90 100 100 1 : State Nat) _ := .refl
  have published := (started.snoc (.readRedo 0 rfl)).tail (.publishRedo 0 100 rfl)
    (fun redo seen => by cases seen; decide)
  have round := ((published.snoc (.enter rfl)).snoc (.dispatchLoop rfl)).snoc (.readReplayed rfl)
  have forwarded := ((round.snoc (.poll 100 rfl)).snoc (.settle 100 true rfl)).snoc
    (.forward 100 rfl)
  have scanned := (forwarded.snoc (.readBg rfl)).snoc (.scan 100 0 0 rfl (by decide))
  have computed := scanned.snoc (.compute 100 1 100 rfl (by decide))
  exact ⟨_, computed, rfl, rfl,
    (guarded_run_never_panics (wakeupState_started (by decide) (by decide)) computed).1⟩

/-- A backend of a replica publishes the redo LSN of the last checkpoint, which lies below the
replayed LSN. -/
theorem replica_redo_lsn_panics :
    ∃ st : State Nat, Started (wakeupState .replica 90 100 40 1 : State Nat) ∧
    Run Step (fun _ _ => True) (wakeupState .replica 90 100 40 1) st ∧ st.phase = .panicked := by
  have started : Run Step (fun _ _ => True) (wakeupState .replica 90 100 40 1 : State Nat) _ :=
    .refl
  have published := (started.snoc (.readRedo 0 rfl)).snoc (.publishRedo 0 40 rfl)
  have round := ((published.snoc (.enter rfl)).snoc (.dispatchLoop rfl)).snoc (.readReplayed rfl)
  have forwarded := ((round.snoc (.poll 100 rfl)).snoc (.settle 100 true rfl)).snoc
    (.forward 100 rfl)
  have scanned := (forwarded.snoc (.readBg rfl)).snoc (.scan 100 0 0 rfl (by decide))
  have computed := scanned.snoc (.compute 100 1 40 rfl (by decide))
  exact ⟨_, wakeupState_started (by decide) (by decide), computed, rfl⟩

/-- On a standby no backend ever reads the redo LSN. -/
def NoRedo (st : State Tag) : Prop := st.role ≠ .replica ∧ ∀ backend, st.localRedo backend = none

theorem NoRedo.step (noRedo : NoRedo st) (step : Step event st next) : NoRedo next ∧
    Guarded event st := by
  cases step with
  | readRedo _ isReplica | promoteReplica _ isReplica => exact absurd isReplica noRedo.1
  | publishRedo backend _ seen =>
    rw [noRedo.2 backend] at seen
    cases seen
  | promoteStandby => exact ⟨⟨nofun, noRedo.2⟩, trivial⟩
  | poll _ here =>
    unfold pollIterator
    split
    · exact ⟨noRedo, trivial⟩
    · split <;> exact ⟨noRedo, trivial⟩
  | compute =>
    unfold setOldest
    split <;> exact ⟨noRedo, trivial⟩
  | _ => exact ⟨noRedo, trivial⟩

/-- On a standby, before and during its promotion, the assertion always passes. -/
theorem standby_never_panics {start : State Tag} (started : Started start)
    (standby : start.role = .standby) (run : Run Step (fun _ _ => True) start st) :
    st.phase ≠ .panicked := by
  have known : NoRedo st ∧ Inv st ∧ StateBounds st := by
    apply run.invariant fun reached => NoRedo reached ∧ Inv reached ∧ StateBounds reached
    · exact ⟨⟨standby ▸ nofun, started.localRedo⟩, inv_start started, bounds_start started⟩
    · intro _ _ _ reached step _
      have guarded := reached.1.step step
      exact ⟨guarded.1, reached.2.1.step step, bounds_step reached.2.2 reached.2.1 step guarded.2⟩
  exact known.2.2.calm

/-- A backend publishes its LSN, the node is promoted, and the iteration computes the oldest LSN. -/
theorem standby_never_panics_round : ∃ st : State Nat, Run Step (fun _ _ => True)
    (wakeupState .standby 90 100 40 1) st ∧ st.role = .promoting ∧ st.readMin 0 = 100 ∧
    st.phase = .idle ∧ st.phase ≠ .panicked := by
  have started : Run Step (fun _ _ => True) (wakeupState .standby 90 100 40 1 : State Nat) _ :=
    .refl
  have published := started.snoc (.requireRedo 0 100 rfl)
  have round := ((published.snoc (.enter rfl)).snoc (.dispatchLoop rfl)).snoc (.readReplayed rfl)
  have promoted := round.snoc (.promoteStandby rfl rfl)
  have forwarded := ((promoted.snoc (.poll 100 rfl)).snoc (.settle 100 true rfl)).snoc
    (.forward 100 rfl)
  have scanned := (forwarded.snoc (.readBg rfl)).snoc (.scan 100 0 0 rfl (by decide))
  have computed := scanned.snoc (.compute 100 1 100 rfl (by decide))
  exact ⟨_, computed, rfl, rfl, rfl,
    standby_never_panics (wakeupState_started (by decide) (by decide)) rfl computed⟩

end PolarDB.BgReplay.Dispatch
