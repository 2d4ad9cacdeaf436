import PolarDB.ProcPool.Removal

/-!
# The calls of the dispatcher

`polar_sched_add_task` is a run of the dispatcher's steps, so what holds after every run
holds during and after the call, whatever the workers do in between. It never panics.
-/

namespace PolarDB.ProcPool.Pool

open Function List ProcPool.Sched
open ProcPool.Execution

variable {Tag : Type}

theorem takeTurn_subProc (started : Nat → Bool) (sched : TaskSched Tag) (proc : Nat) :
    (takeTurn started sched).subProc proc = { sched.subProc proc with
      proc := (sched.subProc proc).proc || (decide (proc = sched.dstProc) && started proc) } := by
  unfold takeTurn
  dsimp only [TaskSched.setSubProc]
  by_cases isTurn : proc = sched.dstProc
  · subst isTurn
    split
    · next found =>
      rw [found, Bool.true_or, ← found]
    · next unknown => simp [unknown]
  · split
    · simp [isTurn]
    · simp [isTurn]

theorem takeTurn_total (started : Nat → Bool) (sched : TaskSched Tag) :
    (takeTurn started sched).totalProc = sched.totalProc ∧
      (takeTurn started sched).dstProc = if sched.dstProc + 1 = sched.totalProc then 0
      else sched.dstProc + 1 := by
  unfold takeTurn
  dsimp only [TaskSched.setSubProc]
  split
  · exact ⟨rfl, rfl⟩
  · exact ⟨rfl, rfl⟩

/-- The worker cannot take a task: its ring is full or its process is not found. -/
def Unusable (started : Nat → Bool) (sched : TaskSched Tag) (proc : Nat) : Prop :=
  (sched.subProc proc).ringFull = true ∨ (sched.subProc proc).proc = false ∧ started proc = false

theorem unusable_takeTurn {started : Nat → Bool} {sched : TaskSched Tag} {proc : Nat} :
    Unusable started (takeTurn started sched) proc ↔ Unusable started sched proc := by
  unfold Unusable
  rw [takeTurn_subProc]
  refine or_congr_right (and_congr_left fun stopped => ?_)
  simp [stopped]

/-- A loop that finds no worker has tried as many as it has turns. -/
theorem getNextProcLoop_none {started : Nat → Bool} {fuel : Nat} {sched : TaskSched Tag}
    (turn : sched.dstProc < sched.totalProc)
    (nothing : (getNextProcLoop started fuel sched).2 = none) :
    ∀ idx < fuel, Unusable started (getNextProcLoop started fuel sched).1
    ((sched.dstProc + idx) % sched.totalProc) := by
  suffices (∀ proc, Unusable started sched proc →
    Unusable started (getNextProcLoop started fuel sched).1 proc) ∧
      ∀ idx < fuel, Unusable started sched ((sched.dstProc + idx) % sched.totalProc) from
    fun idx small => this.1 _ (this.2 idx small)
  induction fuel generalizing sched with
  | zero => exact ⟨fun _ => id, nofun⟩
  | succ fuel further =>
    rw [getNextProcLoop] at nothing ⊢
    split_ifs at nothing ⊢ with usable
    have total := takeTurn_total started sched
    obtain ⟨kept, tried⟩ := further (by rw [total.1, total.2]; split <;> omega) nothing
    refine ⟨fun proc unusable => kept proc (unusable_takeTurn.mpr unusable), fun idx small => ?_⟩
    cases idx with
    | zero =>
      rw [Nat.add_zero, Nat.mod_eq_of_lt turn, ← unusable_takeTurn]
      rw [not_and_or, Bool.not_eq_true, Bool.not_eq_false] at usable
      refine usable.symm.imp_right fun unknown =>
        ⟨unknown, Bool.eq_false_iff.mpr fun isStarted => ?_⟩
      simp [takeTurn_subProc, isStarted] at unknown
    | succ idx =>
      have behind := unusable_takeTurn.mp (tried idx (by omega))
      rw [total.1, total.2] at behind
      split at behind
      · rwa [show sched.dstProc + (idx + 1) = sched.totalProc + idx by omega, Nat.add_mod_left,
          ← Nat.zero_add idx]
      · rwa [show sched.dstProc + 1 + idx = sched.dstProc + (idx + 1) by omega] at behind

variable [DecidableEq Tag] {sys next : System Tag}

/-- The dispatcher gets to this state of the scheduler. -/
def Reaches (sys : System Tag) (sched : TaskSched Tag) : Prop := ∃ next, Cleans sys next ∧
    sched = next.sched

theorem Cleans.reaches {sched : TaskSched Tag} (one : Cleans sys next) (two : Reaches next sched) :
    Reaches sys sched := by
  obtain ⟨last, more, isLast⟩ := two
  exact ⟨last, one.trans more, isLast⟩

theorem Known.stays (known : Known sys) : Cleans sys sys := ⟨.refl sys, rfl, rfl, rfl, known⟩

theorem takeTurn_cleans (started : Nat → Bool) (known : Known sys)
    (nonempty : 0 < sys.sched.totalProc) : ∃ next, Cleans sys next ∧ takeTurn started sys.sched =
    next.sched := by
  have turn := known.bounds.turn nonempty
  refine ⟨_, known.clean
    (.choose (if sys.sched.dstProc + 1 = sys.sched.totalProc then 0 else sys.sched.dstProc + 1)
      (fun proc => ((takeTurn started sys.sched).subProc proc).proc) (by split <;> omega)) rfl
      rfl rfl, ?_⟩
  unfold takeTurn
  dsimp only [TaskSched.setSubProc]
  split
  · rfl
  congr 1
  funext proc
  by_cases isTurn : proc = sys.sched.dstProc
  · rw [isTurn]
    simp only [update_self]
  · simp only [update_of_ne isTurn]

/-- The dispatcher gets to the result; a worker it names has room, and if it names none no worker is
usable. -/
def Chooses (started : Nat → Bool) (sys : System Tag) (res : TaskSched Tag × Option Nat) : Prop :=
  Reaches sys res.1 ∧
    (∀ proc, res.2 = some proc → proc < sys.sched.totalProc ∧
      (res.1.subProc proc).ringFull = false) ∧
    (res.2 = none → ∀ proc < sys.sched.totalProc, Unusable started res.1 proc)

section
variable {started : Nat → Bool} {res : TaskSched Tag × Option Nat}

theorem Cleans.chooses (one : Cleans sys next) (two : Chooses started next res) :
    Chooses started sys res :=
  ⟨one.reaches two.1, one.total ▸ two.2⟩

theorem Cleans.chooses_worker (one : Cleans sys next) {proc : Nat}
    (within : proc < sys.sched.totalProc) (room : (next.sched.subProc proc).ringFull = false) :
    Chooses started sys (next.sched, some proc) := by
  refine ⟨⟨next, one, rfl⟩, fun other isProc => ?_, fun none => nomatch none⟩
  cases isProc
  exact ⟨within, room⟩

end

section
variable (started : Nat → Bool) (known : Known sys) (nonempty : 0 < sys.sched.totalProc)
include known nonempty

theorem getNextProcLoop_reaches (fuel : Nat) :
    Reaches sys (getNextProcLoop started fuel sys.sched).1 ∧
    ∀ proc, (getNextProcLoop started fuel sys.sched).2 = some proc → proc < sys.sched.totalProc ∧
      ((getNextProcLoop started fuel sys.sched).1.subProc proc).ringFull = false := by
  induction fuel generalizing sys with
  | zero => exact ⟨⟨sys, known.stays, rfl⟩, fun _ none => nomatch none⟩
  | succ _ step =>
    obtain ⟨next, one, isNext⟩ := takeTurn_cleans started known nonempty
    rw [getNextProcLoop, isNext]
    split_ifs with usable
    · have chosen := @Cleans.chooses_worker _ _ _ _ started one _
        (known.bounds.turn nonempty) usable.2
      exact ⟨chosen.1, chosen.2.1⟩
    · have further := step one.known (one.total ▸ nonempty)
      exact ⟨one.reaches further.1, one.total ▸ further.2⟩

theorem polarSchedGetNextProc_chooses :
    Chooses started sys (polarSchedGetNextProc started sys.sched) := by
  have reaches := getNextProcLoop_reaches started known nonempty sys.sched.totalProc
  refine ⟨reaches.1, reaches.2, fun nothing proc within => ?_⟩
  have turn := known.bounds.turn nonempty
  -- the turn of this worker comes within one round
  have tried := getNextProcLoop_none turn nothing
    ((proc + sys.sched.totalProc - sys.sched.dstProc) % sys.sched.totalProc) (Nat.mod_lt _ nonempty)
  rwa [Nat.add_mod_mod, show sys.sched.dstProc + (proc + sys.sched.totalProc - sys.sched.dstProc) =
    proc + sys.sched.totalProc by omega, Nat.add_mod_right, Nat.mod_eq_of_lt within] at tried

theorem polarSchedGetDstProc_chooses (tag : Tag) :
    ∃ chosen, polarSchedGetDstProc started sys.sched tag = .ok chosen ∧ Chooses started sys chosen ∧
      ∀ last, (sys.sched.taskHash tag).getLast? = some last →
        RoomOr (fun status => status = .finished ∨ status = .removed)
        (taskNodeProc last) sys.sched → chosen.2 = some (taskNodeProc last) := by
  rw [polarSchedGetDstProc]
  cases isLast : (sys.sched.taskHash tag).getLast? with
  | none => exact ⟨_, rfl, polarSchedGetNextProc_chooses started known nonempty,
      fun _ none => nomatch none⟩
  | some last =>
    have within : taskNodeProc last < sys.sched.totalProc := by
      obtain ⟨_, _, inv⟩ := known.inv
      have occupied := ((inv.chains.member tag last).mp (mem_of_getLast? isLast)).1
      obtain ⟨task, mem, isNode, -⟩ := task_of_node inv.rings occupied
      have placed := (inv.history.placed task mem).1
      rw [isNode] at placed
      exact (Nat.mod_le _ _).trans_lt placed
    dsimp only
    split_ifs with room
    · refine ⟨_, rfl, known.stays.chooses_worker within room, fun _ same _ => ?_⟩
      rw [Option.some.inj same]
    obtain ⟨marked, cleaned, one, two, isCleaned, -⟩ := polarSchedRemoveFinishedTask_turns known
    have cleans := (known.removing (one.trans two)).1
    have makesRoom := polarSchedRemoveFinishedTask_room known within isCleaned
    rw [isCleaned]
    by_cases madeRoom : (cleaned.sched.subProc (taskNodeProc last)).ringFull = false
    · refine ⟨_, if_pos madeRoom, cleans.chooses_worker within madeRoom, fun _ same _ => ?_⟩
      rw [Option.some.inj same]
    · refine ⟨_, if_neg madeRoom, cleans.chooses
        (polarSchedGetNextProc_chooses started cleans.known (cleans.total ▸ nonempty)),
        fun _ same => ?_⟩
      cases same
      exact fun oldest => absurd (makesRoom oldest) madeRoom

end

/-- From every state of a run the call returns, and it is a run of steps of the dispatcher. It
returns false only when no worker is usable, and then adds nothing. It adds the task to the ring of
the last task of the tag when that ring has room or its oldest task is finished and can be
removed. -/
theorem add_task_is_run {totalProc depth : Nat} (positive : 0 < depth)
    (run : Run (startSystem totalProc depth) sys) (workers : 0 < sys.sched.totalProc)
    (started : Nat → Bool) (tag : Tag) :
    ∃ res after, polarSchedAddTask started sys.sched tag = .ok res ∧ Run sys after ∧
      after.sched = res.1 ∧ after.worker = sys.worker ∧
      (res.2 = false → after.added = sys.added ∧
        ∀ proc < sys.sched.totalProc, Unusable started res.1 proc) ∧
      (res.2 = true → ∃ task, task.tag = tag ∧ task.node.proc < sys.sched.totalProc ∧
        after.added = sys.added ++ [task]) ∧
      ∀ last, (sys.sched.taskHash tag).getLast? = some last →
        RoomOr (fun status => status = .finished ∨ status = .removed) (taskNodeProc last)
          sys.sched →
        res.2 = true ∧ ∃ task, task.tag = tag ∧ task.node.proc = taskNodeProc last ∧
          after.added = sys.added ++ [task] := by
  have known := known_of_run positive run
  obtain ⟨⟨sched, found⟩, isChosen, ⟨⟨next, one, isNext⟩, usable, unusable⟩, affine⟩ :=
    polarSchedGetDstProc_chooses started known workers tag
  cases isNext
  rw [polarSchedAddTask, isChosen]
  cases found with
  | none =>
    refine ⟨_, next, rfl, one.run, rfl, one.worker, fun _ => ⟨one.added, unusable rfl⟩, by simp,
      fun last isLast room => ?_⟩
    exact nomatch affine last isLast room
  | some proc =>
    obtain ⟨within, room⟩ := usable proc rfl
    refine ⟨_, _, rfl, one.run.tail (Step.add proc tag (one.total ▸ within) room), rfl,
      one.worker, by simp,
      fun _ => ?_, fun last isLast oldest => ⟨rfl, ?_⟩⟩
    · exact ⟨next.placing proc tag, rfl, within, by rw [one.added]⟩
    · exact ⟨next.placing proc tag, rfl,
        Option.some.inj (affine last isLast oldest), by rw [one.added]⟩

/-- The ring is full of one finished task; the next task of its tag takes its place. -/
theorem add_task_is_run_again : taskReleased.sched.taskHash 7 = [⟨0, 0⟩] ∧
    (taskReleased.sched.subProc 0).ringFull = true ∧
    ∃ res after, polarSchedAddTask (fun _ => false) taskReleased.sched 7 = .ok res ∧
      res.2 = true ∧ Run taskReleased after ∧
      ∃ task, task.tag = 7 ∧ task.node.proc = 0 ∧ after.added = taskReleased.added ++ [task] := by
  have run : Run (startSystem 1 1) taskReleased :=
    Run.trans ((Run.refl _).tail (.add 0 7 (by decide) rfl)) (FairSchedule.run one_task_fair 4)
  obtain ⟨res, after, ok, reaches, -, -, -, -, again⟩ := add_task_is_run (by decide) run (by decide)
    (fun _ => false) 7
  obtain ⟨added, task⟩ := again ⟨0, 0⟩ rfl (.inr (.inl rfl))
  exact ⟨rfl, rfl, res, after, ok, added, reaches, task⟩

end PolarDB.ProcPool.Pool
