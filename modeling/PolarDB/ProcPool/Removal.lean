import PolarDB.ProcPool.PoolExact

/-!
# Removing finished tasks

The running list holds the tasks of all chains. `polar_sched_remove_finished_task` is a run of
the dispatcher's steps: it marks finished tasks as removed, ring by ring, and then resets the
removed tasks at the tails. Each of these steps leaves less to remove, and a full ring whose
oldest task is finished has room after the call.
-/

namespace PolarDB.ProcPool.Pool

open Function List ProcPool.Sched
open ProcPool.Execution

variable {Tag : Type} [DecidableEq Tag] {sys next last : System Tag} {start fetched : Nat → Nat}
  {event : Event}
  {task : NodeId} {tag : Tag}

/-- The list behind `running_task_head`. -/
structure Queued (sched : TaskSched Tag) : Prop where
  nodup : sched.runningTasks.Nodup
  member : ∀ node, node ∈ sched.runningTasks ↔ ∃ tag, node ∈ sched.taskHash tag

theorem in_some_chain {hash : Tag → List NodeId} {node : NodeId} (tag : Tag) :
    (∃ other, node ∈ hash other) ↔ node ∈ hash tag ∨ ∃ other, other ≠ tag ∧ node ∈ hash other := by
  have split := exists_update_iff hash (fun _ chain => node ∈ chain) (a := tag) (b := hash tag)
  rwa [update_eq_self] at split

section
variable (inv : Inv sys start fetched) (queued : Queued sys.sched)
include inv queued

theorem Inv.queued_drop {first : NodeId} {rest : List NodeId}
    (whole : sys.sched.taskHash tag = first :: rest) : Queued (TaskSched.setStatus { sys.sched with
        runningTasks := sys.sched.runningTasks.erase first
        taskHash := update sys.sched.taskHash tag rest } first .removed) ∧
      (sys.sched.runningTasks.erase first).length < sys.sched.runningTasks.length := by
  have inChain : first ∈ sys.sched.taskHash tag := whole ▸ mem_cons_self
  have nodup := inv.chains.nodup tag
  rw [whole] at nodup
  refine ⟨⟨queued.nodup.erase first, fun node => ?_⟩, ?_⟩
  · apply queued.nodup.mem_erase_iff.trans
    rw [queued.member, in_some_chain tag, whole]
    refine .trans ?_ (exists_update_iff sys.sched.taskHash fun _ chain => node ∈ chain).symm
    constructor
    · rintro ⟨apart, here | elsewhere⟩
      · exact .inl ((mem_cons.mp here).resolve_left apart)
      · exact .inr elsewhere
    · rintro (here | ⟨other, different, elsewhere⟩)
      · exact ⟨fun isFirst => (nodup_cons.mp nodup).1 (isFirst ▸ here),
          .inl (mem_cons_of_mem _ here)⟩
      · exact ⟨fun isFirst => different (inv.chains.tag_unique inChain (isFirst ▸ elsewhere)),
          .inr ⟨other, different, elsewhere⟩⟩
  · have there := (queued.member first).mpr ⟨tag, inChain⟩
    have positive := length_pos_of_mem there
    rw [length_erase_of_mem there]
    omega

theorem Inv.mark_loop_ok {chain : List NodeId} (isChain : sys.sched.taskHash tag = chain)
    (mem : task ∈ chain) (finished : (sys.sched.taskNodes task).status = .finished) :
    ∃ after, markFinishedLoop tag task chain sys.sched = .ok after ∧ Queued after ∧
      after.runningTasks.length < sys.sched.runningTasks.length ∧ (after.taskNodes task).status =
      .removed := by
  induction chain generalizing sys with
  | nil => cases mem
  | cons first rest shorter =>
    -- the finished tasks of a chain are its front
    have head : (sys.sched.taskNodes first).status = .finished := by
      obtain ⟨done, waitingPart, whole, allFinished, waiting⟩ := inv.chains.shape tag
      rw [isChain] at whole
      cases done with
      | nil =>
        rw [whole] at mem
        exact absurd finished (waiting.unfinished task mem)
      | cons =>
        injection whole with isFirst
        exact allFinished first (isFirst ▸ mem_cons_self)
    have dropped := inv.queued_drop queued isChain
    rw [markFinishedLoop, if_neg (not_not.mpr head)]
    split_ifs with last
    · exact ⟨_, rfl, dropped.1, dropped.2, last ▸ withStatus_self⟩
    · obtain ⟨after, ok, queuedAfter, less, removed⟩ :=
        shorter (inv.drop_first _ isChain head) dropped.1 (update_self _ _ _)
        ((mem_cons.mp mem).resolve_left (Ne.symm last))
        ((congrArg TaskNode.status (withStatus_of_ne (Ne.symm last))).trans finished)
      exact ⟨after, ok, queuedAfter, less.trans dropped.2, removed⟩

theorem Inv.mark_ok (finished : (sys.sched.taskNodes task).status = .finished) :
    ∃ after, schedProcMarkFinishedTasksRemoved sys.sched task = .ok after ∧ Queued after ∧
      after.runningTasks.length < sys.sched.runningTasks.length ∧ (after.taskNodes task).status =
      .removed := by
  have occupied : (sys.sched.taskNodes task).addSeq ≠ 0 := by
    intro vacant
    rw [(inv.rings.vacant task vacant).1] at finished
    cases finished
  obtain ⟨placed, -, -, -, -, isTag⟩ := task_of_node inv.rings occupied
  rw [schedProcMarkFinishedTasksRemoved, isTag]
  exact inv.mark_loop_ok queued rfl ((inv.chains.member _ _).mpr ⟨occupied,
    isTag, by rw [finished]; decide⟩) finished

theorem Inv.queued_add {proc : Nat} (room : (sys.sched.subProc proc).ringFull = false) :
    Queued (polarSchedProcAddTask sys.sched proc tag) := by
  have vacant := head_vacant inv.history inv.rings room
  obtain ⟨-, -, -, newChain, -⟩ := polarSchedProcAddTask_rest sys.sched proc tag
  have list : (polarSchedProcAddTask sys.sched proc tag).runningTasks =
      sys.sched.runningTasks ++ [⟨proc, (sys.sched.subProc proc).taskHead⟩] := by
    unfold polarSchedProcAddTask polarSchedAddTaskHashTable
    dsimp only [TaskSched.setNode, TaskSched.setStatus, TaskSched.setSubProc]
    split
    · rfl
    · split_ifs <;> rfl
  constructor
  · rw [list, ← concat_eq_append]
    refine queued.nodup.concat fun mem => ?_
    obtain ⟨_, inChain⟩ := (queued.member _).mp mem
    exact ((inv.chains.member _ _).mp inChain).1 vacant
  · intro node
    rw [list, newChain, mem_append, mem_singleton, queued.member, in_some_chain tag, or_right_comm]
    refine .trans ?_ (exists_update_iff sys.sched.taskHash fun _ chain => node ∈ chain).symm
    rw [mem_append, mem_singleton]

theorem Inv.queued_step (step : Step event sys next) : Queued next.sched ∧
    (event ≠ .add → next.sched.runningTasks.length ≤ sys.sched.runningTasks.length) ∧
    (event = .mark → next.sched.runningTasks.length < sys.sched.runningTasks.length) := by
  cases step with
  | add proc _ _ room => exact ⟨inv.queued_add queued room, absurd rfl, nofun⟩
  | mark task finished done =>
    obtain ⟨_, ok, queuedAfter, less, -⟩ := inv.mark_ok queued finished
    rw [done] at ok
    cases ok
    exact ⟨queuedAfter, fun _ => less.le, fun _ => less⟩
  | release proc successor =>
    cases successor with
    | none => exact ⟨queued, fun _ => le_rfl, nofun⟩
    | some => exact ⟨⟨queued.nodup, queued.member⟩, fun _ => le_rfl, nofun⟩
  | _ => exact ⟨⟨queued.nodup, queued.member⟩, fun _ => le_rfl, nofun⟩

end

/-- What holds in every state that the pool can reach. -/
structure Known (sys : System Tag) : Prop where
  inv : ∃ start fetched, Inv sys start fetched
  bounds : Bounds sys
  queued : Queued sys.sched

theorem Known.step (known : Known sys) (step : Step event sys next) : Known next := by
  obtain ⟨⟨_, _, inv⟩, bounds, queued⟩ := known
  exact ⟨inv.step step, bounds.step step, (inv.queued_step queued step).1⟩

theorem known_of_run {totalProc depth : Nat} (positive : 0 < depth)
    (run : Run (startSystem totalProc depth) sys) : Known sys := by
  induction run with
  | refl =>
    exact ⟨⟨_, _, inv_start totalProc depth positive⟩, bounds_start totalProc depth,
      nodup_nil, by simp [startSystem]⟩
  | tail _ step before => exact before.step step

/-- The nodes that hold a task, removed or not. -/
def nodesInUse (sched : TaskSched Tag) : Finset (Nat × Nat) :=
  (Finset.range sched.totalProc ×ˢ Finset.range sched.taskQueueDepth).filter fun place =>
    (sched.taskNodes ⟨place.1, place.2⟩).addSeq ≠ 0

/-- How much is left to remove and to reset. -/
def leftToRemove (sched : TaskSched Tag) : Nat :=
  sched.runningTasks.length + (nodesInUse sched).card

omit [DecidableEq Tag] in
theorem nodesInUse_congr {sched after : TaskSched Tag} (total : after.totalProc = sched.totalProc)
    (depth : after.taskQueueDepth = sched.taskQueueDepth)
    (addSeq : ∀ node, (after.taskNodes node).addSeq = (sched.taskNodes node).addSeq) :
    nodesInUse after = nodesInUse sched := by
  unfold nodesInUse
  rw [total, depth]
  apply Finset.filter_congr
  intro place _
  rw [addSeq]

omit [DecidableEq Tag] in
theorem leftToRemove_setStatus (sched : TaskSched Tag) (node : NodeId) (status : Status) :
    leftToRemove (sched.setStatus node status) = leftToRemove sched := by
  have same : nodesInUse (sched.setStatus node status) = nodesInUse sched :=
    nodesInUse_congr rfl rfl fun other => withStatus_addSeq other
  unfold leftToRemove
  rw [same]
  rfl

theorem Inv.reset_fewer {proc : Nat} (inv : Inv sys start fetched)
    (within : proc < sys.sched.totalProc)
    (removed : (sys.sched.taskNodes ⟨proc, (sys.sched.subProc proc).taskTail⟩).status = .removed) :
    leftToRemove (resetTail sys.sched proc) < leftToRemove sys.sched := by
  have tail : (sys.sched.subProc proc).taskTail < sys.sched.taskQueueDepth := by
    rw [(inv.rings.ring proc).2.1]
    exact Nat.mod_lt _ inv.rings.depth
  have occupied : (sys.sched.taskNodes ⟨proc, (sys.sched.subProc proc).taskTail⟩).addSeq ≠ 0 := by
    intro vacant
    rw [(inv.rings.vacant _ vacant).1] at removed
    cases removed
  have fewer : nodesInUse (resetTail sys.sched proc) ⊂ nodesInUse sys.sched := by
    refine Finset.ssubset_iff_of_subset ?_ |>.mpr
      ⟨(proc, (sys.sched.subProc proc).taskTail), by simp [nodesInUse, within, tail, occupied], ?_⟩
    · intro place
      unfold nodesInUse
      rw [Finset.mem_filter, Finset.mem_filter]
      refine And.imp_right fun used => ?_
      by_cases isTail : (⟨place.1, place.2⟩ : NodeId) = ⟨proc, (sys.sched.subProc proc).taskTail⟩
      · rw [isTail]
        exact occupied
      · rwa [resetTail_of_ne rfl isTail] at used
    · simp [nodesInUse, resetTail_self rfl]
  exact Nat.add_lt_add_left (Finset.card_lt_card fewer) _

section
variable (known : Known sys)
include known

/-- Only a new task raises what is left to remove, and each step of a removal lowers it. -/
theorem Known.leftToRemove_step (step : Step event sys next) (notAdd : event ≠ .add) :
    leftToRemove next.sched ≤ leftToRemove sys.sched ∧
      (event = .mark ∨ event = .reset → leftToRemove next.sched < leftToRemove sys.sched) := by
  obtain ⟨⟨_, _, inv⟩, -, queued⟩ := known
  have shorter := inv.queued_step queued step
  cases step with
  | add => exact absurd rfl notAdd
  | @mark _ after task finished done =>
    have marks := schedProcMarkFinishedTasksRemoved_marks done
    have less : leftToRemove after < leftToRemove sys.sched := by
      unfold leftToRemove
      rw [nodesInUse_congr marks.total marks.depth marks.addSeq]
      exact Nat.add_lt_add_right (shorter.2.2 rfl) _
    exact ⟨less.le, fun _ => less⟩
  | reset proc within _ removed =>
    have less := inv.reset_fewer within removed
    exact ⟨less.le, fun _ => less⟩
  | finish proc task => exact ⟨(leftToRemove_setStatus _ _ _).le, by simp⟩
  | release proc successor =>
    cases successor with
    | none => exact ⟨le_rfl, by simp⟩
    | some task => exact ⟨(leftToRemove_setStatus _ _ _).le, by simp⟩
  | _ => exact ⟨le_rfl, by simp⟩

end

/-- The dispatcher gets from one state to the other by its own steps, without a new task. -/
structure Cleans (sys next : System Tag) : Prop where
  run : Run sys next
  worker : next.worker = sys.worker
  added : next.added = sys.added
  total : next.sched.totalProc = sys.sched.totalProc
  known : Known next

theorem Cleans.trans (one : Cleans sys next) (two : Cleans next last) : Cleans sys last :=
  ⟨Run.trans one.run two.run, two.worker.trans one.worker, two.added.trans one.added,
    two.total.trans one.total, two.known⟩

theorem Known.clean (known : Known sys) (step : Step event sys next)
    (worker : next.worker = sys.worker)
    (added : next.added = sys.added) (total : next.sched.totalProc = sys.sched.totalProc) :
    Cleans sys next :=
  ⟨(Run.refl sys).tail step, worker, added, total, known.step step⟩

/-- A step that a removal is made of. -/
def Removal (sys next : System Tag) : Prop := Step .mark sys next ∨ Step .reset sys next

abbrev Removing : System Tag → System Tag → Prop := Relation.ReflTransGen Removal

theorem Known.removal (known : Known sys) (step : Removal sys next) :
    Cleans sys next ∧ leftToRemove next.sched < leftToRemove sys.sched := by
  rcases step with mark | reset
  · refine ⟨?_, (known.leftToRemove_step mark nofun).2 (.inl rfl)⟩
    cases mark with
    | mark task finished done =>
      exact known.clean (.mark task finished done) rfl rfl
        (schedProcMarkFinishedTasksRemoved_marks done).total
  · refine ⟨?_, (known.leftToRemove_step reset nofun).2 (.inr rfl)⟩
    cases reset with
    | reset proc within nonempty removed =>
        exact known.clean (.reset proc within nonempty removed) rfl rfl rfl

theorem Known.removing (known : Known sys) (removing : Removing sys next) :
    Cleans sys next ∧ (next = sys ∨ leftToRemove next.sched < leftToRemove sys.sched) := by
  induction removing with
  | refl => exact ⟨⟨.refl sys, rfl, rfl, rfl, known⟩, .inl rfl⟩
  | tail _ step before =>
    have one := before.1.known.removal step
    refine ⟨before.1.trans one.1, .inr ?_⟩
    rcases before.2 with same | less
    · exact same ▸ one.2
    · exact one.2.trans less

/-- The ring has room, or its oldest task has a status of this kind. -/
def RoomOr (kind : Status → Prop) (proc : Nat) (sched : TaskSched Tag) : Prop :=
  (sched.subProc proc).ringFull = false ∨
  kind (sched.taskNodes ⟨proc, (sched.subProc proc).taskTail⟩).status

theorem RoomOr.removing {kind : Status → Prop} {proc : Nat} (room : RoomOr kind proc sys.sched)
    (closed : ∀ status, kind status → kind .removed) (removing : Removing sys next) :
    RoomOr kind proc next.sched := by
  induction removing with
  | refl => exact room
  | @tail middle _ _ step before =>
    rcases step with mark | reset
    · cases mark with
      | mark task finished done =>
        have marks := schedProcMarkFinishedTasksRemoved_marks done
        unfold RoomOr
        rw [marks.rings]
        refine before.imp_right fun isKind => ?_
        rcases marks.status ⟨proc, (middle.sched.subProc proc).taskTail⟩ with same | removed
        · rw [same]
          exact isKind
        · rw [removed]
          exact closed _ isKind
    · cases reset with
      | reset other =>
        by_cases same : proc = other
        · exact .inl (by simp [resetTail, TaskSched.setSubProc, same])
        · have ring : (resetTail middle.sched other).subProc proc = middle.sched.subProc proc :=
            update_of_ne same _ _
          unfold RoomOr
          rw [ring, resetTail_of_ne rfl fun sameNode => same (congrArg NodeId.proc sameNode)]
          exact before

/-- A call returns, in a state that a removal gets to. -/
def Removes (sys : System Tag) (result : Except Panic (TaskSched Tag)) : Prop :=
  ∃ next, Removing sys next ∧ result = .ok next.sched

theorem removes_nothing (sys : System Tag) : Removes sys (.ok sys.sched) := ⟨sys, .refl, rfl⟩

section
variable {proc fuel pos : Nat} (known : Known sys)
include known

variable (fuel) in
theorem mark_then (finished : (sys.sched.taskNodes ⟨proc, pos⟩).status = .finished)
    (further : ∀ marked : System Tag, Known marked →
      Removes marked
      (setTasksRemovedLoop proc fuel (advance marked.sched.taskQueueDepth pos) marked.sched)) :
    ∃ marked next, Removal sys marked ∧ marked.sched.subProc = sys.sched.subProc ∧
      (marked.sched.taskNodes ⟨proc, pos⟩).status = .removed ∧ Removing marked next ∧
      setTasksRemovedLoop proc (fuel + 1) pos sys.sched = .ok next.sched := by
  obtain ⟨_, _, inv⟩ := known.inv
  obtain ⟨after, isMarked, -, -, removed⟩ := inv.mark_ok known.queued finished
  have step : Step .mark sys { sys with
      sched := after, removed := sys.removed ++ newlyRemoved sys.sched after sys.added } :=
        .mark _ finished isMarked
  have onward : Removes { sys with
      sched := after, removed := sys.removed ++ newlyRemoved sys.sched after sys.added }
      (if pos = (after.subProc proc).taskHead then .ok after
        else setTasksRemovedLoop proc fuel (advance after.taskQueueDepth pos) after) := by
    split
    · exact removes_nothing _
    · exact further _ (known.step step)
  obtain ⟨next, removing, isNext⟩ := onward
  refine ⟨_, next, .inl step, (schedProcMarkFinishedTasksRemoved_marks isMarked).rings, removed,
    removing, ?_⟩
  rw [setTasksRemovedLoop, finished]
  dsimp only
  rw [isMarked]
  exact isNext

theorem setTasksRemovedLoop_removes :
    Removes sys (setTasksRemovedLoop proc fuel pos sys.sched) := by
  induction fuel generalizing pos sys with
  | zero => exact removes_nothing sys
  | succ _ further =>
    cases status : (sys.sched.taskNodes ⟨proc, pos⟩).status with
    | finished =>
      obtain ⟨marked, next, step, -, -, removing, isNext⟩ :=
        mark_then _ known status fun _ reached => further reached
      exact ⟨next, .head step removing, isNext⟩
    | removed =>
      rw [setTasksRemovedLoop, status]
      dsimp only
      split
      · exact removes_nothing sys
      · exact further known
    | _ =>
      rw [setTasksRemovedLoop, status]
      exact removes_nothing sys

theorem resetRemovedLoop_removes (within : proc < sys.sched.totalProc) :
    Removes sys (.ok (resetRemovedLoop proc fuel sys.sched)) := by
  induction fuel generalizing sys with
  | zero => exact removes_nothing sys
  | succ _ further =>
    rw [resetRemovedLoop]
    split
    · exact removes_nothing sys
    next nonempty =>
      split_ifs with notRemoved
      · exact removes_nothing sys
      have step := Step.reset proc within (Bool.eq_false_iff.mpr nonempty) (not_not.mp notRemoved)
      obtain ⟨next, removing, isNext⟩ := further (known.step step) within
      exact ⟨next, .head (.inr step) removing, isNext⟩

variable (fuel) in
theorem resetRemovedLoop_resets (within : proc < sys.sched.totalProc)
    (nonempty : taskQueueIsEmpty (sys.sched.subProc proc) = false)
    (removed : (sys.sched.taskNodes ⟨proc, (sys.sched.subProc proc).taskTail⟩).status = .removed) :
    Step .reset sys { sys with sched := resetTail sys.sched proc } ∧
      ∃ next, Removing { sys with sched := resetTail sys.sched proc } next ∧
        resetRemovedLoop proc (fuel + 1) sys.sched = next.sched := by
  have step := Step.reset proc within nonempty removed
  refine ⟨step, ?_⟩
  obtain ⟨next, removing, isNext⟩ := resetRemovedLoop_removes (known.step step) within
  refine ⟨next, removing, ?_⟩
  rw [resetRemovedLoop, nonempty, if_neg (by simp), if_neg (by simp [removed])]
  exact Except.ok.inj isNext

end

/-- The turn of one ring in a pass over all rings. -/
def Turn (body : TaskSched Tag → Nat → Except Panic (TaskSched Tag)) (sys last : System Tag)
    (proc : Nat) : Prop :=
  ∃ before after, Removing sys before ∧ body before.sched proc = .ok after.sched ∧
    Removing before after ∧ Removing after last

theorem foldlM_turns {body : TaskSched Tag → Nat → Except Panic (TaskSched Tag)} {procs : List Nat}
    (each : ∀ proc ∈ procs, ∀ before, Removing sys before →
      Removes before (body before.sched proc)) : ∃ last, Removing sys last ∧
      procs.foldlM body sys.sched = .ok last.sched ∧ ∀ proc ∈ procs, Turn body sys last proc := by
  induction procs generalizing sys with
  | nil => exact ⟨sys, .refl, rfl, by simp⟩
  | cons proc _ further =>
    obtain ⟨next, one, isNext⟩ := each proc mem_cons_self sys .refl
    obtain ⟨last, more, isLast, turns⟩ := further fun other mem before reached =>
      each other (mem_cons_of_mem _ mem) before (one.trans reached)
    refine ⟨last, one.trans more, ?_, forall_mem_cons.mpr ⟨⟨sys, next, .refl, isNext, one, more⟩,
      fun other mem => ?_⟩⟩
    · rw [foldlM_cons, isNext]
      exact isLast
    · obtain ⟨before, after, front, turn⟩ := turns other mem
      exact ⟨before, after, one.trans front, turn⟩

def setRingRemoved (sched : TaskSched Tag) (proc : Nat) : Except Panic (TaskSched Tag) :=
  if taskQueueIsEmpty (sched.subProc proc) then .ok sched
  else setTasksRemovedLoop proc (sched.taskQueueDepth + 1) (sched.subProc proc).taskTail sched

def resetRing (sched : TaskSched Tag) (proc : Nat) : Except Panic (TaskSched Tag) :=
  pure (resetRemovedLoop proc sched.taskQueueDepth sched)

theorem polarSchedRemoveFinishedTask_turns (known : Known sys) :
    ∃ marked last, Removing sys marked ∧ Removing marked last ∧
    polarSchedRemoveFinishedTask sys.sched = .ok last.sched ∧
    ∀ proc < sys.sched.totalProc, Turn setRingRemoved sys marked proc ∧
    Turn resetRing marked last proc := by
  obtain ⟨marked, one, isMarked, marks⟩ : ∃ marked, Removing sys marked ∧
      (range sys.sched.totalProc).foldlM setRingRemoved sys.sched = .ok marked.sched ∧ _ := by
    refine foldlM_turns fun proc _ before reached => ?_
    unfold setRingRemoved
    split
    · exact removes_nothing before
    · exact setTasksRemovedLoop_removes (known.removing reached).1.known
  have cleaned := (known.removing one).1
  obtain ⟨last, two, isLast, resets⟩ : ∃ last, Removing marked last ∧
      (range marked.sched.totalProc).foldlM resetRing marked.sched = .ok last.sched ∧ _ := by
    refine foldlM_turns fun proc mem before reached => ?_
    have more := (cleaned.known.removing reached).1
    exact resetRemovedLoop_removes more.known (more.total.symm ▸ mem_range.mp mem)
  refine ⟨marked, last, one, two, ?_, fun proc within => ⟨marks proc (mem_range.mpr within), ?_⟩⟩
  · unfold resetRing at isLast
    rw [foldlM_pure] at isLast
    change (polarSchedProcSetTasksRemoved sys.sched >>= _) = _
    rw [show polarSchedProcSetTasksRemoved sys.sched = .ok marked.sched from isMarked]
    exact isLast
  · exact resets proc (mem_range.mpr (cleaned.total.symm ▸ within))

section
variable {proc : Nat} {after : TaskSched Tag} (known : Known sys)
  (within : proc < sys.sched.totalProc)
  (ok : polarSchedRemoveFinishedTask sys.sched = .ok after)
include known within ok

/-- A call that finds a finished or removed task at the tail of a ring leaves less to remove. -/
theorem polarSchedRemoveFinishedTask_fewer
    (nonempty : taskQueueIsEmpty (sys.sched.subProc proc) = false)
    (gone : (sys.sched.taskNodes ⟨proc, (sys.sched.subProc proc).taskTail⟩).status = .finished ∨
      (sys.sched.taskNodes ⟨proc, (sys.sched.subProc proc).taskTail⟩).status = .removed) :
    leftToRemove after < leftToRemove sys.sched := by
  obtain ⟨marked, last, one, two, isLast, turns⟩ := polarSchedRemoveFinishedTask_turns known
  rw [isLast] at ok
  cases ok
  by_contra notLess
  -- otherwise no ring changes anything in its turn
  have unmoved : ∀ middle, Removing sys middle → Removing middle last → middle = sys := by
    intro middle front back
    have reached := known.removing front
    refine reached.2.resolve_right fun less => notLess ?_
    rcases (reached.1.known.removing back).2 with same | more
    · exact same ▸ less
    · exact more.trans less
  have never : ∀ middle next, Removal sys middle → Removing middle next →
    next.sched ≠ sys.sched := by
    intro middle next step removing same
    have first := known.removal step
    rcases (first.1.known.removing removing).2 with stays | less
    · rw [← stays, same] at first
      exact lt_irrefl _ first.2
    · rw [same] at less
      exact lt_asymm less first.2
  obtain ⟨⟨before, later, front, turn, between, back⟩, ⟨before', later', front', turn', between',
    back'⟩⟩ :=
    turns proc within
  rcases gone with finished | removed
  · rw [unmoved before front (between.trans (back.trans two)),
      unmoved later (front.trans between) (back.trans two)] at turn
    obtain ⟨middle, next, step, -, -, removing, isNext⟩ :=
      mark_then sys.sched.taskQueueDepth known finished fun _ reached =>
      setTasksRemovedLoop_removes reached
    rw [setRingRemoved, nonempty, if_neg (by simp), isNext] at turn
    exact never middle next step removing (Except.ok.inj turn)
  · rw [unmoved before' (one.trans front') (between'.trans back'),
      unmoved later' (one.trans (front'.trans between')) back'] at turn'
    obtain ⟨_, _, inv⟩ := known.inv
    obtain ⟨depth, isDepth⟩ := Nat.exists_eq_succ_of_ne_zero inv.rings.depth.ne'
    obtain ⟨step, next, removing, isNext⟩ :=
      resetRemovedLoop_resets depth known within nonempty removed
    rw [resetRing, isDepth, isNext] at turn'
    exact never _ next (.inr step) removing (Except.ok.inj turn')

/-- A ring that was full has room after the call if its oldest task was finished. -/
theorem polarSchedRemoveFinishedTask_room
    (room : RoomOr (fun status => status = .finished ∨ status = .removed) proc sys.sched) :
    (after.subProc proc).ringFull = false := by
  obtain ⟨marked, last, one, two, isLast, turns⟩ := polarSchedRemoveFinishedTask_turns known
  rw [isLast] at ok
  cases ok
  have full : ∀ {sched : TaskSched Tag}, (sched.subProc proc).ringFull ≠ false →
      taskQueueIsEmpty (sched.subProc proc) = false := by
    intro _ isFull
    simp [taskQueueIsEmpty, isFull]
  obtain ⟨⟨before, later, front, turn, between, back⟩, ⟨before', later', front', turn', between',
    back'⟩⟩ :=
    turns proc within
  have removedFirst : RoomOr (fun status => status = .removed) proc later.sched := by
    rcases room.removing (fun _ _ => .inr rfl) front with hasRoom | finished | removed
    · exact RoomOr.removing (.inl hasRoom) (fun _ _ => rfl) between
    · by_cases hasRoom : (before.sched.subProc proc).ringFull = false
      · exact RoomOr.removing (.inl hasRoom) (fun _ _ => rfl) between
      obtain ⟨middle, next, -, rings, removed, removing, isNext⟩ :=
        mark_then before.sched.taskQueueDepth (known.removing front).1.known finished
          fun _ reached => setTasksRemovedLoop_removes reached
      rw [setRingRemoved, full hasRoom, if_neg (by simp), isNext] at turn
      rw [← Except.ok.inj turn]
      exact RoomOr.removing (.inr (rings ▸ removed)) (fun _ _ => rfl) removing
    · exact RoomOr.removing (.inr removed) (fun _ _ => rfl) between
  have cleaned := (known.removing one).1
  have hasRoom : RoomOr (fun _ => False) proc later'.sched := by
    rcases (removedFirst.removing (fun _ _ => rfl) back).removing (fun _ _ => rfl) front' with
      hasRoom | removed
    · exact RoomOr.removing (.inl hasRoom) (fun _ => id) between'
    · by_cases hasRoom : (before'.sched.subProc proc).ringFull = false
      · exact RoomOr.removing (.inl hasRoom) (fun _ => id) between'
      have reached := (known.removing (one.trans front')).1
      obtain ⟨_, _, inv⟩ := reached.known.inv
      obtain ⟨depth, isDepth⟩ := Nat.exists_eq_succ_of_ne_zero inv.rings.depth.ne'
      obtain ⟨-, next, removing, isNext⟩ :=
        resetRemovedLoop_resets depth reached.known (reached.total.symm ▸ within)
        (full hasRoom) removed
      rw [resetRing, isDepth, isNext] at turn'
      rw [← Except.ok.inj turn']
      exact RoomOr.removing (.inl (by simp [resetTail, TaskSched.setSubProc]))
        (fun _ => id) removing
  exact (hasRoom.removing (fun _ => id) back').resolve_right id

end

end PolarDB.ProcPool.Pool
