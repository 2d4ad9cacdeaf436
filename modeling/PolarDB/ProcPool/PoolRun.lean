import PolarDB.ProcPool.PoolAdd
import PolarDB.ProcPool.PoolFetch
import PolarDB.ProcPool.PoolRelease

/-!
# Every run keeps the invariant

The worker that is next in turn is one of the pool, and only workers of the pool are busy.
-/

namespace PolarDB.ProcPool.Pool

open Function List ProcPool.Sched
open ProcPool.Execution

variable {Tag : Type} [DecidableEq Tag] {sys next : System Tag} {start fetched : Nat → Nat}
  {event : Event}

theorem inv_start (totalProc depth : Nat) (positive : 0 < depth) :
    Inv (startSystem totalProc depth : System Tag) (fun _ => 0) (fun _ => 0) := by
  have nothing : ∀ node, node ∉ ([] : List NodeId) := fun _ => not_mem_nil
  have none : ∀ task, task ∉ ([] : List (Placed Tag)) := fun _ => not_mem_nil
  constructor
  · exact ⟨List.Pairwise.nil, fun task mem => absurd mem (none task),
      fun task mem => absurd mem (none task), fun task mem => absurd mem (none task),
      fun _ pos small => absurd small (Nat.not_lt_zero pos)⟩
  · constructor
    · exact positive
    · exact fun _ => ⟨le_rfl, Nat.zero_le _⟩
    · intro proc
      have notFull : 0 ≠ 0 + depth := by omega
      exact ⟨(Nat.zero_mod depth).symm, (Nat.zero_mod depth).symm, iff_of_false nofun notFull⟩
    · exact fun task mem => absurd mem (none task)
    · exact fun _ occupied => absurd rfl occupied
    · exact fun _ _ => ⟨rfl, rfl⟩
  · constructor
    · exact fun _ node => iff_of_false (nothing node) (fun there => there.1 rfl)
    · exact fun _ => List.Pairwise.nil
    · exact fun _ => ⟨[], [], rfl, fun node mem => absurd mem (nothing node), trivial⟩
    · intro _ _ node _ whole
      exact absurd whole.symm (by simp [startSystem])
    · rintro node ⟨proc, releasing⟩
      exact nomatch releasing
  · constructor
    · exact fun _ => nodup_nil
    · exact fun _ node => iff_of_false (nothing node) (fun there => there.2.1 rfl)
    · exact fun _ node mem => absurd mem (nothing node)
    · exact fun _ _ _ releasing => nomatch releasing
  · constructor
    · exact fun _ => ⟨le_rfl, le_rfl⟩
    · exact fun _ => ⟨rfl, Nat.zero_le _⟩
    · exact fun task mem => absurd mem (none task)
    · exact fun _ _ => le_rfl
  · exact ⟨fun _ => prefix_rfl, fun task mem => absurd mem (none task),
      fun task mem => absurd mem (none task)⟩
  · exact fun _ => le_rfl

theorem Inv.step (inv : Inv sys start fetched) (step : Step event sys next) :
    ∃ later further, Inv next later further := by
  cases step with
  | add proc tag within room => exact ⟨_, _, inv.add within room tag⟩
  | mark task _ done => exact ⟨_, _, inv.mark done⟩
  | reset proc within nonempty removed => exact ⟨_, _, inv.reset nonempty removed⟩
  | choose dstProc started => exact ⟨_, _, inv.choose dstProc started⟩
  | fetch proc _ fetching ok =>
    obtain ⟨_, _, isResult, left⟩ := inv.fetch fetching
    rw [ok] at isResult
    injection isResult with same
    rw [same]
    exact ⟨_, _, left.inv⟩
  | notHandled proc task handling => exact ⟨_, _, inv.not_handled handling⟩
  | handled proc task _ handling known same => exact ⟨_, _, inv.handled handling known same⟩
  | finish proc task handled => exact ⟨_, _, inv.finish handled⟩
  | release _ successor releasing =>
    cases successor with
    | none => exact ⟨_, _, inv.release_none releasing⟩
    | some => exact ⟨_, _, inv.release releasing⟩

/-- Only the workers of the pool are at work, and the next one in turn is one of them. -/
structure Bounds (sys : System Tag) : Prop where
  idle : ∀ proc, sys.sched.totalProc ≤ proc → (sys.worker proc).activity = .fetching
  turn : 0 < sys.sched.totalProc → sys.sched.dstProc < sys.sched.totalProc

theorem idle_update {worker : Nat → SubTask} {total proc : Nat} {sub : SubTask}
    (idle : ∀ other, total ≤ other → (worker other).activity = .fetching) (within : proc < total) :
    ∀ other, total ≤ other → (update worker proc sub other).activity = .fetching := by
  intro other beyond
  have apart : other ≠ proc := by omega
  rw [update_of_ne apart]
  exact idle other beyond

omit [DecidableEq Tag] in
theorem Bounds.within (bounds : Bounds sys) {proc : Nat}
    (active : (sys.worker proc).activity ≠ .fetching) : proc < sys.sched.totalProc := by
  by_contra beyond
  exact active (bounds.idle proc (Nat.le_of_not_lt beyond))

variable {tag : Tag}

/-- What marking the tasks of a chain as removed leaves alone. -/
structure Marks (sched after : TaskSched Tag) : Prop where
  total : after.totalProc = sched.totalProc
  turn : after.dstProc = sched.dstProc
  depth : after.taskQueueDepth = sched.taskQueueDepth
  rings : after.subProc = sched.subProc
  addSeq : ∀ node, (after.taskNodes node).addSeq = (sched.taskNodes node).addSeq
  status : ∀ node, (after.taskNodes node).status = (sched.taskNodes node).status ∨
    (after.taskNodes node).status = .removed

omit [DecidableEq Tag] in
theorem Marks.refl (sched : TaskSched Tag) : Marks sched sched :=
  ⟨rfl, rfl, rfl, rfl, fun _ => rfl, fun _ => .inl rfl⟩

omit [DecidableEq Tag] in
theorem Marks.drop (sched : TaskSched Tag) (running : List NodeId) (hash : Tag → List NodeId)
    (first : NodeId) : Marks sched (TaskSched.setStatus { sched with
        runningTasks := running, taskHash := hash } first .removed) := by
  refine ⟨rfl, rfl, rfl, rfl, fun node => withStatus_addSeq node, fun node => ?_⟩
  by_cases isFirst : node = first
  · exact .inr (isFirst ▸ withStatus_self)
  · exact .inl (congrArg TaskNode.status (withStatus_of_ne isFirst))

omit [DecidableEq Tag] in
theorem Marks.trans {sched middle after : TaskSched Tag} (one : Marks sched middle)
    (two : Marks middle after) : Marks sched after where
  total := two.total.trans one.total
  turn := two.turn.trans one.turn
  depth := two.depth.trans one.depth
  rings := two.rings.trans one.rings
  addSeq node := (two.addSeq node).trans (one.addSeq node)
  status node := by
    rcases two.status node with same | removed
    · rw [same]
      exact one.status node
    · exact .inr removed

theorem markFinishedLoop_marks {task : NodeId} {chain : List NodeId} {sched after : TaskSched Tag}
    (ok : markFinishedLoop tag task chain sched = .ok after) : Marks sched after := by
  induction chain generalizing sched with
  | nil =>
    cases ok
    exact .refl _
  | cons _ _ step =>
    rw [markFinishedLoop] at ok
    split_ifs at ok
    · cases ok
      exact .drop _ _ _ _
    · exact (Marks.drop _ _ _ _).trans (step ok)

theorem schedProcMarkFinishedTasksRemoved_marks {task : NodeId} {sched after : TaskSched Tag}
    (ok : schedProcMarkFinishedTasksRemoved sched task = .ok after) : Marks sched after := by
  rw [schedProcMarkFinishedTasksRemoved] at ok
  cases hasTag : (sched.taskNodes task).tag with
  | none =>
    rw [hasTag] at ok
    cases ok
    exact .refl _
  | some =>
    rw [hasTag] at ok
    exact markFinishedLoop_marks ok

theorem Bounds.step (bounds : Bounds sys) (step : Step event sys next) : Bounds next := by
  cases step with
  | add proc tag within =>
    obtain ⟨sameTotal, -, -, -, -, sameTurn⟩ := polarSchedProcAddTask_rest sys.sched proc tag
    constructor
    · intro other beyond
      apply bounds.idle
      rw [← sameTotal]
      exact beyond
    · change 0 < (polarSchedProcAddTask sys.sched proc tag).totalProc →
        (polarSchedProcAddTask sys.sched proc tag).dstProc <
        (polarSchedProcAddTask sys.sched proc tag).totalProc
      rw [sameTotal, sameTurn]
      exact bounds.turn
  | @mark _ after task finished done =>
    obtain ⟨sameTotal, sameTurn, -⟩ := schedProcMarkFinishedTasksRemoved_marks done
    constructor
    · intro _ beyond
      apply bounds.idle
      rw [← sameTotal]
      exact beyond
    · rw [sameTotal, sameTurn]
      exact bounds.turn
  | reset proc within => exact ⟨bounds.idle, bounds.turn⟩
  | choose _ _ turn => exact ⟨bounds.idle, fun _ => turn⟩
  | fetch proc within _ ok => exact ⟨idle_update bounds.idle within, bounds.turn⟩
  | notHandled _ _ handling | handled _ _ _ handling =>
    exact ⟨idle_update bounds.idle (bounds.within (by rw [handling]; exact nofun)), bounds.turn⟩
  | finish proc task handled =>
    exact ⟨idle_update bounds.idle (bounds.within (by rw [handled]; exact nofun)), bounds.turn⟩
  | release proc successor releasing =>
    have within :=
      bounds.within (show (sys.worker proc).activity ≠ .fetching by rw [releasing]; exact nofun)
    cases successor with
    | none | some => exact ⟨idle_update bounds.idle within, bounds.turn⟩

theorem Bounds.run (bounds : Bounds sys) (run : Run sys next) : Bounds next := by
  induction run with
  | refl => exact bounds
  | tail _ step before => exact before.step step

theorem Inv.run (known : ∃ start fetched, Inv sys start fetched) (run : Run sys next) :
    ∃ start fetched, Inv next start fetched := by
  induction run with
  | refl => exact known
  | tail _ step before =>
    obtain ⟨_, _, inv⟩ := before
    exact inv.step step

omit [DecidableEq Tag] in
theorem bounds_start (totalProc depth : Nat) : Bounds (startSystem totalProc depth : System Tag) :=
  ⟨fun _ _ => rfl, fun positive => positive⟩

/-- What is known of every state that the pool can reach. -/
theorem Run.known {totalProc depth : Nat} (positive : 0 < depth)
    (run : Run (startSystem totalProc depth) sys) : (∃ start fetched, Inv sys start fetched) ∧
    Bounds sys :=
  ⟨Inv.run ⟨_, _, inv_start totalProc depth positive⟩ run, (bounds_start totalProc depth).run run⟩

theorem Run.trans {first middle last : System Tag} (one : Run first middle)
    (two : Run middle last) : Run first last := by
  induction two with
  | refl => exact one
  | tail _ step behind => exact behind.tail step

end PolarDB.ProcPool.Pool
