import PolarDB.ProcPool.PoolWorker

/-!
# Fetching a task
-/

namespace PolarDB.ProcPool.Pool

open List ProcPool.Sched
open Function ProcPool.Execution

variable {Tag : Type} {sched : TaskSched Tag} {sub : SubTask} {proc : Nat}

def delays (tasks : List (NodeId × Nat)) : Nat := (tasks.map Prod.snd).sum

theorem fetchFromRepeatList_spec {tasks : List (NodeId × Nat)}
    (running : ∀ node ∈ tasks.map Prod.fst, (sched.taskNodes node).status = .running) :
    ∃ found rest, fetchFromRepeatList sched tasks = .ok (found, rest) ∧
      (found.toList ++ rest.map Prod.fst).Perm (tasks.map Prod.fst) ∧ delays rest ≤ delays tasks ∧
      (found = none → tasks ≠ [] → delays rest < delays tasks) := by
  induction tasks with
  | nil => exact ⟨none, [], rfl, List.Perm.refl _, le_rfl, fun _ nonempty => absurd rfl nonempty⟩
  | cons first others step =>
    obtain ⟨task, delay⟩ := first
    have atFirst := running task mem_cons_self
    obtain ⟨found, rest, later, kept, _, -⟩ := step fun node mem =>
      running node (mem_cons_of_mem _ mem)
    have whole : ∀ tasks, delays ((task, delay) :: tasks) = delay + delays tasks :=
      fun _ => sum_cons
    by_cases isOver : delay = 0
    · refine ⟨some task, others, ?_, List.Perm.refl _, ?_, nofun⟩
      · rw [fetchFromRepeatList, if_neg (not_not.mpr atFirst), if_pos isOver]
      · rw [whole]
        exact Nat.le_add_left _ _
    refine ⟨found, (task, delay - 1) :: rest, ?_, perm_middle.trans (kept.cons task), ?_, ?_⟩
    · rw [fetchFromRepeatList, if_neg (not_not.mpr atFirst), if_neg isOver, later]
    · rw [whole]
      change delay - 1 + delays rest ≤ _
      omega
    · intro _ _
      rw [whole]
      change delay - 1 + delays rest < _
      omega

theorem fetchFromHoldList_spec {tasks : List NodeId}
    (unfinished : ∀ node ∈ tasks, Unfinished (sched.taskNodes node)) :
    ∃ found rest, fetchFromHoldList sched tasks = .ok (found, rest) ∧
      (found.toList ++ rest).Perm tasks ∧
      (∀ task, found = some task → (sched.taskNodes task).status = .running) ∧
      (found = none → ∀ task ∈ tasks, (sched.taskNodes task).status = .hold) := by
  induction tasks with
  | nil =>
    refine ⟨none, [], rfl, List.Perm.refl _, nofun, ?_⟩
    exact nofun
  | cons task others step =>
    rcases unfinished task mem_cons_self with running | held
    · refine ⟨some task, others, ?_, List.Perm.refl _, ?_, nofun⟩
      · rw [fetchFromHoldList, running]
      · intro other isSome
        cases isSome
        exact running
    · obtain ⟨found, rest, later, kept, runs, holds⟩ := step fun node mem =>
        unfinished node (mem_cons_of_mem _ mem)
      refine ⟨found, task :: rest, ?_, perm_middle.trans (kept.cons task), runs, ?_⟩
      · rw [fetchFromHoldList, held, later]
      · intro isNone
        exact forall_mem_cons.mpr ⟨held, holds isNone⟩

variable {sys : System Tag} {start fetched : Nat → Nat}

def fetchIndex (depth : Nat) (sub : SubTask) : Nat := if depth ≤ sub.fetchTaskIdx then 0
    else sub.fetchTaskIdx

theorem Fetched.next_index {nodes : NodeId → TaskNode Tag} {depth : Nat} {worker : Nat → SubTask}
    {count start fetched : Nat → Nat} {added : List (Placed Tag)}
    (reading : Fetched nodes depth worker count start fetched added) (proc : Nat) :
    fetchIndex depth (worker proc) = fetched proc % depth := by
  have idx := reading.index proc
  unfold fetchIndex
  split_ifs with wraps
  · have whole : (worker proc).fetchTaskIdx = depth := Nat.le_antisymm idx.2 wraps
    rw [← idx.1, whole, Nat.mod_self]
  · rw [← idx.1, Nat.mod_eq_of_lt (Nat.lt_of_not_le wraps)]

@[simp]
theorem setWorker_worker : (sys.setWorker proc sub).worker proc = sub := by
  simp only [System.setWorker, update_self]

@[simp]
theorem setWorker_setWorker (other : SubTask) :
    (sys.setWorker proc sub).setWorker proc other = sys.setWorker proc other := by
  simp only [System.setWorker, update_idem]

variable [DecidableEq Tag]

theorem Inv.next_task (inv : Inv sys start fetched) (fresh : (sys.worker proc).maxFetchSeq <
      (sys.sched.taskNodes ⟨proc, fetchIndex sys.sched.taskQueueDepth (sys.worker proc)⟩).addSeq) :
    ∃ task ∈ sys.added, task.node = ⟨proc, fetchIndex sys.sched.taskQueueDepth (sys.worker proc)⟩ ∧
      task.seq = (sys.sched.taskNodes task.node).addSeq ∧ task.position = fetched proc := by
  obtain ⟨task, mem, isNode, _, isSeq, -⟩ :=
    task_of_node inv.rings (ne_of_gt (Nat.zero_lt_of_lt fresh))
  refine ⟨task, mem, isNode, by rw [isNode]; exact isSeq, ?_⟩
  have isProc : task.node.proc = proc := by rw [isNode]
  have isIndex : task.node.index = fetched proc % sys.sched.taskQueueDepth := by
    rw [isNode]
    exact inv.fetched.next_index proc
  have placed := inv.history.placed task mem
  have seen := inv.fetched.seq task mem
  have window := inv.rings.window proc
  have within := inv.fetched.within proc
  rw [isProc] at placed seen
  rw [placed.2.1] at isIndex
  by_contra apart
  exact Lib.Circular.mod_ne_of_lt (show fetched proc < task.position by omega) (by omega)
    isIndex.symm

section Take

variable {task : Placed Tag} (inv : Inv sys start fetched) (mem : task ∈ sys.added)
  (isProc : task.node.proc = proc) (isNext : task.position = fetched proc)

include inv mem isProc isNext

theorem Inv.next_above : (sys.worker proc).maxFetchSeq < task.seq := by
  have seen := inv.fetched.seq task mem
  rw [isProc] at seen
  omega

theorem Inv.seen_next {other : Placed Tag} (otherMember : other ∈ sys.added)
    (otherProc : other.node.proc = proc) : other.seq ≤ task.seq ↔
    other.position < fetched proc + 1 := by
  have along := inv.history.along task mem other otherMember (isProc.trans otherProc.symm)
  omega

theorem Inv.is_next {node : NodeId} (nodeProc : node.proc = proc)
    (occupied : (sys.sched.taskNodes node).addSeq ≠ 0)
    (fresh : ¬ (sys.sched.taskNodes node).addSeq ≤ (sys.worker proc).maxFetchSeq)
    (small : (sys.sched.taskNodes node).addSeq ≤ task.seq) : node = task.node := by
  obtain ⟨other, otherMember, isNode, -, _, -⟩ := task_of_node inv.rings occupied
  have otherProc : other.node.proc = proc := by rw [isNode, nodeProc]
  have seen := inv.fetched.seq other otherMember
  rw [otherProc] at seen
  have isSeen := inv.seen_next mem isProc isNext otherMember otherProc
  have isTask := inv.history.eq_of_position otherMember mem (otherProc.trans isProc.symm) (by omega)
  rw [← isNode, isTask]

theorem Inv.take_fetched (seq : sub.maxFetchSeq = task.seq)
    (idx : sub.fetchTaskIdx = fetched proc % sys.sched.taskQueueDepth + 1) :
    Fetched sys.sched.taskNodes sys.sched.taskQueueDepth (update sys.worker proc sub) sys.count
      start (update fetched proc (fetched proc + 1)) sys.added := by
  have reading := inv.fetched
  constructor
  · intro other
    by_cases same : other = proc
    · have within := reading.within proc
      have placed := (inv.history.placed task mem).2.2
      rw [isProc] at placed
      rw [same, update_self]
      omega
    · rw [update_of_ne same]
      exact reading.within other
  · intro other
    rw [update_apply, update_apply]
    split_ifs
    · rw [idx, Nat.mod_add_mod]
      exact ⟨rfl, Nat.mod_lt _ inv.rings.depth⟩
    · exact reading.index other
  · intro other otherMember
    rw [update_apply, update_apply]
    split_ifs with same
    · rw [seq]
      exact inv.seen_next mem isProc isNext otherMember same
    · exact reading.seq other otherMember
  · intro node isDone
    have small := reading.done node isDone
    by_cases same : node.proc = proc
    · have above := inv.next_above mem isProc isNext
      rw [same] at small
      rw [same, update_self, seq]
      exact small.trans (above.le)
    · rw [update_of_ne same]
      exact small

variable (isSeq : task.seq = (sys.sched.taskNodes task.node).addSeq)
include isSeq

section
variable (unfinished : Unfinished (sys.sched.taskNodes task.node))
  (hand : (inHand sub).Perm (task.node :: inHand (sys.worker proc)))
  (seq : sub.maxFetchSeq = task.seq)
  (busy : ∀ node ∈ inHandler sub.activity ++ sub.repeatTasks.map Prod.fst,
    (sys.sched.taskNodes node).status = .running) (after : Calm sub.activity)
include unfinished hand seq busy after

theorem Inv.take_hands : Hands sys.sched.taskNodes (update sys.worker proc sub) := by
  have hands := inv.hands
  have above := inv.next_above mem isProc isNext
  constructor
  · intro other
    rw [update_apply]
    split_ifs
    · rw [hand.nodup_iff, nodup_cons]
      refine ⟨?_, hands.nodup proc⟩
      intro already
      have there := (hands.member proc task.node).mp already
      omega
    · exact hands.nodup other
  · intro other node
    rw [update_apply]
    split_ifs with same
    · rw [same, hand.mem_iff, mem_cons, hands.member, seq]
      constructor
      · rintro (isTask | there)
        · rw [isTask, ← isSeq]
          exact ⟨isProc, ne_of_gt (Nat.zero_lt_of_lt above), le_rfl, unfinished⟩
        · exact ⟨there.1, there.2.1, there.2.2.1.trans (above.le), there.2.2.2⟩
      · rintro ⟨nodeProc, occupied, small, nodeUnfinished⟩
        by_cases old : (sys.sched.taskNodes node).addSeq ≤ (sys.worker proc).maxFetchSeq
        · exact .inr ⟨nodeProc, occupied, old, nodeUnfinished⟩
        · exact .inl (inv.is_next mem isProc isNext nodeProc occupied old small)
    · exact hands.member other node
  · intro other
    rw [update_apply]
    split_ifs
    · exact busy
    · exact hands.busy other
  · exact hands.alone_update after

theorem Inv.take (idx : sub.fetchTaskIdx = fetched proc % sys.sched.taskQueueDepth + 1)
    (before : (sys.worker proc).activity = .fetching)
    (notHandled : ∀ node, sub.activity ≠ .handled node) :
    Inv (sys.setWorker proc sub) start (update fetched proc (fetched proc + 1)) := by
  have calm : Calm (sys.worker proc).activity := by
    rw [before]
    exact calm_fetching
  constructor
  · exact inv.history
  · exact inv.rings
  · have chains := inv.chains
    rw [← releasing_update calm after] at chains
    exact chains
  · exact inv.take_hands mem isProc isNext isSeq unfinished hand seq busy after
  · exact inv.take_fetched mem isProc isNext seq idx
  · apply inv.ledger.congr
    · intro node
      apply (over_update _ (notHandled node)).symm
      rw [before]
      exact nofun
    · exact fun _ removed => removed
  · apply bounded_update inv.bounded
    rw [seq]
    exact (inv.history.numbered task mem).2

end

variable (fetching : (sys.worker proc).activity = .fetching)
include fetching

theorem Inv.take_running (status : (sys.sched.taskNodes task.node).status = .running) :
    Inv (sys.setWorker proc { sys.worker proc with
        fetchTaskIdx := fetchIndex sys.sched.taskQueueDepth (sys.worker proc) + 1
        maxFetchSeq := (sys.sched.taskNodes task.node).addSeq
        activity := .handling task.node })
      start (update fetched proc (fetched proc + 1)) := by
  have busy := inv.hands.busy proc
  rw [fetching] at busy
  apply inv.take mem isProc isNext isSeq (.inl status)
  · unfold inHand
    rw [fetching]
    exact List.Perm.refl _
  · exact isSeq.symm
  · exact forall_mem_cons.mpr ⟨status, busy⟩
  · exact calm_handling _
  · rw [inv.fetched.next_index proc]
  · exact fetching
  · exact fun _ => nofun

theorem Inv.take_held (status : (sys.sched.taskNodes task.node).status = .hold) :
    Inv (sys.setWorker proc { sys.worker proc with
        fetchTaskIdx := fetchIndex sys.sched.taskQueueDepth (sys.worker proc) + 1
        maxFetchSeq := (sys.sched.taskNodes task.node).addSeq
        holdTasks := (sys.worker proc).holdTasks ++ [task.node] })
      start (update fetched proc (fetched proc + 1)) := by
  have busy := inv.hands.busy proc
  apply inv.take mem isProc isNext isSeq (.inr status)
  · unfold inHand
    rw [← append_assoc]
    exact perm_append_singleton _ _
  · exact isSeq.symm
  · exact busy
  · rw [fetching]
    exact calm_fetching
  · rw [inv.fetched.next_index proc]
  · exact fetching
  · rw [fetching]
    exact fun _ => nofun

end Take

variable (inv : Inv sys start fetched)
include inv

theorem Inv.all_seen (old : (sys.sched.taskNodes ⟨proc,
      fetchIndex sys.sched.taskQueueDepth (sys.worker proc)⟩).addSeq ≤
      (sys.worker proc).maxFetchSeq) : fetched proc = sys.count proc := by
  have within := inv.fetched.within proc
  by_contra behind
  obtain ⟨task, mem, isProc, isNext⟩ := inv.history.filled proc (fetched proc) (by omega)
  have live : Live start task := by
    rw [Live, isProc, isNext]
    exact within.1
  have isNode : task.node = ⟨proc, fetchIndex sys.sched.taskQueueDepth (sys.worker proc)⟩ := by
    rw [inv.fetched.next_index proc, ← isNext, ← (inv.history.placed task mem).2.1, ← isProc]
  have stored := (inv.rings.live task mem live).1
  have above := inv.next_above mem isProc isNext
  rw [isNode] at stored
  omega

variable (fetching : (sys.worker proc).activity = .fetching)
include fetching

theorem Inv.turn_index : Inv (sys.setWorker proc { sys.worker proc with
      fetchTaskIdx := fetchIndex sys.sched.taskQueueDepth (sys.worker proc) }) start fetched := by
  apply inv.rearrange
  · exact List.Perm.refl _
  · rfl
  · rw [inv.fetched.next_index proc, Nat.mod_mod]
    exact ⟨rfl, (Nat.mod_lt _ inv.rings.depth).le⟩
  · exact inv.hands.busy proc
  all_goals rw [fetching]
  · exact calm_fetching
  · exact calm_fetching
  · exact fun _ => nofun
  · exact fun _ => nofun

structure AfterQueue (sys : System Tag) (proc : Nat) (start after : Nat → Nat)
    (res : Option NodeId × SubTask) : Prop where
  inv : Inv (sys.setWorker proc (afterFetch res)) start after
  activity : res.2.activity = .fetching
  repeated : res.2.repeatTasks = (sys.worker proc).repeatTasks
  all : res.1 = none → after proc = sys.count proc
  held : res.1 = none → ∀ node ∈ res.2.holdTasks,
    node ∈ (sys.worker proc).holdTasks ∨ (sys.sched.taskNodes node).status = .hold

/-- The loop over the ring takes the new tasks up to the first that may run. -/
theorem Inv.fetch_queue {fuel : Nat} (enough : sys.count proc < fetched proc + fuel) :
    ∃ res after, fetchFromQueue sys.sched proc fuel (sys.worker proc) = .ok res ∧
      AfterQueue sys proc start after res := by
  induction fuel generalizing sys fetched with
  | zero =>
    have within := inv.fetched.within proc
    omega
  | succ fuel step =>
    unfold fetchFromQueue
    rw [← fetchIndex]
    by_cases old :
      (sys.sched.taskNodes ⟨proc, fetchIndex sys.sched.taskQueueDepth (sys.worker proc)⟩).addSeq ≤
        (sys.worker proc).maxFetchSeq
    · rw [if_pos old]
      exact ⟨_, fetched, rfl, inv.turn_index fetching, fetching, rfl, fun _ => inv.all_seen old,
        fun _ _ => .inl⟩
    obtain ⟨task, mem, isNode, isSeq, isNext⟩ := inv.next_task (Nat.lt_of_not_le old)
    have isProc : task.node.proc = proc := by rw [isNode]
    have live : Live start task := live_of_seq inv.history inv.rings mem isSeq.symm
    have notIdle := (inv.rings.live task mem live).2.2
    rw [if_neg old, ← isNode]
    rw [← isNode] at old
    have notDone : ¬ ((sys.sched.taskNodes task.node).status = .finished ∨
        (sys.sched.taskNodes task.node).status = .removed) := by
      intro done
      have seen := inv.fetched.done task.node done
      rw [isProc] at seen
      exact old seen
    cases status : (sys.sched.taskNodes task.node).status with
    | running =>
      exact ⟨_, _, rfl, inv.take_running mem isProc isNext isSeq fetching status, fetching, rfl,
        nofun, nofun⟩
    | hold =>
      have taken := inv.take_held mem isProc isNext isSeq fetching status
      have enoughLeft : sys.count proc < fetched proc + 1 + fuel := by omega
      obtain ⟨res, after, ok, left⟩ := step taken (by rw [setWorker_worker]; exact fetching)
        (by rw [update_self]; exact enoughLeft)
      have keeps := left.inv
      rw [setWorker_worker] at ok
      rw [setWorker_setWorker] at keeps
      refine ⟨res, after, ok, keeps, left.activity, left.repeated.trans ?_, left.all, ?_⟩
      · rw [setWorker_worker]
      intro isNone node inHold
      rcases left.held isNone node inHold with before | held
      · rw [setWorker_worker] at before
        rcases mem_append.mp before with earlier | isTask
        · exact .inl earlier
        · rw [mem_singleton.mp isTask]
          exact .inr status
      · exact .inr held
    | idle => exact absurd status notIdle
    | finished => exact absurd (.inl status) notDone
    | removed => exact absurd (.inr status) notDone

theorem Inv.sort_hand {repeats : List (NodeId × Nat)} {holds : List NodeId} {activity : Activity}
    (same : (inHandler activity ++ repeats.map Prod.fst ++ holds).Perm
      ((sys.worker proc).repeatTasks.map Prod.fst ++ (sys.worker proc).holdTasks))
    (busy : ∀ node ∈ inHandler activity ++ repeats.map Prod.fst,
      (sys.sched.taskNodes node).status = .running) (after : Calm activity)
    (notHandled : ∀ node, activity ≠ .handled node) : Inv (sys.setWorker proc { sys.worker proc with
      repeatTasks := repeats, holdTasks := holds, activity := activity }) start fetched := by
  apply inv.rearrange
  · apply same.trans
    unfold inHand
    rw [fetching]
    exact List.Perm.refl _
  · rfl
  · exact inv.fetched.index proc
  · exact busy
  · rw [fetching]
    exact calm_fetching
  · exact after
  · rw [fetching]
    exact fun _ => nofun
  · exact notHandled

structure AfterFetch (sys : System Tag) (proc : Nat) (start after : Nat → Nat)
    (res : Option NodeId × SubTask) : Prop where
  inv : Inv (sys.setWorker proc (afterFetch res)) start after
  activity : res.2.activity = .fetching
  fewer : delays res.2.repeatTasks ≤ delays (sys.worker proc).repeatTasks
  less : res.1 = none → (sys.worker proc).repeatTasks ≠ [] →
    delays res.2.repeatTasks < delays (sys.worker proc).repeatTasks
  repeated : res.1 = none → (res.2.repeatTasks.map Prod.fst).Perm
    ((sys.worker proc).repeatTasks.map Prod.fst)
  all : res.1 = none → after proc = sys.count proc
  held : res.1 = none → ∀ node ∈ res.2.holdTasks, (sys.sched.taskNodes node).status = .hold

/-- A fetching worker never panics; it takes a running task, or it has seen all tasks of its
ring. -/
theorem Inv.fetch : ∃ res after, fetchWaitingTaskNode sys.sched proc (sys.worker proc) = .ok res ∧
    AfterFetch sys proc start after res := by
  have busy := inv.hands.busy proc
  rw [fetching] at busy
  have unfinished : ∀ node ∈ (sys.worker proc).holdTasks,
    Unfinished (sys.sched.taskNodes node) := by
    intro node mem
    exact ((inv.hands.member proc node).mp (mem_append_right _ mem)).2.2.2
  obtain ⟨found, rest, repeated, kept, fewer, less⟩ := fetchFromRepeatList_spec busy
  have restBusy : ∀ node ∈ found.toList ++ rest.map Prod.fst, (sys.sched.taskNodes node).status =
    .running :=
    fun node mem => busy node (kept.mem_iff.mp mem)
  unfold fetchWaitingTaskNode
  rw [repeated]
  cases found with
  | some task =>
    refine ⟨_, fetched, rfl, ?_, fetching, fewer, nofun, nofun, nofun, nofun⟩
    exact inv.sort_hand fetching (kept.append_right _) restBusy (calm_handling task)
      (fun _ => nofun)
  | none =>
    obtain ⟨found, _, waiting, sameHold, runs, holds⟩ := fetchFromHoldList_spec unfinished
    rw [waiting]
    cases found with
    | some task =>
      refine ⟨_, fetched, rfl, ?_, fetching, fewer, nofun, nofun, nofun, nofun⟩
      apply inv.sort_hand fetching
      · exact perm_middle.symm.trans (kept.append sameHold)
      · exact forall_mem_cons.mpr ⟨runs task rfl, restBusy⟩
      · exact calm_handling task
      · exact fun _ => nofun
    | none =>
      have sorted : Inv (sys.setWorker proc { sys.worker proc with repeatTasks := rest }) start
        fetched := by
        have again : Inv (sys.setWorker proc { sys.worker proc with
            repeatTasks := rest, activity := .fetching }) start fetched :=
          inv.sort_hand fetching (kept.append_right _) restBusy calm_fetching (fun _ => nofun)
        rw [← fetching] at again
        exact again
      have window := inv.rings.window proc
      have within := inv.fetched.within proc
      obtain ⟨res, after, ok, left⟩ := sorted.fetch_queue (by rw [setWorker_worker]; exact fetching)
        (show sys.count proc < fetched proc + (sys.sched.taskQueueDepth + 1) by omega)
      have keeps := left.inv
      have sameRepeat := left.repeated
      rw [setWorker_worker] at ok sameRepeat
      rw [setWorker_setWorker] at keeps
      refine ⟨res, after, ok, keeps, left.activity, ?_, ?_, ?_, left.all, ?_⟩
      · rw [sameRepeat]
        exact fewer
      · rw [sameRepeat]
        exact fun _ => less rfl
      · rw [sameRepeat]
        exact fun _ => kept
      · intro isNone node inHold
        rcases left.held isNone node inHold with before | isHeld
        · rw [setWorker_worker] at before
          exact holds rfl node before
        · exact isHeld

end PolarDB.ProcPool.Pool
