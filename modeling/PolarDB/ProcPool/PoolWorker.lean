import PolarDB.ProcPool.PoolRep

/-!
# The steps of a worker
-/

namespace PolarDB.ProcPool.Pool

open List ProcPool.Sched
open Function ProcPool.Execution

variable {Tag : Type} {nodes : NodeId → TaskNode Tag} {worker : Nat → SubTask} {sub : SubTask}
  {proc : Nat}

/-- The worker is not between finishing a task and releasing its successor. -/
def Calm (activity : Activity) : Prop := ∀ node, activity ≠ .releasing (some node)

theorem calm_fetching : Calm .fetching := fun _ => nofun

theorem calm_handling (task : NodeId) : Calm (.handling task) := fun _ => nofun

theorem calm_handled (task : NodeId) : Calm (.handled task) := fun _ => nofun

theorem releasing_update (before : Calm (worker proc).activity) (after : Calm sub.activity) :
    Releasing (update worker proc sub) = Releasing worker := by
  funext node
  apply propext
  constructor
  · rintro ⟨other, releasing⟩
    rw [update_apply] at releasing
    split_ifs at releasing
    · exact absurd releasing (after node)
    · exact ⟨other, releasing⟩
  · rintro ⟨other, releasing⟩
    have apart : other ≠ proc := by
      intro same
      rw [same] at releasing
      exact before node releasing
    refine ⟨other, ?_⟩
    rw [update_of_ne apart]
    exact releasing

theorem Hands.alone_update (hands : Hands nodes worker) (after : Calm sub.activity)
    (one other : Nat) (node : NodeId)
    (releasing : (update worker proc sub one).activity = .releasing (some node))
    (otherReleasing : (update worker proc sub other).activity = .releasing (some node)) :
    one = other := by
  by_cases isProc : one = proc
  · rw [isProc, update_self] at releasing
    exact absurd releasing (after node)
  by_cases otherProc : other = proc
  · rw [otherProc, update_self] at otherReleasing
    exact absurd otherReleasing (after node)
  · rw [update_of_ne isProc] at releasing
    rw [update_of_ne otherProc] at otherReleasing
    exact hands.alone one other node releasing otherReleasing

theorem Hands.rearrange (hands : Hands nodes worker)
    (same : (inHand sub).Perm (inHand (worker proc)))
    (seq : sub.maxFetchSeq = (worker proc).maxFetchSeq)
    (busy : ∀ node ∈ inHandler sub.activity ++ sub.repeatTasks.map Prod.fst,
      (nodes node).status = .running) (after : Calm sub.activity) :
    Hands nodes (update worker proc sub) := by
  constructor
  · intro other
    rw [update_apply]
    split_ifs
    · exact same.nodup_iff.mpr (hands.nodup proc)
    · exact hands.nodup other
  · intro other node
    rw [update_apply]
    split_ifs with isProc
    · rw [isProc, same.mem_iff, seq]
      exact hands.member proc node
    · exact hands.member other node
  · intro other
    rw [update_apply]
    split_ifs
    · exact busy
    · exact hands.busy other
  · exact hands.alone_update after

theorem Fetched.rearrange {depth : Nat} {count start fetched : Nat → Nat}
    {added : List (Placed Tag)} (reading : Fetched nodes depth worker count start fetched added)
    (seq : sub.maxFetchSeq = (worker proc).maxFetchSeq)
    (idx : sub.fetchTaskIdx % depth = fetched proc % depth ∧ sub.fetchTaskIdx ≤ depth) :
    Fetched nodes depth (update worker proc sub) count start fetched added := by
  have sameSeq : ∀ other, (update worker proc sub other).maxFetchSeq =
    (worker other).maxFetchSeq := by
    intro other
    rw [update_apply]
    split_ifs with isProc
    · rw [isProc, seq]
    · rfl
  constructor
  · exact reading.within
  · intro other
    rw [update_apply]
    split_ifs with isProc
    · rw [isProc]
      exact idx
    · exact reading.index other
  · intro task mem
    rw [sameSeq]
    exact reading.seq task mem
  · intro node done
    rw [sameSeq]
    exact reading.done node done

section

variable {node : NodeId}

theorem handled_update : (∃ other, (update worker proc sub other).activity = .handled node) ↔
    sub.activity = .handled node ∨ ∃ other, other ≠ proc ∧ (worker other).activity =
    .handled node := by
  constructor
  · rintro ⟨other, handled⟩
    rw [update_apply] at handled
    split_ifs at handled with isProc
    · exact .inl handled
    · exact .inr ⟨other, isProc, handled⟩
  · rintro (handled | ⟨other, isProc, handled⟩)
    · exact ⟨proc, by rw [update_self]; exact handled⟩
    · exact ⟨other, by rw [update_of_ne isProc]; exact handled⟩

theorem over_update (before : (worker proc).activity ≠ .handled node)
    (after : sub.activity ≠ .handled node) : Over nodes (update worker proc sub) node ↔
    Over nodes worker node := by
  unfold Over
  rw [handled_update]
  constructor
  · rintro (finished | removed | handled | ⟨other, -, handled⟩)
    · exact .inl finished
    · exact .inr (.inl removed)
    · exact absurd handled after
    · exact .inr (.inr ⟨other, handled⟩)
  · rintro (finished | removed | ⟨other, handled⟩)
    · exact .inl finished
    · exact .inr (.inl removed)
    · refine .inr (.inr (.inr ⟨other, ?_, handled⟩))
      intro isProc
      rw [isProc] at handled
      exact before handled

end

theorem bounded_update {bound : Nat} (bounded : ∀ proc, (worker proc).maxFetchSeq ≤ bound)
    (small : sub.maxFetchSeq ≤ bound) (other : Nat) : (update worker proc sub other).maxFetchSeq ≤
    bound := by
  rw [update_apply]
  split_ifs
  · exact small
  · exact bounded other

variable [DecidableEq Tag] {sys : System Tag} {start fetched : Nat → Nat}

theorem Inv.rearrange (inv : Inv sys start fetched)
    (same : (inHand sub).Perm (inHand (sys.worker proc)))
    (seq : sub.maxFetchSeq = (sys.worker proc).maxFetchSeq)
    (idx : sub.fetchTaskIdx % sys.sched.taskQueueDepth = fetched proc % sys.sched.taskQueueDepth ∧
      sub.fetchTaskIdx ≤ sys.sched.taskQueueDepth)
    (busy : ∀ node ∈ inHandler sub.activity ++ sub.repeatTasks.map Prod.fst,
      (sys.sched.taskNodes node).status = .running)
    (before : Calm (sys.worker proc).activity) (after : Calm sub.activity)
    (notHandled : ∀ node, (sys.worker proc).activity ≠ .handled node)
    (stillNotHandled : ∀ node, sub.activity ≠ .handled node) :
    Inv (sys.setWorker proc sub) start fetched := by
  constructor
  · exact inv.history
  · exact inv.rings
  · have chains := inv.chains
    rw [← releasing_update before after] at chains
    exact chains
  · exact inv.hands.rearrange same seq busy after
  · exact inv.fetched.rearrange seq idx
  · apply inv.ledger.congr
    · exact fun node => (over_update (notHandled node) (stillNotHandled node)).symm
    · exact fun _ removed => removed
  · exact bounded_update inv.bounded (seq ▸ inv.bounded proc)

variable {task : NodeId}

theorem Inv.not_handled (inv : Inv sys start fetched)
    (handling : (sys.worker proc).activity = .handling task) :
    Inv (sys.setWorker proc { sys.worker proc with
      repeatTasks := (task, polarTaskMaxRepeatDelayTimes) :: (sys.worker proc).repeatTasks
      activity := .fetching }) start fetched := by
  have busy := inv.hands.busy proc
  rw [handling] at busy
  apply inv.rearrange
  · unfold inHand
    rw [handling]
    exact List.Perm.refl _
  · rfl
  · exact inv.fetched.index proc
  · exact busy
  · rw [handling]
    exact calm_handling task
  · exact calm_fetching
  · rw [handling]
    exact fun _ => nofun
  · exact fun _ => nofun

theorem Inv.release_none (inv : Inv sys start fetched)
    (releasing : (sys.worker proc).activity = .releasing none) :
    Inv (sys.setWorker proc { sys.worker proc with activity := .fetching }) start fetched := by
  have busy := inv.hands.busy proc
  rw [releasing] at busy
  apply inv.rearrange
  · unfold inHand
    rw [releasing]
    exact List.Perm.refl _
  · rfl
  · exact inv.fetched.index proc
  · exact busy
  · rw [releasing]
    exact fun _ => nofun
  · exact calm_fetching
  · rw [releasing]
    exact fun _ => nofun
  · exact fun _ => nofun

theorem snoc_front {Item : Type} {key : Item → Nat} {front whole : List Item} {item : Item}
    (ascending : whole.Pairwise fun early late => key early < key late) (isFront : front <+: whole)
    (inside : item ∈ whole) (outside : item ∉ front)
    (least : ∀ other ∈ whole, other ∉ front → key item ≤ key other) :
    front ++ [item] <+: whole := by
  obtain ⟨rest, parts⟩ := isFront
  subst parts
  have order := pairwise_append.mp ascending
  have inRest : item ∈ rest := (mem_append.mp inside).resolve_left outside
  cases rest with
  | nil => cases inRest
  | cons first others =>
    have notBefore : first ∉ front := by
      intro before
      exact Nat.lt_irrefl _ (order.2.2 first before first (by simp))
    have least := least first (by simp) notBefore
    have isFirst : item = first := by
      rcases mem_cons.mp inRest with same | later
      · exact same
      · have above := rel_of_pairwise_cons order.2.1 later
        omega
    subst isFirst
    exact ⟨others, by simp⟩

omit [DecidableEq Tag] in
theorem Hands.in_handler (hands : Hands nodes worker) {node : NodeId} {activity : Activity}
    (isActivity : (worker proc).activity = activity) (mem : node ∈ inHandler activity) :
    node.proc = proc ∧ (nodes node).addSeq ≠ 0 ∧ (nodes node).addSeq ≤ (worker proc).maxFetchSeq ∧
      (nodes node).status = .running := by
  rw [← isActivity] at mem
  have inWorker : node ∈ inHand (worker proc) := mem_append_left _ (mem_append_left _ mem)
  have known := (hands.member proc node).mp inWorker
  exact ⟨known.1, known.2.1, known.2.2.1, hands.busy proc node (mem_append_left _ mem)⟩

/-- The chain of a task in a handler: the tasks before it are finished and those behind it held. -/
theorem Inv.busy_chain (inv : Inv sys start fetched) {activity : Activity}
    (isActivity : (sys.worker proc).activity = activity) (mem : task ∈ inHandler activity) :
    ∃ tag done others, (sys.sched.taskNodes task).tag = some tag ∧ sys.sched.taskHash tag = done ++
      task :: others ∧ (∀ earlier ∈ done, (sys.sched.taskNodes earlier).status = .finished) ∧
      ¬ Releasing sys.worker task ∧ ∀ later ∈ others, (sys.sched.taskNodes later).status = .hold ∧
      ¬ Releasing sys.worker later := by
  have atTask := inv.hands.in_handler isActivity mem
  obtain ⟨placed, -, -, -, -, hasTag⟩ := task_of_node inv.rings atTask.2.1
  have inChain : task ∈ sys.sched.taskHash placed.tag := by
    rw [inv.chains.member, atTask.2.2.2]
    exact ⟨atTask.2.1, hasTag, nofun⟩
  obtain ⟨done, others, split⟩ := inv.chains.split_running inChain atTask.2.2.2
  exact ⟨placed.tag, done, others, hasTag, split⟩

variable {placed : Placed Tag}

theorem Inv.oldest_of_tag (inv : Inv sys start fetched) (known : placed ∈ sys.added)
    (live : Live start placed) (running : (sys.sched.taskNodes placed.node).status = .running) :
    ∀ task ∈ sys.added, task.tag = placed.tag → task ∉ sys.completed → placed.seq ≤ task.seq := by
  have stored := inv.rings.live placed known live
  have positive := (inv.history.numbered placed known).1
  have inChain : placed.node ∈ sys.sched.taskHash placed.tag := by
    rw [inv.chains.member, running]
    exact ⟨by omega, stored.2.1, nofun⟩
  obtain ⟨_, _, whole, finished, -, -⟩ := inv.chains.split_running inChain running
  intro task mem sameTag unfinished
  rw [inv.ledger.isOver task mem, Classical.not_imp] at unfinished
  have taskStored := inv.rings.live task mem unfinished.1
  have taskPositive := (inv.history.numbered task mem).1
  have taskIn : task.node ∈ sys.sched.taskHash placed.tag := by
    rw [inv.chains.member]
    refine ⟨by omega, by rw [taskStored.2.1, sameTag], ?_⟩
    exact fun removed => unfinished.2 (.inr (.inl removed))
  rw [whole] at taskIn
  rcases mem_append.mp taskIn with early | late
  · exact absurd (.inl (finished task.node early)) unfinished.2
  have sorted := inv.chains.sorted placed.tag
  rw [whole] at sorted
  rcases mem_cons.mp late with isTask | later
  · have isPlaced := live_unique inv.history inv.rings mem known unfinished.1 live isTask
    rw [isPlaced]
  · have above := rel_of_pairwise_cons (pairwise_append.mp sorted).2.1 later
    omega

variable (inv : Inv sys start fetched) (handling : (sys.worker proc).activity = .handling task)
  (known : placed ∈ sys.added) (same : placed.seq = (sys.sched.taskNodes task).addSeq)
include inv handling known same

theorem Inv.task_in_handler : placed.node = task ∧ Live start placed ∧
      (sys.sched.taskNodes task).status = .running ∧
      ¬ Over sys.sched.taskNodes sys.worker task := by
  have busy := inv.hands.in_handler handling mem_cons_self
  obtain ⟨_, otherMember, isNode, live, otherSeq, -⟩ := task_of_node inv.rings busy.2.1
  have isOther := inv.history.eq_of_seq known otherMember (same.trans otherSeq.symm)
  refine ⟨isOther ▸ isNode, isOther ▸ live, busy.2.2.2, ?_⟩
  rintro (finished | removed | ⟨worker, handled⟩)
  · rw [busy.2.2.2] at finished
    cases finished
  · rw [busy.2.2.2] at removed
    cases removed
  · have there := inv.hands.in_handler handled mem_cons_self
    have isProc : worker = proc := there.1.symm.trans busy.1
    rw [isProc, handling] at handled
    cases handled

theorem Inv.handled :
    Inv { sys.setWorker proc { sys.worker proc with activity := .handled task } with
      completed := sys.completed ++ [placed] } start fetched := by
  have history := inv.history
  have rings := inv.rings
  have ledger := inv.ledger
  obtain ⟨isNode, live, running, notOver⟩ := inv.task_in_handler handling known same
  subst isNode
  have notCompleted : placed ∉ sys.completed :=
    fun completed => notOver ((ledger.isOver placed known).mp completed live)
  constructor
  · exact history
  · exact rings
  · have calm : Calm (sys.worker proc).activity := by
      rw [handling]
      exact calm_handling _
    have unchanged : Releasing (update sys.worker proc
        { sys.worker proc with activity := .handled placed.node }) = Releasing sys.worker :=
      releasing_update calm (calm_handled placed.node)
    have chains := inv.chains
    rw [← unchanged] at chains
    exact chains
  · apply inv.hands.rearrange
    · unfold inHand
      rw [handling]
      exact List.Perm.refl _
    · rfl
    · have atWork := inv.hands.busy proc
      rw [handling] at atWork
      exact atWork
    · exact calm_handled placed.node
  · exact inv.fetched.rearrange rfl (inv.fetched.index proc)
  · constructor
    · intro tag
      have before := ledger.ordered tag
      rw [filter_append]
      by_cases mine : placed.tag = tag
      · subst mine
        have one : [placed].filter (fun task => task.tag = placed.tag) = [placed] := by simp
        rw [one]
        apply snoc_front (history.order.filter _) before
        · exact mem_filter.mpr ⟨known, by simp⟩
        · exact fun inside => notCompleted (mem_filter.mp inside).1
        · intro task inAdded notDone
          have filtered := mem_filter.mp inAdded
          apply inv.oldest_of_tag known live running task filtered.1 (by simpa using filtered.2)
          exact fun completed => notDone (mem_filter.mpr ⟨completed, filtered.2⟩)
      · have none : [placed].filter (fun task => task.tag = tag) = [] := by simp [mine]
        rw [none, append_nil]
        exact before
    · intro task mem
      by_cases isPlaced : task = placed
      · subst isPlaced
        constructor
        · intro _ _
          exact .inr (.inr ⟨proc, by simp [System.setWorker]⟩)
        · exact fun _ => mem_concat_self
      have membership : task ∈ sys.completed ++ [placed] ↔ task ∈ sys.completed := by
        simp [isPlaced]
      apply membership.trans
      apply (ledger.isOver task mem).trans
      apply imp_congr_right
      intro taskLive
      have elsewhere : placed.node ≠ task.node := fun isNode =>
        isPlaced (live_unique history rings mem known taskLive live isNode.symm)
      apply (over_update _ _).symm
      · rw [handling]
        exact nofun
      · intro isHandled
        injection isHandled with isNode
        exact elsewhere isNode
    · exact ledger.gone
  · exact bounded_update inv.bounded (inv.bounded proc)

end PolarDB.ProcPool.Pool
