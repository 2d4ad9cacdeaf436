import PolarDB.ProcPool.PoolRep

/-!
# The steps of the dispatcher that clean up
-/

namespace PolarDB.ProcPool.Pool

open List ProcPool.Sched
open Function ProcPool.Execution

variable {Tag : Type}

section

variable {nodes other : NodeId → TaskNode Tag} {chain : Tag → List NodeId} {releasing : NodeId →
  Prop} {id : NodeId}

theorem Chains.empty (chains : Chains nodes chain releasing)
    (elsewhere : ∀ node, node ≠ id → other node = nodes node)
    (removed : (nodes id).status = .removed) (emptied : (other id).addSeq = 0) :
    Chains other chain releasing := by
  have outside : ∀ tag, id ∉ chain tag := fun tag inChain =>
    ((chains.member tag id).mp inChain).2.2 removed
  have same : ∀ tag, ∀ node ∈ chain tag, other node = nodes node := by
    intro tag node inChain
    apply elsewhere
    intro isId
    rw [isId] at inChain
    exact outside tag inChain
  constructor
  · intro tag node
    by_cases isId : node = id
    · rw [isId, emptied]
      simp [outside tag]
    · rw [elsewhere node isId]
      exact chains.member tag node
  · intro tag
    apply (chains.sorted tag).imp_of_mem
    intro early late inEarly inLate below
    rw [same tag early inEarly, same tag late inLate]
    exact below
  · intro tag
    apply chains.shape_congr
    intro node inChain
    rw [same tag node inChain]
    exact ⟨rfl, Iff.rfl⟩
  · intro tag front node back whole
    have inChain : node ∈ chain tag := by
      rw [whole]
      exact mem_append_right _ mem_cons_self
    rw [same tag node inChain]
    exact chains.latch tag front node back whole
  · intro node isReleasing
    have known := chains.known node isReleasing
    have different : node ≠ id := by
      intro isId
      rw [isId, removed] at known
      exact nomatch known.2.2
    rw [elsewhere node different]
    exact known

theorem Hands.empty {worker : Nat → SubTask} (hands : Hands nodes worker)
    (elsewhere : ∀ node, node ≠ id → other node = nodes node)
    (removed : (nodes id).status = .removed) (emptied : (other id).addSeq = 0) :
    Hands other worker := by
  refine { hands with member := ?_, busy := ?_ }
  · intro proc node
    rw [hands.member proc node]
    by_cases isId : node = id
    · rw [isId, emptied, Unfinished, removed]
      simp
    · rw [elsewhere node isId]
  · intro proc node inBusy
    have running := hands.busy proc node inBusy
    have different : node ≠ id := by
      intro isId
      rw [isId, removed] at running
      cases running
    rw [elsewhere node different]
    exact running

end

section

variable {sched : TaskSched Tag} {proc : Nat} {id node : NodeId}
  (isTail : id = ⟨proc, (sched.subProc proc).taskTail⟩)

include isTail

theorem resetTail_of_ne (different : node ≠ id) : (resetTail sched proc).taskNodes node =
    sched.taskNodes node := by
  rw [isTail] at different
  exact update_of_ne different _ _

theorem resetTail_self : (resetTail sched proc).taskNodes id =
    { tag := (sched.taskNodes id).tag, nextLatch := false, addSeq := 0, status := .idle } := by
  rw [isTail]
  exact update_self _ _ _

end

variable [DecidableEq Tag] {sys : System Tag} {start fetched : Nat → Nat} {proc : Nat}

theorem Inv.tail_task (inv : Inv sys start fetched)
    (nonempty : taskQueueIsEmpty (sys.sched.subProc proc) = false) :
    ∃ task ∈ sys.added, task.node = ⟨proc, (sys.sched.subProc proc).taskTail⟩ ∧
    task.position = start proc := by
  have ring := inv.rings.ring proc
  have window := inv.rings.window proc
  have more : start proc < sys.count proc := by
    apply lt_of_le_of_ne window.1
    intro same
    have positive := inv.rings.depth
    have notFull : (sys.sched.subProc proc).ringFull ≠ true := by
      rw [ne_eq, ring.2.2]
      omega
    rw [taskQueueIsEmpty, ring.1, ring.2.1, same] at nonempty
    simp [notFull] at nonempty
  obtain ⟨task, mem, isProc, isFirst⟩ := inv.history.filled proc (start proc) more
  refine ⟨task, mem, ?_, isFirst⟩
  rw [ring.2.1, ← isFirst, ← (inv.history.placed task mem).2.1, ← isProc]

theorem advance_mod (depth pos : Nat) (positive : 0 < depth) :
    advance depth (pos % depth) = (pos + 1) % depth := by
  have small := Nat.mod_lt pos positive
  rw [advance, ← Nat.mod_add_mod]
  split_ifs with wraps
  · rw [wraps, Nat.mod_self]
  · rw [Nat.mod_eq_of_lt (show pos % depth + 1 < depth by omega)]

section
variable (inv : Inv sys start fetched)
include inv

theorem Inv.live_behind {first task : Placed Tag} (firstMember : first ∈ sys.added)
    (isProc : first.node.proc = proc) (isFirst : first.position = start proc)
    (mem : task ∈ sys.added) : Live (update start proc (start proc + 1)) task ↔ Live start task ∧
    task ≠ first := by
  unfold Live
  rw [update_apply]
  split_ifs with same
  · rw [same]
    constructor
    · intro behind
      refine ⟨by omega, ?_⟩
      intro isTask
      rw [isTask, isFirst] at behind
      omega
    · rintro ⟨live, different⟩
      apply lt_of_le_of_ne live
      intro samePosition
      apply different
      exact inv.history.eq_of_position mem firstMember (same.trans isProc.symm)
        (samePosition.symm.trans isFirst.symm)
  · constructor
    · intro live
      refine ⟨live, ?_⟩
      intro isTask
      rw [isTask] at same
      exact same isProc
    · exact And.left

theorem Inv.reset_rings {first : Placed Tag} (firstMember : first ∈ sys.added)
    (isNode : first.node = ⟨proc, (sys.sched.subProc proc).taskTail⟩)
    (isFirst : first.position = start proc) (nonempty : start proc < sys.count proc) :
    Rings (resetTail sys.sched proc) sys.count (update start proc (start proc + 1)) sys.added := by
  have rings := inv.rings
  have isProc : first.node.proc = proc := by rw [isNode]
  have firstLive : Live start first := by
    rw [Live, isProc, isFirst]
  have emptied := resetTail_self isNode
  constructor
  · exact rings.depth
  · intro other
    have window := rings.window other
    by_cases same : other = proc
    · rw [same] at window
      rw [same, update_self]
      change _ ∧ _ ≤ _ + sys.sched.taskQueueDepth
      omega
    · rw [update_of_ne same]
      exact window
  · intro other
    have ring := rings.ring other
    change (update sys.sched.subProc proc _ other).taskHead = _ ∧
      (update sys.sched.subProc proc _ other).taskTail = _ ∧
      ((update sys.sched.subProc proc _ other).ringFull = true ↔ _)
    by_cases same : other = proc
    · rw [same] at ring
      rw [same, update_self, update_self]
      refine ⟨ring.1, ?_, ?_⟩
      · rw [ring.2.1, advance_mod _ _ rings.depth]
        rfl
      · have window := (rings.window proc).2
        change false = true ↔ _ = _ + sys.sched.taskQueueDepth
        simp only [Bool.false_eq_true, false_iff]
        omega
    · rw [update_of_ne same, update_of_ne same]
      exact ring
  · intro task mem live
    have still := (inv.live_behind firstMember isProc isFirst mem).mp live
    have apart : task.node ≠ first.node := fun sameNode =>
      still.2 (live_unique inv.history rings mem firstMember still.1 firstLive sameNode)
    rw [resetTail_of_ne isNode apart]
    exact rings.live task mem still.1
  · intro node occupied
    have apart : node ≠ first.node := by
      intro sameNode
      rw [sameNode, emptied] at occupied
      exact occupied rfl
    rw [resetTail_of_ne isNode apart] at occupied
    obtain ⟨task, mem, isTask, live⟩ := rings.occupied node occupied
    refine ⟨task, mem, isTask, (inv.live_behind firstMember isProc isFirst mem).mpr ⟨live, ?_⟩⟩
    intro isFirstTask
    rw [isFirstTask] at isTask
    exact apart isTask.symm
  · intro node empty
    by_cases sameNode : node = first.node
    · rw [sameNode, emptied]
      exact ⟨rfl, rfl⟩
    · rw [resetTail_of_ne isNode sameNode] at empty ⊢
      exact rings.vacant node empty

theorem Inv.reset (nonempty : taskQueueIsEmpty (sys.sched.subProc proc) = false)
    (removed : (sys.sched.taskNodes ⟨proc, (sys.sched.subProc proc).taskTail⟩).status = .removed) :
    Inv { sys with sched := resetTail sys.sched proc }
      (update start proc (start proc + 1)) fetched := by
  have reading := inv.fetched
  have ledger := inv.ledger
  obtain ⟨first, firstMember, isNode, isFirst⟩ := inv.tail_task nonempty
  have isProc : first.node.proc = proc := by rw [isNode]
  have firstLive : Live start first := by
    rw [Live, isProc, isFirst]
  have placed := (inv.history.placed first firstMember).2.2
  rw [isProc, isFirst] at placed
  have elsewhere (node) := @resetTail_of_ne Tag sys.sched proc first.node node isNode
  have emptied := resetTail_self isNode
  rw [← isNode] at removed
  constructor
  · exact inv.history
  · exact inv.reset_rings firstMember isNode isFirst placed
  · exact inv.chains.empty elsewhere removed (by rw [emptied])
  · exact inv.hands.empty elsewhere removed (by rw [emptied])
  · refine { reading with within := ?_, done := ?_ }
    · intro other
      have within := reading.within other
      by_cases same : other = proc
      · -- a removed task was fetched
        have stored := (inv.rings.live first firstMember firstLive).1
        have seen :=
          (reading.seq first firstMember).mp (stored ▸ reading.done first.node (.inr removed))
        rw [isProc, isFirst] at seen
        rw [same] at within
        rw [same, update_self]
        exact ⟨seen, within.2⟩
      · rw [update_of_ne same]
        exact within
    · intro node isDone
      have apart : node ≠ first.node := by
        intro sameNode
        rw [sameNode, emptied] at isDone
        rcases isDone with isFinished | isRemoved
        · cases isFinished
        · cases isRemoved
      rw [elsewhere node apart]
      apply reading.done
      rw [← elsewhere node apart]
      exact isDone
  · have apart : ∀ task ∈ sys.added, Live start task → task ≠ first → task.node ≠ first.node :=
      fun task mem live different sameNode =>
        different (live_unique inv.history inv.rings mem firstMember live firstLive sameNode)
    constructor
    · exact ledger.ordered
    · intro task mem
      apply (ledger.isOver task mem).trans
      rw [inv.live_behind firstMember isProc isFirst mem]
      by_cases isTask : task = first
      · rw [isTask]
        exact ⟨fun _ live => absurd rfl live.2, fun _ _ => .inr (.inl removed)⟩
      · simp only [isTask, ne_eq, not_false_eq_true, and_true]
        apply imp_congr_right
        intro live
        unfold Over
        rw [elsewhere task.node (apart task mem live isTask)]
    · intro task mem gone
      apply ledger.gone task mem
      intro live
      by_cases isTask : task = first
      · rw [isTask]
        exact removed
      · rw [← elsewhere task.node (apart task mem live isTask)]
        exact gone ((inv.live_behind firstMember isProc isFirst mem).mpr ⟨live, isTask⟩)
  · exact inv.bounded

end

omit [DecidableEq Tag] in
theorem Rings.rechain {sched : TaskSched Tag} {count : Nat → Nat} {added : List (Placed Tag)}
    (rings : Rings sched count start added) (chain : Tag → List NodeId) (running : List NodeId) :
    Rings { sched with runningTasks := running, taskHash := chain } count start added :=
  { rings with }

variable {tag : Tag} {next : TaskSched Tag} {rest : List NodeId}

section
variable {nodes : NodeId → TaskNode Tag} {chain : Tag → List NodeId} {releasing : NodeId → Prop}
  {first : NodeId} (chains : Chains nodes chain releasing) (whole : chain tag = first :: rest)
include chains whole

theorem Chains.mem_tail (other : Tag) (node : NodeId) :
    node ∈ update chain tag rest other ↔ node ≠ first ∧ node ∈ chain other := by
  have inFirst : first ∈ chain tag := whole ▸ mem_cons_self
  have nodup := chains.nodup tag
  rw [whole] at nodup
  have notInRest := (nodup_cons.mp nodup).1
  rw [update_apply]
  split_ifs with isTag
  · rw [isTag, whole, mem_cons]
    constructor
    · exact fun inRest => ⟨fun isFirst => notInRest (isFirst ▸ inRest), .inr inRest⟩
    · exact fun ⟨apart, mem⟩ => mem.resolve_left apart
  · refine ⟨fun mem => ⟨fun isFirst => ?_, mem⟩, And.right⟩
    exact isTag (chains.tag_unique inFirst (isFirst ▸ mem))

theorem Chains.shape_tail (finished : (nodes first).status = .finished) (other : Tag) :
    ∃ done waiting, update chain tag rest other = done ++ waiting ∧
      (∀ node ∈ done, (nodes node).status = .finished) ∧ Waiting nodes releasing waiting := by
  rw [update_apply]
  split_ifs
  · obtain ⟨done, waitingPart, parts, allFinished, waiting⟩ := chains.shape tag
    rw [whole] at parts
    cases done with
    | nil =>
      rw [nil_append] at parts
      exact absurd finished (waiting.unfinished first (parts ▸ mem_cons_self))
    | cons _ others =>
      injection parts with _ isRest
      exact ⟨others, waitingPart, isRest,
        fun node inOthers => allFinished node (mem_cons_of_mem _ inOthers), waiting⟩
  · exact chains.shape other

theorem Chains.drop_first (finished : (nodes first).status = .finished) :
    Chains (withStatus nodes first .removed) (update chain tag rest) releasing := by
  have kept : ∀ other, ∀ node ∈ update chain tag rest other, withStatus nodes first .removed node =
    nodes node :=
    fun other node mem => withStatus_of_ne ((chains.mem_tail whole other node).mp mem).1
  constructor
  · intro other node
    rw [chains.mem_tail whole, chains.member]
    by_cases isFirst : node = first
    · rw [isFirst, withStatus_self]
      simp
    · rw [withStatus_of_ne isFirst]
      simp [isFirst]
  · intro other
    simp only [withStatus_addSeq]
    rw [update_apply]
    split_ifs
    · have sorted := chains.sorted tag
      rw [whole] at sorted
      exact sorted.tail
    · exact chains.sorted other
  · intro other
    obtain ⟨done, waitingPart, parts, allFinished, waiting⟩ :=
      chains.shape_tail whole finished other
    refine ⟨done, waitingPart, parts, ?_, waiting.congr ?_⟩
    · intro node inDone
      rw [kept other node (parts ▸ mem_append_left _ inDone)]
      exact allFinished node inDone
    · intro node inWaiting
      rw [kept other node (parts ▸ mem_append_right _ inWaiting)]
      exact ⟨rfl, Iff.rfl⟩
  · intro other front node back parts notFinished
    rw [kept other node (parts ▸ mem_append_right _ mem_cons_self)] at notFinished
    rw [withStatus_nextLatch]
    rw [update_apply] at parts
    split_ifs at parts
    · exact chains.latch tag (first :: front) node back (by rw [whole, parts, cons_append])
        notFinished
    · exact chains.latch other front node back parts notFinished
  · intro node isReleasing
    have known := chains.known node isReleasing
    have apart : node ≠ first := by
      intro isFirst
      rw [isFirst, finished] at known
      exact nomatch known.2.2
    rw [withStatus_of_ne apart]
    exact known

end

variable (inv : Inv sys start fetched)
include inv

theorem Inv.drop_first {first : NodeId} (running : List NodeId)
    (whole : sys.sched.taskHash tag = first :: rest)
    (finished : (sys.sched.taskNodes first).status = .finished) : Inv { sys with
      sched := TaskSched.setStatus { sys.sched with
        runningTasks := running, taskHash := update sys.sched.taskHash tag rest } first .removed
      removed := sys.added } start fetched := by
  have ledger := inv.ledger
  have occupied : (sys.sched.taskNodes first).addSeq ≠ 0 := by
    intro empty
    have vacant := (inv.rings.vacant first empty).1
    rw [finished] at vacant
    cases vacant
  constructor
  · exact inv.history
  · exact (inv.rings.rechain _ _).set_status occupied nofun
  · exact inv.chains.drop_first whole finished
  · apply inv.hands.set_status
    · simp [Unfinished, finished]
    · rw [finished]
      exact nofun
  · exact inv.fetched.set_status fun _ => inv.fetched.done first (.inl finished)
  · constructor
    · exact ledger.ordered
    · intro task mem
      apply (ledger.isOver task mem).trans
      apply imp_congr_right
      intro _
      change _ ↔ Over (withStatus sys.sched.taskNodes first .removed) sys.worker task.node
      unfold Over
      by_cases isFirst : task.node = first
      · rw [isFirst, withStatus_self, finished]
        simp
      · rw [withStatus_of_ne isFirst]
    · exact fun task mem _ => mem
  · exact inv.bounded

theorem Inv.mark_loop {task : NodeId} {chain : List NodeId}
    (isChain : sys.sched.taskHash tag = chain)
    (ok : markFinishedLoop tag task chain sys.sched = .ok next) :
    ∃ removed, Inv { sys with sched := next, removed := removed } start fetched := by
  induction chain generalizing sys with
  | nil =>
    cases ok
    exact ⟨sys.removed, inv⟩
  | cons first _ step =>
    rw [markFinishedLoop] at ok
    split_ifs at ok with unfinished last
    · have dropped := inv.drop_first (sys.sched.runningTasks.erase first) isChain
        (not_not.mp unfinished)
      cases ok
      exact ⟨sys.added, dropped⟩
    · have dropped := inv.drop_first (sys.sched.runningTasks.erase first) isChain
        (not_not.mp unfinished)
      have shorter := step dropped (update_self _ _ _) ok
      exact shorter

theorem Inv.mark {task : NodeId}
    (ok : schedProcMarkFinishedTasksRemoved sys.sched task = .ok next) : Inv { sys with
      sched := next, removed := sys.removed ++ newlyRemoved sys.sched next sys.added } start
      fetched := by
  have ledger := inv.ledger
  have marked : ∃ removed, Inv { sys with sched := next, removed := removed } start fetched := by
    rw [schedProcMarkFinishedTasksRemoved] at ok
    cases hasTag : (sys.sched.taskNodes task).tag with
    | none =>
      rw [hasTag] at ok
      cases ok
      exact ⟨sys.removed, inv⟩
    | some =>
      rw [hasTag] at ok
      exact inv.mark_loop rfl ok
  obtain ⟨_, after⟩ := marked
  refine { after with ledger := ?_ }
  refine ⟨after.ledger.ordered, after.ledger.isOver, ?_⟩
  intro other mem gone
  by_cases before : Live start other → (sys.sched.taskNodes other.node).status = .removed
  · exact mem_append_left _ (ledger.gone other mem before)
  rw [Classical.not_imp] at before
  apply mem_append_right
  apply mem_filter.mpr
  refine ⟨mem, ?_⟩
  simp only [decide_eq_true_eq]
  exact ⟨(inv.rings.live other mem before.1).1, before.2, gone before.1⟩

theorem Inv.choose (dstProc : Nat) (started : Nat → Bool) : Inv { sys with
      sched := { sys.sched with
        dstProc := dstProc
        subProc := fun proc => { sys.sched.subProc proc with proc := started proc } } } start
          fetched := by
  have rings := inv.rings
  refine { inv with rings := ?_ }
  exact { rings with }

end PolarDB.ProcPool.Pool
