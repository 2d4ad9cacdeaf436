import PolarDB.ProcPool.PoolDispatch

/-!
# Adding a task
-/

namespace PolarDB.ProcPool.Pool

open List Lib.Snoc ProcPool.Sched
open Function ProcPool.Execution

variable {Tag : Type} {nodes after : NodeId → TaskNode Tag} {last : Option NodeId} {id : NodeId}
  {tag : Tag}
  {seq : Nat}

/-- A new task may run when the last one of its tag is finished. -/
def startStatus (nodes : NodeId → TaskNode Tag) (last : Option NodeId) : Status :=
  match last with
  | none => .running
  | some previous => if (nodes previous).status = .finished then .running else .hold

/-- What adding a task does to the nodes; `last` is the last task of its tag. -/
structure Adds (nodes after : NodeId → TaskNode Tag) (last : Option NodeId) (id : NodeId)
    (tag : Tag) (seq : Nat) : Prop where
  new : after id =
    { tag := some tag, nextLatch := false, addSeq := seq, status := startStatus nodes last }
  same : ∀ node, node ≠ id → (after node).addSeq = (nodes node).addSeq ∧
    (after node).tag = (nodes node).tag ∧ (after node).status = (nodes node).status
  latch : ∀ node, node ≠ id → ((after node).nextLatch = true ↔
    last = some node ∧ (nodes node).status ≠ .finished ∨ (nodes node).nextLatch = true)

section
variable (nodes : NodeId → TaskNode Tag) (last : Option NodeId)

theorem startStatus_cases : startStatus nodes last = .running ∨ startStatus nodes last = .hold := by
  cases last with
  | none => exact .inl rfl
  | some =>
    rw [startStatus]
    split_ifs
    · exact .inl rfl
    · exact .inr rfl

theorem startStatus_new :
    startStatus nodes last ≠ .idle ∧ startStatus nodes last ≠ .finished ∧
    startStatus nodes last ≠ .removed := by
  rcases startStatus_cases nodes last with running | held
  · rw [running]
    exact ⟨nofun, nofun, nofun⟩
  · rw [held]
    exact ⟨nofun, nofun, nofun⟩

end

section

variable [DecidableEq Tag] {sched : TaskSched Tag} {proc : Nat}

theorem polarSchedProcAddTask_nodes (isHead : id = ⟨proc, (sched.subProc proc).taskHead⟩)
    (noLatch : (sched.taskNodes id).nextLatch = false) (outside : id ∉ sched.taskHash tag) :
    Adds sched.taskNodes (polarSchedProcAddTask sched proc tag).taskNodes
      (sched.taskHash tag).getLast? id tag (sched.addedSeq + 1) := by
  subst isHead
  unfold polarSchedProcAddTask polarSchedAddTaskHashTable
  dsimp only [TaskSched.setNode, TaskSched.setStatus, TaskSched.setSubProc]
  cases isLast : (sched.taskHash tag).getLast? with
  | none =>
    constructor
    · simp only [update_self, noLatch, startStatus]
    · intro node different
      simp only [update_of_ne different]
      exact ⟨trivial, trivial, trivial⟩
    · intro node different
      simp only [update_of_ne different]
      simp
  | some previous =>
    have apart : previous ≠ ⟨proc, (sched.subProc proc).taskHead⟩ := by
      intro isId
      apply outside
      rw [← isId]
      exact mem_of_getLast? isLast
    simp only [update_of_ne apart]
    split_ifs with finished
    · constructor
      · simp only [update_self, noLatch, startStatus, if_pos finished]
      · intro node different
        simp only [update_of_ne different]
        exact ⟨trivial, trivial, trivial⟩
      · intro node different
        simp only [update_of_ne different]
        constructor
        · exact .inr
        · rintro (⟨isNode, unfinished⟩ | set)
          · injection isNode with isPrevious
            rw [← isPrevious] at unfinished
            exact absurd finished unfinished
          · exact set
    · constructor
      · simp only [update_self, update_of_ne apart.symm, noLatch, startStatus, if_neg finished]
      · intro node different
        simp only [update_of_ne different]
        rw [update_apply]
        split_ifs with isPrevious
        · rw [isPrevious]
          exact ⟨rfl, rfl, rfl⟩
        · rw [update_of_ne different]
          exact ⟨rfl, rfl, rfl⟩
      · intro node different
        simp only [update_of_ne different]
        by_cases isPrevious : node = previous
        · rw [isPrevious, update_self]
          exact ⟨fun _ => .inl ⟨rfl, finished⟩, fun _ => rfl⟩
        rw [update_of_ne isPrevious, update_of_ne different]
        have notLast : some previous ≠ some node := by
          intro isNode
          injection isNode with same
          exact isPrevious same.symm
        simp [notLast]

end

section

variable {chain : Tag → List NodeId} {releasing : NodeId → Prop}

variable (chains : Chains nodes chain releasing)
  (adds : Adds nodes after (chain tag).getLast? id tag seq)
include chains adds

/-- The chain of the tag is longer by a task that runs if it is the only unfinished one. -/
theorem Chains.add_shape (outside : id ∉ chain tag) (notReleasing : ¬ releasing id) :
    ∃ done rest, chain tag ++ [id] = done ++ rest ∧
      (∀ node ∈ done, (after node).status = .finished) ∧ Waiting after releasing rest := by
  obtain ⟨done, rest, whole, finished, waiting⟩ := chains.shape tag
  have apart : ∀ node ∈ done ++ rest, node ≠ id := by
    intro node inChain isId
    rw [← whole, isId] at inChain
    exact outside inChain
  have stillFinished : ∀ node ∈ done, (after node).status = .finished := by
    intro node inDone
    rw [(adds.same node (apart node (mem_append_left _ inDone))).2.2]
    exact finished node inDone
  have newStatus : (after id).status = startStatus nodes (chain tag).getLast? := by rw [adds.new]
  cases rest with
  | nil =>
    rw [append_nil] at whole
    have runs : startStatus nodes (chain tag).getLast? = .running := by
      cases isLast : (chain tag).getLast? with
      | none => rfl
      | some previous =>
        have inChain := mem_of_getLast? isLast
        rw [whole] at inChain
        rw [startStatus, if_pos (finished previous inChain)]
    refine ⟨done, [id], by rw [whole], stillFinished, Or.inl ⟨newStatus.trans runs, notReleasing⟩,
      ?_⟩
    exact fun node inNil => nomatch inNil
  | cons first others =>
    have holds : startStatus nodes (chain tag).getLast? = .hold := by
      have isLast : (chain tag).getLast? = (first :: others).getLast? := by
        rw [whole, List.getLast?_append_of_ne_nil _ (cons_ne_nil _ _)]
      rw [isLast, List.getLast?_eq_some_getLast (cons_ne_nil first others), startStatus]
      exact if_neg (waiting.unfinished _ (getLast_mem _))
    have before : Waiting after releasing (first :: others) := by
      apply waiting.congr
      intro node inRest
      exact ⟨(adds.same node (apart node (mem_append_right _ inRest))).2.2, Iff.rfl⟩
    refine ⟨done, first :: (others ++ [id]), by rw [whole]; simp, stillFinished, before.1, ?_⟩
    exact forall_mem_snoc.mpr ⟨before.2, newStatus.trans holds, notReleasing⟩

theorem Chains.add_latch (outside : id ∉ chain tag)
    {front back : List NodeId} {node : NodeId} (whole : chain tag ++ [id] = front ++ node :: back)
    (unfinished : (after node).status ≠ .finished) : (after node).nextLatch = true ↔ back ≠ [] := by
  rcases eq_nil_or_concat back with isNil | ⟨shorter, last, isBack⟩
  · rw [isNil] at whole
    have isId : id = node := singleton_inj.mp (append_inj_right' whole rfl)
    rw [← isId, adds.new, isNil]
    simp
  rw [isBack, concat_eq_append, ← cons_append, ← append_assoc] at whole
  have parts : chain tag = front ++ node :: shorter := append_inj_left' whole rfl
  have inChain : node ∈ chain tag := by
    rw [parts]
    exact mem_append_right _ mem_cons_self
  have apart : node ≠ id := fun isId => outside (isId ▸ inChain)
  rw [(adds.same node apart).2.2] at unfinished
  rw [adds.latch node apart]
  have more : back ≠ [] := by simp [isBack]
  simp only [more, ne_eq, not_false_eq_true, iff_true]
  by_cases isEnd : shorter = []
  · left
    rw [isEnd] at parts
    rw [parts, List.getLast?_concat]
    exact ⟨rfl, unfinished⟩
  · right
    exact (chains.latch tag front node shorter parts unfinished).mpr isEnd

theorem Chains.add [DecidableEq Tag] (vacant : (nodes id).addSeq = 0)
    (above : ∀ node, (nodes node).addSeq < seq) :
    Chains after (update chain tag (chain tag ++ [id])) releasing := by
  have outside : ∀ other, id ∉ chain other := fun other inOther =>
    ((chains.member other id).mp inOther).1 vacant
  have notReleasing : ¬ releasing id := fun isReleasing => (chains.known id isReleasing).1 vacant
  have apart : ∀ other, ∀ node ∈ chain other, node ≠ id := fun other node inOther isId =>
    outside other (isId ▸ inOther)
  constructor
  · intro other node
    by_cases isId : node = id
    · rw [isId, adds.new]
      have notRemoved := (startStatus_new nodes (chain tag).getLast?).2.2
      have positive : seq ≠ 0 := ne_of_gt (Nat.zero_lt_of_lt (above id))
      rw [update_apply]
      split_ifs with isTag
      · rw [isTag]
        simp [positive, notRemoved]
      · have notSome : some tag ≠ some other := fun same => isTag (Option.some.inj same).symm
        simp [outside other, notSome]
    · have same := adds.same node isId
      rw [same.1, same.2.1, same.2.2, ← chains.member other node]
      rw [update_apply]
      split_ifs with isTag
      · rw [isTag]
        simp [isId]
      · rfl
  · intro other
    have before : (chain other).Pairwise fun early late =>
      (after early).addSeq < (after late).addSeq := by
      apply (chains.sorted other).imp_of_mem
      intro early late inEarly inLate below
      rw [(adds.same early (apart other early inEarly)).1,
        (adds.same late (apart other late inLate)).1]
      exact below
    by_cases isTag : other = tag
    · rw [isTag] at before
      rw [isTag, update_self]
      refine pairwise_snoc.mpr ⟨before, fun early inEarly => ?_⟩
      rw [adds.new, (adds.same early (apart tag early inEarly)).1]
      exact above early
    · rw [update_of_ne isTag]
      exact before
  · intro other
    by_cases isTag : other = tag
    · rw [isTag, update_self]
      exact chains.add_shape adds (outside tag) notReleasing
    rw [update_of_ne isTag]
    apply chains.shape_congr
    intro node inOther
    exact ⟨(adds.same node (apart other node inOther)).2.2, Iff.rfl⟩
  · intro other front node back whole unfinished
    by_cases isTag : other = tag
    · rw [isTag, update_self] at whole
      exact chains.add_latch adds (outside tag) whole unfinished
    rw [update_of_ne isTag] at whole
    have inOther : node ∈ chain other := by
      rw [whole]
      exact mem_append_right _ mem_cons_self
    have away := apart other node inOther
    have notLast : (chain tag).getLast? ≠ some node := by
      intro isLast
      exact isTag (chains.tag_unique (mem_of_getLast? isLast) inOther)
    rw [(adds.same node away).2.2] at unfinished
    rw [adds.latch node away, ← chains.latch other front node back whole unfinished]
    simp [notLast]
  · intro node isReleasing
    have away : node ≠ id := fun isId => notReleasing (isId ▸ isReleasing)
    have same := adds.same node away
    rw [same.1, same.2.1, same.2.2]
    exact chains.known node isReleasing

end

section

variable {added : List (Placed Tag)} {count start fetched : Nat → Nat} {total depth : Nat}

theorem History.add {addedSeq : Nat} (history : History total depth addedSeq count added)
    (task : Placed Tag) (isSeq : task.seq = addedSeq + 1) (within : task.node.proc < total)
    (isIndex : task.node.index = task.position % depth)
    (isLast : task.position = count task.node.proc) : History total depth (addedSeq + 1)
      (update count task.node.proc (count task.node.proc + 1)) (added ++ [task]) := by
  have grows : ∀ proc, count proc ≤ update count task.node.proc (count task.node.proc + 1)
    proc := by
    intro proc
    rw [update_apply]
    split_ifs with same
    · rw [same]
      exact Nat.le_succ _
    · rfl
  constructor
  · refine pairwise_snoc.mpr ⟨history.order, fun early inAdded => ?_⟩
    have numbered := history.numbered early inAdded
    omega
  · refine forall_mem_snoc.mpr ⟨fun other before => ?_, by omega⟩
    have numbered := history.numbered other before
    omega
  · refine forall_mem_snoc.mpr ⟨fun other before => ?_, within, isIndex, by rw [update_self]; omega⟩
    have placed := history.placed other before
    exact ⟨placed.1, placed.2.1, placed.2.2.trans_le (grows _)⟩
  · refine forall_mem_snoc.mpr ⟨fun one before => forall_mem_snoc.mpr ⟨history.along one before,
      fun sameProc => ?_⟩, forall_mem_snoc.mpr ⟨fun other before sameProc => ?_, fun _ => by omega⟩⟩
    · have numbered := history.numbered one before
      have placed := (history.placed one before).2.2
      rw [sameProc] at placed
      omega
    · have numbered := history.numbered other before
      have placed := (history.placed other before).2.2
      rw [← sameProc] at placed
      omega
  · intro proc pos small
    by_cases before : pos < count proc
    · obtain ⟨other, inAdded, isProc, isPosition⟩ := history.filled proc pos before
      exact ⟨other, mem_append_left _ inAdded, isProc, isPosition⟩
    rw [update_apply] at small
    split_ifs at small with same
    · rw [same] at before
      exact ⟨task, mem_concat_self, same.symm, by omega⟩
    · exact absurd small before

variable {worker : Nat → SubTask}

theorem Hands.add (hands : Hands nodes worker) (adds : Adds nodes after last id tag seq)
    (vacant : (nodes id).addSeq = 0) (above : ∀ proc, (worker proc).maxFetchSeq < seq) :
    Hands after worker := by
  have outside : ∀ proc, id ∉ inHand (worker proc) := fun proc inHands =>
    ((hands.member proc id).mp inHands).2.1 vacant
  refine { hands with member := ?_, busy := ?_ }
  · intro proc node
    by_cases isId : node = id
    · have tooBig : ¬ seq ≤ (worker proc).maxFetchSeq := Nat.not_le_of_lt (above proc)
      rw [isId, adds.new]
      simp [outside proc, tooBig]
    · have same := adds.same node isId
      rw [hands.member proc node, same.1, Unfinished, Unfinished, same.2.2]
  · intro proc node inBusy
    have away : node ≠ id := fun isId => outside proc (isId ▸ mem_append_left _ inBusy)
    rw [(adds.same node away).2.2]
    exact hands.busy proc node inBusy

theorem Fetched.add (reading : Fetched nodes depth worker count start fetched added)
    (adds : Adds nodes after last id tag seq) (task : Placed Tag) (isSeq : task.seq = seq)
    (isLast : task.position = count task.node.proc)
    (above : ∀ proc, (worker proc).maxFetchSeq < seq) :
    Fetched after depth worker (update count task.node.proc (count task.node.proc + 1))
      start fetched (added ++ [task]) := by
  constructor
  · intro proc
    have within := reading.within proc
    by_cases same : proc = task.node.proc
    · rw [same] at within
      rw [same, update_self]
      exact ⟨within.1, Nat.le_succ_of_le within.2⟩
    · rw [update_of_ne same]
      exact within
  · exact reading.index
  · refine forall_mem_snoc.mpr ⟨reading.seq, ?_⟩
    have tooBig := above task.node.proc
    have within := reading.within task.node.proc
    omega
  · intro node isDone
    have away : node ≠ id := by
      intro isId
      rw [isId, adds.new] at isDone
      rcases isDone with finished | removed
      · exact (startStatus_new nodes last).2.1 finished
      · exact (startStatus_new nodes last).2.2 removed
    have same := adds.same node away
    rw [same.2.2] at isDone
    rw [same.1]
    exact reading.done node isDone

end

theorem ring_add {depth low high : Nat} {sub : SubProc} (positive : 0 < depth)
    (head : sub.taskHead = high % depth) (tail : sub.taskTail = low % depth)
    (room : sub.ringFull = false) (window : low ≤ high) (small : high < low + depth) :
    (polarSchedProcAdvanceRing depth sub).taskHead = (high + 1) % depth ∧
      (polarSchedProcAdvanceRing depth sub).taskTail = low % depth ∧
      ((polarSchedProcAdvanceRing depth sub).ringFull = true ↔ high + 1 = low + depth) := by
  unfold polarSchedProcAdvanceRing
  rw [room]
  simp only [Bool.false_eq_true, if_false, decide_eq_true_eq]
  rw [head, tail, advance_mod _ _ positive]
  refine ⟨rfl, rfl, ?_⟩
  constructor
  · intro same
    by_contra notFull
    exact Lib.Circular.mod_ne_of_lt (show low < high + 1 by omega) (by omega) same.symm
  · intro full
    rw [full, Nat.add_mod_right]

variable [DecidableEq Tag] {sys : System Tag} {sched : TaskSched Tag} {start fetched : Nat → Nat}
  {proc : Nat}

theorem polarSchedProcAddTask_rest (sched : TaskSched Tag) (proc : Nat) (tag : Tag) :
    (polarSchedProcAddTask sched proc tag).totalProc = sched.totalProc ∧
    (polarSchedProcAddTask sched proc tag).taskQueueDepth = sched.taskQueueDepth ∧
    (polarSchedProcAddTask sched proc tag).addedSeq = sched.addedSeq + 1 ∧
    (polarSchedProcAddTask sched proc tag).taskHash =
      update sched.taskHash tag (sched.taskHash tag ++ [⟨proc, (sched.subProc proc).taskHead⟩]) ∧
    (polarSchedProcAddTask sched proc tag).subProc = update sched.subProc proc
      (polarSchedProcAdvanceRing sched.taskQueueDepth (sched.subProc proc)) ∧
    (polarSchedProcAddTask sched proc tag).dstProc = sched.dstProc := by
  unfold polarSchedProcAddTask polarSchedAddTaskHashTable
  dsimp only [TaskSched.setNode, TaskSched.setStatus, TaskSched.setSubProc]
  cases (sched.taskHash tag).getLast? with
  | none => exact ⟨rfl, rfl, rfl, rfl, rfl, rfl⟩
  | some =>
    dsimp only
    split_ifs
    · exact ⟨rfl, rfl, rfl, rfl, rfl, rfl⟩
    · exact ⟨rfl, rfl, rfl, rfl, rfl, rfl⟩

theorem Rings.add {count : Nat → Nat} {added : List (Placed Tag)}
    (history : History sched.totalProc sched.taskQueueDepth sched.addedSeq count added)
    (rings : Rings sched count start added) (task : Placed Tag)
    (isNode : task.node = ⟨proc, (sched.subProc proc).taskHead⟩)
    (isSeq : task.seq = sched.addedSeq + 1) (isTag : task.tag = tag)
    (isLast : task.position = count proc) (room : (sched.subProc proc).ringFull = false)
    (filled : ∀ node, last = some node → (sched.taskNodes node).addSeq ≠ 0)
    (adds : Adds sched.taskNodes (polarSchedProcAddTask sched proc tag).taskNodes last task.node tag
      (sched.addedSeq + 1)) :
    Rings (polarSchedProcAddTask sched proc tag) (update count proc (count proc + 1)) start
      (added ++ [task]) := by
  obtain ⟨-, sameDepth, -, -, newRing, -⟩ := polarSchedProcAddTask_rest sched proc tag
  have vacant := head_vacant history rings room
  rw [← isNode] at vacant
  have isProc : task.node.proc = proc := by rw [isNode]
  have small : count proc < start proc + sched.taskQueueDepth := by
    have window := (rings.window proc).2
    have full := (rings.ring proc).2.2
    rw [room] at full
    simp only [Bool.false_eq_true, false_iff] at full
    omega
  have away : ∀ other ∈ added, Live start other → other.node ≠ task.node := by
    intro other inAdded live sameNode
    have stored := (rings.live other inAdded live).1
    have numbered := (history.numbered other inAdded).1
    rw [sameNode, vacant] at stored
    omega
  constructor
  · rw [sameDepth]
    exact rings.depth
  · intro other
    have window := rings.window other
    rw [sameDepth]
    by_cases same : other = proc
    · rw [same] at window
      rw [same, update_self]
      omega
    · rw [update_of_ne same]
      exact window
  · intro other
    have ring := rings.ring other
    rw [sameDepth, newRing]
    by_cases same : other = proc
    · rw [same] at ring
      rw [same, update_self, update_self]
      exact ring_add rings.depth ring.1 ring.2.1 room (rings.window proc).1 small
    · rw [update_of_ne same, update_of_ne same]
      exact ring
  · refine forall_mem_snoc.mpr ⟨fun other before live => ?_, fun _ => ?_⟩
    · have same := adds.same other.node (away other before live)
      rw [same.1, same.2.1, same.2.2]
      exact rings.live other before live
    · rw [adds.new, isSeq, isTag]
      exact ⟨rfl, rfl, (startStatus_new sched.taskNodes last).1⟩
  · intro node occupied
    by_cases isId : node = task.node
    · refine ⟨task, mem_concat_self, isId.symm, ?_⟩
      rw [Live, isProc, isLast]
      exact (rings.window proc).1
    · rw [(adds.same node isId).1] at occupied
      obtain ⟨other, before, sameNode, live⟩ := rings.occupied node occupied
      exact ⟨other, mem_append_left _ before, sameNode, live⟩
  · intro node empty
    have isOther : node ≠ task.node := by
      intro isId
      rw [isId, adds.new] at empty
      exact Nat.succ_ne_zero _ empty
    have same := adds.same node isOther
    rw [same.1] at empty
    have before := rings.vacant node empty
    have notLatched : ((polarSchedProcAddTask sched proc tag).taskNodes node).nextLatch ≠ true := by
      rw [ne_eq, adds.latch node isOther, before.2]
      rintro (isLast | latched)
      · exact filled node isLast.1 empty
      · cases latched
    rw [same.2.2]
    exact ⟨before.1, Bool.eq_false_iff.mpr notLatched⟩

theorem Ledger.add {worker : Nat → SubTask} {added completed removed : List (Placed Tag)}
    {task : Placed Tag} (ledger : Ledger nodes worker start added completed removed)
    (hands : Hands nodes worker) (adds : Adds nodes after last task.node tag seq)
    (vacant : (nodes task.node).addSeq = 0)
    (filled : ∀ other ∈ added, Live start other → (nodes other.node).addSeq ≠ 0)
    (live : Live start task) (fresh : task ∉ added) :
    Ledger after worker start (added ++ [task]) completed removed := by
  have new := startStatus_new nodes last
  have away : ∀ other ∈ added, Live start other → other.node ≠ task.node := by
    intro other inAdded otherLive sameNode
    rw [← sameNode] at vacant
    exact filled other inAdded otherLive vacant
  have sameStatus : ∀ other ∈ added, Live start other → (after other.node).status =
    (nodes other.node).status :=
    fun other inAdded otherLive => (adds.same other.node (away other inAdded otherLive)).2.2
  constructor
  · intro other
    rw [filter_append]
    exact (ledger.ordered other).trans (prefix_append _ _)
  · intro other inAdded
    rcases mem_append.mp inAdded with before | isTask
    · rw [ledger.isOver other before]
      apply imp_congr_right
      intro otherLive
      rw [Over, Over, sameStatus other before otherLive]
    -- nobody has handled the new task
    rw [mem_singleton.mp isTask]
    apply iff_of_false
    · intro inCompleted
      have inFilter : task ∈ completed.filter fun other => other.tag = task.tag :=
        mem_filter.mpr ⟨inCompleted, by simp⟩
      exact fresh (mem_filter.mp ((ledger.ordered task.tag).subset inFilter)).1
    rw [Classical.not_imp]
    refine ⟨live, ?_⟩
    rw [Over, adds.new]
    rintro (finished | isRemoved | ⟨proc, handled⟩)
    · exact new.2.1 finished
    · exact new.2.2 isRemoved
    · have inHandler : task.node ∈ inHandler (worker proc).activity := by
        simp [handled, Pool.inHandler]
      have there :=
        (hands.member proc task.node).mp (mem_append_left _ (mem_append_left _ inHandler))
      exact there.2.1 vacant
  · refine forall_mem_snoc.mpr ⟨fun other before gone => ?_, fun gone => ?_⟩
    · apply ledger.gone other before
      intro otherLive
      rw [← sameStatus other before otherLive]
      exact gone otherLive
    · have isRemoved := gone live
      rw [adds.new] at isRemoved
      exact absurd isRemoved new.2.2

theorem Inv.add (inv : Inv sys start fetched) (within : proc < sys.sched.totalProc)
    (room : (sys.sched.subProc proc).ringFull = false) (tag : Tag) :
    Inv { sys with
      sched := polarSchedProcAddTask sys.sched proc tag
      count := update sys.count proc (sys.count proc + 1)
      added := sys.added ++ [sys.placing proc tag] } start fetched := by
  have history := inv.history
  have chains := inv.chains
  have rings := inv.rings
  obtain ⟨sameTotal, sameDepth, newSeq, newChain, -⟩ :=
    polarSchedProcAddTask_rest sys.sched proc tag
  have vacant := head_vacant history rings room
  have outside : (⟨proc, (sys.sched.subProc proc).taskHead⟩ : NodeId) ∉ sys.sched.taskHash tag :=
    fun inChain => ((chains.member _ _).mp inChain).1 vacant
  have adds := polarSchedProcAddTask_nodes rfl (rings.vacant _ vacant).2 outside
  have above : ∀ node, (sys.sched.taskNodes node).addSeq < sys.sched.addedSeq + 1 := by
    intro node
    by_cases empty : (sys.sched.taskNodes node).addSeq = 0
    · omega
    · obtain ⟨task, inAdded, -, -, _, -⟩ := task_of_node rings empty
      have numbered := history.numbered task inAdded
      omega
  have tooBig : ∀ other, (sys.worker other).maxFetchSeq < sys.sched.addedSeq + 1 :=
    fun other => Nat.lt_succ_of_le (inv.bounded other)
  constructor
  · change History (polarSchedProcAddTask sys.sched proc tag).totalProc
      (polarSchedProcAddTask sys.sched proc tag).taskQueueDepth
      (polarSchedProcAddTask sys.sched proc tag).addedSeq _ _
    rw [sameTotal, sameDepth, newSeq]
    exact history.add (sys.placing proc tag) rfl within (rings.ring proc).1 rfl
  · apply Rings.add history rings (sys.placing proc tag) rfl rfl rfl rfl room _ adds
    intro node isLast
    exact ((chains.member tag node).mp (mem_of_getLast? isLast)).1
  · rw [newChain]
    exact chains.add adds vacant above
  · exact inv.hands.add adds vacant tooBig
  · rw [sameDepth]
    exact inv.fetched.add adds (sys.placing proc tag) rfl rfl tooBig
  · apply inv.ledger.add inv.hands adds vacant
    · intro other inAdded live
      rw [(rings.live other inAdded live).1]
      exact ne_of_gt (history.numbered other inAdded).1
    · exact (rings.window proc).1
    · intro inAdded
      have numbered := (history.numbered _ inAdded).2
      exact Nat.not_succ_le_self _ numbered
  · intro other
    rw [newSeq]
    exact Nat.le_succ_of_le (inv.bounded other)

end PolarDB.ProcPool.Pool
