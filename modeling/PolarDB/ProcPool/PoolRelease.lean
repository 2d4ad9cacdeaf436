import PolarDB.ProcPool.PoolWorker

/-!
# Finishing a task and releasing its successor
-/

namespace PolarDB.ProcPool.Pool

open List ProcPool.Sched
open Function ProcPool.Execution

variable {Tag : Type} {nodes : NodeId → TaskNode Tag} {worker : Nat → SubTask} {sub : SubTask}
  {proc : Nat}
variable {task : NodeId} {done others : List NodeId} {successor : NodeId}

theorem dependNext_eq (nodup : (done ++ task :: others).Nodup)
    (more : others ≠ []) : dependNext (done ++ task :: others) task = others.head? := by
  have before : ∀ node ∈ done, node ≠ task := by
    intro node inDone same
    have apart := (nodup_append.mp nodup).2.2
    exact apart node inDone task mem_cons_self same
  have dropped : ((done ++ task :: others).dropWhile fun node => node ≠ task) = task :: others := by
    rw [dropWhile_append_of_pos]
    · simp
    · intro node inDone
      simpa using before node inDone
  rw [dependNext, dropped, tail_cons]
  cases others with
  | nil => exact absurd rfl more
  | cons => rfl

variable {chain : Tag → List NodeId} {tag : Tag}

theorem markTaskFinished_successor {sched : TaskSched Tag} {releasing : NodeId → Prop}
    (chains : Chains sched.taskNodes sched.taskHash releasing)
    (whole : sched.taskHash tag = done ++ task :: others)
    (hasTag : (sched.taskNodes task).tag = some tag)
    (running : (sched.taskNodes task).status = .running) :
    (markTaskFinished sched task).2 = others.head? := by
  have latch := chains.latch tag done task others whole (by rw [running]; exact nofun)
  have nodup := chains.nodup tag
  rw [whole] at nodup
  rw [markTaskFinished]
  rw [hasTag]
  cases others with
  | nil =>
    have unset : (sched.taskNodes task).nextLatch = false := by simpa using latch
    rw [unset]
    rfl
  | cons =>
    have set : (sched.taskNodes task).nextLatch = true := by simpa using latch
    rw [set]
    dsimp only
    rw [whole]
    exact dependNext_eq nodup (cons_ne_nil _ _)

/-- What is being released once a calm worker starts to release `successor`. -/
theorem releasing_start {successor : Option NodeId} (before : Calm (worker proc).activity)
    (after : sub.activity = .releasing successor) (node : NodeId) :
    Releasing (update worker proc sub) node ↔ Releasing worker node ∨ successor = some node := by
  constructor
  · rintro ⟨other, releasing⟩
    rw [update_apply] at releasing
    split_ifs at releasing
    · rw [after] at releasing
      injection releasing with isSome
      exact .inr isSome
    · exact .inl ⟨other, releasing⟩
  · rintro (⟨other, releasing⟩ | isSome)
    · have different : other ≠ proc := by
        intro same
        rw [same] at releasing
        exact before node releasing
      exact ⟨other, by rw [update_of_ne different]; exact releasing⟩
    · exact ⟨proc, by rw [update_self, after, isSome]⟩

/-- What is being released once the worker that released `successor` is calm again. -/
theorem releasing_end (hands : Hands nodes worker)
    (before : (worker proc).activity = .releasing (some successor)) (after : Calm sub.activity)
    (node : NodeId) : Releasing (update worker proc sub) node ↔ Releasing worker node ∧
    node ≠ successor := by
  constructor
  · rintro ⟨other, releasing⟩
    rw [update_apply] at releasing
    split_ifs at releasing with same
    · exact absurd releasing (after node)
    · refine ⟨⟨other, releasing⟩, ?_⟩
      intro isSuccessor
      rw [isSuccessor] at releasing
      exact same (hands.alone other proc successor releasing before)
  · rintro ⟨⟨other, releasing⟩, different⟩
    have isOther : other ≠ proc := by
      intro same
      rw [same, before] at releasing
      injection releasing with isSome
      injection isSome with isSuccessor
      exact different isSuccessor.symm
    exact ⟨other, by rw [update_of_ne isOther]; exact releasing⟩

theorem Chains.finish (chains : Chains nodes chain (Releasing worker))
    (whole : chain tag = done ++ task :: others)
    (finished : ∀ node ∈ done, (nodes node).status = .finished)
    (notReleasing : ¬ Releasing worker task)
    (held : ∀ node ∈ others, (nodes node).status = .hold ∧ ¬ Releasing worker node)
    (before : Calm (worker proc).activity) (after : sub.activity = .releasing others.head?) :
    Chains (withStatus nodes task .finished) chain (Releasing (update worker proc sub)) := by
  have nodup := chains.nodup tag
  rw [whole] at nodup
  have parts := nodup_append.mp nodup
  have apart : ∀ node ∈ others, node ≠ task := fun node inOthers same =>
    (nodup_cons.mp parts.2.1).1 (same ▸ inOthers)
  have mem : task ∈ chain tag := by
    rw [whole]
    exact mem_append_right _ mem_cons_self
  have started : ∀ node, Releasing (update worker proc sub) node ↔
      Releasing worker node ∨ others.head? = some node := releasing_start before after
  apply chains.set_status mem
  · exact nofun
  · exact absurd rfl
  · intro node outside
    rw [started]
    constructor
    · rintro (releasing | isHead)
      · exact releasing
      · have inOthers := mem_of_mem_head? isHead
        rw [whole] at outside
        exact absurd (mem_append_right _ (mem_cons_of_mem _ inOthers)) outside
    · exact .inl
  · intro node _ releasing
    rcases (started node).mp releasing with already | isHead
    · have different : node ≠ task := fun same => notReleasing (same ▸ already)
      rw [withStatus_of_ne different]
      exact (chains.known node already).2.2
    · have inOthers := mem_of_mem_head? isHead
      rw [withStatus_of_ne (apart node inOthers)]
      exact (held node inOthers).1
  · refine ⟨done ++ [task], others, by rw [whole, append_assoc]; rfl, ?_, ?_⟩
    · intro node inDone
      by_cases same : node = task
      · rw [same, withStatus_self]
      · rw [withStatus_of_ne same]
        rcases mem_append.mp inDone with early | isTask
        · exact finished node early
        · exact absurd (mem_singleton.mp isTask) same
    cases others with
    | nil => trivial
    | cons successor =>
      constructor
      · rw [withStatus_of_ne (apart successor mem_cons_self)]
        exact .inr ⟨(held successor mem_cons_self).1, (started successor).mpr (.inr rfl)⟩
      intro node inRest
      have inOthers := mem_cons_of_mem successor inRest
      rw [withStatus_of_ne (apart node inOthers), started]
      refine ⟨(held node inOthers).1, ?_⟩
      rintro (already | isHead)
      · exact (held node inOthers).2 already
      · injection isHead with isSuccessor
        have distinct := (nodup_cons.mp (nodup_cons.mp parts.2.1).2).1
        exact distinct (isSuccessor ▸ inRest)

theorem Hands.finish {successor : Option NodeId} (hands : Hands nodes worker)
    (handled : (worker proc).activity = .handled task)
    (fresh : ∀ node, successor = some node → ¬ Releasing worker node) :
    Hands (withStatus nodes task .finished)
      (update worker proc { worker proc with activity := .releasing successor }) := by
  have atTask := hands.in_handler handled mem_cons_self
  have before : inHand (worker proc) = task ::
    ((worker proc).repeatTasks.map Prod.fst ++ (worker proc).holdTasks) := by
    rw [inHand, handled]
    rfl
  have nodup := hands.nodup proc
  rw [before, nodup_cons] at nodup
  have unfinished : ∀ node, Unfinished (withStatus nodes task .finished node) ↔
      Unfinished (nodes node) ∧ node ≠ task := by
    intro node
    by_cases same : node = task
    · rw [same, Unfinished, withStatus_self]
      simp
    · rw [withStatus_of_ne same]
      simp [same]
  have elsewhere : ∀ other node, other ≠ proc → node.proc = other → node ≠ task := by
    intro other node different isProc same
    rw [same, atTask.1] at isProc
    exact different isProc.symm
  constructor
  · intro other
    rw [update_apply]
    split_ifs
    · exact nodup.2
    · exact hands.nodup other
  · intro other node
    rw [withStatus_addSeq, unfinished]
    by_cases isProc : other = proc
    · have inBefore := hands.member proc node
      rw [before, mem_cons] at inBefore
      rw [isProc, update_self]
      change node ∈ (worker proc).repeatTasks.map Prod.fst ++ (worker proc).holdTasks ↔ _
      by_cases same : node = task
      · rw [same]
        simp [nodup.1]
      · simp only [same, false_or, ne_eq, not_false_eq_true, and_true] at inBefore ⊢
        exact inBefore
    · rw [update_of_ne isProc, hands.member other node]
      constructor
      · rintro ⟨there, occupied, fetched, isUnfinished⟩
        exact ⟨there, occupied, fetched, isUnfinished, elsewhere other node isProc there⟩
      · rintro ⟨there, occupied, fetched, isUnfinished, -⟩
        exact ⟨there, occupied, fetched, isUnfinished⟩
  · intro other node inBusy
    rw [update_apply] at inBusy
    split_ifs at inBusy with isProc
    · have inRepeat : node ∈ (worker proc).repeatTasks.map Prod.fst := inBusy
      have different : node ≠ task := fun same => nodup.1 (mem_append_left _ (same ▸ inRepeat))
      rw [withStatus_of_ne different]
      exact hands.busy proc node (mem_append_right _ inRepeat)
    · have there := (hands.member other node).mp (mem_append_left _ inBusy)
      rw [withStatus_of_ne (elsewhere other node isProc there.1)]
      exact hands.busy other node inBusy
  · intro one other node releasing otherReleasing
    by_cases isProc : one = proc
    · by_cases otherProc : other = proc
      · rw [isProc, otherProc]
      · rw [isProc, update_self] at releasing
        rw [update_of_ne otherProc] at otherReleasing
        injection releasing with isSome
        exact absurd ⟨other, otherReleasing⟩ (fresh node isSome)
    · rw [update_of_ne isProc] at releasing
      rw [update_apply] at otherReleasing
      split_ifs at otherReleasing
      · injection otherReleasing with isSome
        exact absurd ⟨one, releasing⟩ (fresh node isSome)
      · exact hands.alone one other node releasing otherReleasing

theorem Chains.release (chains : Chains nodes chain (Releasing worker)) (hands : Hands nodes worker)
    (releasing : (worker proc).activity = .releasing (some successor)) (mem : successor ∈ chain tag)
    (after : Calm sub.activity) :
    Chains (withStatus nodes successor .running) chain (Releasing (update worker proc sub)) := by
  have ended : ∀ node, Releasing (update worker proc sub) node ↔
      Releasing worker node ∧ node ≠ successor := releasing_end hands releasing after
  have waits := (chains.known successor ⟨proc, releasing⟩).2.2
  obtain ⟨done, others, whole, finished, -, held⟩ :=
    chains.split mem (by simp [waits]) fun held => held.2 ⟨proc, releasing⟩
  have nodup := chains.nodup tag
  rw [whole] at nodup
  have parts := nodup_append.mp nodup
  apply chains.set_status mem
  · exact nofun
  · rw [waits]
    exact fun _ => nofun
  · intro node outside
    rw [ended]
    have different : node ≠ successor := fun same => outside (same ▸ mem)
    exact ⟨And.left, fun isReleasing => ⟨isReleasing, different⟩⟩
  · intro node _ isReleasing
    have still := (ended node).mp isReleasing
    rw [withStatus_of_ne still.2]
    exact (chains.known node still.1).2.2
  · refine ⟨done, successor :: others, whole, ?_, ?_, ?_⟩
    · intro node inDone
      rw [withStatus_of_ne (parts.2.2 node inDone successor mem_cons_self)]
      exact finished node inDone
    · rw [withStatus_self, ended]
      exact .inl ⟨rfl, fun isReleasing => isReleasing.2 rfl⟩
    · intro node inOthers
      have different : node ≠ successor := fun same => (nodup_cons.mp parts.2.1).1 (same ▸ inOthers)
      rw [withStatus_of_ne different, ended]
      exact ⟨(held node inOthers).1, fun isReleasing => (held node inOthers).2 isReleasing.1⟩

variable [DecidableEq Tag] {sys : System Tag} {start fetched : Nat → Nat}

theorem Inv.finish (inv : Inv sys start fetched)
    (handled : (sys.worker proc).activity = .handled task) :
    Inv { sys.setWorker proc { sys.worker proc with
        activity := .releasing (markTaskFinished sys.sched task).2 } with
      sched := (markTaskFinished sys.sched task).1 } start fetched := by
  have chains := inv.chains
  have atTask := inv.hands.in_handler handled mem_cons_self
  have calm : Calm (sys.worker proc).activity := by
    rw [handled]
    exact calm_handled task
  obtain ⟨_, _, _, hasTag, whole, finished, notReleasing, held⟩ :=
    inv.busy_chain handled mem_cons_self
  rw [markTaskFinished_successor chains whole hasTag atTask.2.2.2]
  constructor
  · exact inv.history
  · exact inv.rings.set_status atTask.2.1 nofun
  · exact chains.finish whole finished notReleasing held calm rfl
  · apply inv.hands.finish handled
    intro node isHead
    exact (held node (mem_of_mem_head? isHead)).2
  · apply Fetched.set_status
    · exact inv.fetched.rearrange rfl (inv.fetched.index proc)
    · intro _
      rw [atTask.1]
      change _ ≤ (update sys.worker proc _ proc).maxFetchSeq
      rw [update_self]
      exact atTask.2.2.1
  · apply inv.ledger.congr
    · intro node
      change _ ↔ Over (withStatus sys.sched.taskNodes task .finished) (update sys.worker proc _) _
      by_cases same : node = task
      · rw [same]
        exact ⟨fun _ => .inl withStatus_self, fun _ => .inr (.inr ⟨proc, handled⟩)⟩
      apply (over_update _ _).symm.trans
      · unfold Over
        rw [withStatus_of_ne same]
      · rw [handled]
        intro isHandled
        injection isHandled with isNode
        exact same isNode.symm
      · exact nofun
    · exact withStatus_removed nofun
  · exact bounded_update inv.bounded (inv.bounded proc)

theorem Inv.release (inv : Inv sys start fetched)
    (releasing : (sys.worker proc).activity = .releasing (some successor)) :
    Inv { sys.setWorker proc { sys.worker proc with activity := .fetching } with
      sched := sys.sched.setStatus successor .running } start fetched := by
  have known := inv.chains.known successor ⟨proc, releasing⟩
  obtain ⟨placed, -, -, -, -, hasTag⟩ := task_of_node inv.rings known.1
  have inChain : successor ∈ sys.sched.taskHash placed.tag := by
    rw [inv.chains.member, known.2.2]
    exact ⟨known.1, hasTag, nofun⟩
  constructor
  · exact inv.history
  · exact inv.rings.set_status known.1 nofun
  · exact inv.chains.release inv.hands releasing inChain calm_fetching
  · apply Hands.set_status
    · apply inv.hands.rearrange
      · unfold inHand
        rw [releasing]
        exact List.Perm.refl _
      · rfl
      · have busy := inv.hands.busy proc
        rw [releasing] at busy
        exact busy
      · exact calm_fetching
    · simp [Unfinished, known.2.2]
    · exact fun _ => rfl
  · apply Fetched.set_status
    · exact inv.fetched.rearrange rfl (inv.fetched.index proc)
    · exact fun done => absurd done (by simp)
  · apply inv.ledger.congr
    · intro node
      have sameStatus : Over sys.sched.taskNodes sys.worker node ↔
          Over (withStatus sys.sched.taskNodes successor .running) sys.worker node := by
        unfold Over
        by_cases same : node = successor
        · rw [same, withStatus_self, known.2.2]
          simp
        · rw [withStatus_of_ne same]
      apply sameStatus.trans
      apply (over_update _ _).symm
      · rw [releasing]
        exact nofun
      · exact nofun
    · exact withStatus_removed nofun
  · exact bounded_update inv.bounded (inv.bounded proc)

end PolarDB.ProcPool.Pool
