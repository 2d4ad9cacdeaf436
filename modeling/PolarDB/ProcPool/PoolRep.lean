import Mathlib.Data.List.Nodup
import PolarDB.Lib.Circular
import PolarDB.Lib.Snoc
import PolarDB.ProcPool.Execution

/-!
# What the rings, the chains and the workers hold

`start` counts the tasks of each ring that were reset and `fetched` those its
worker has seen. The invariant has one part for the rings, one for the chains of
the tags, one for what the workers have in hand and one for the record of the
past.
-/

namespace PolarDB.ProcPool.Pool

open Function List ProcPool.Sched
open ProcPool.Execution

variable {Tag : Type}

def Live (start : Nat → Nat) (task : Placed Tag) : Prop := start task.node.proc ≤ task.position

structure History (total depth addedSeq : Nat) (count : Nat → Nat) (added : List (Placed Tag)) :
    Prop where
  order : added.Pairwise fun early late => early.seq < late.seq
  numbered : ∀ task ∈ added, 0 < task.seq ∧ task.seq ≤ addedSeq
  placed : ∀ task ∈ added, task.node.proc < total ∧ task.node.index = task.position % depth ∧
    task.position < count task.node.proc
  along : ∀ task ∈ added, ∀ other ∈ added, task.node.proc = other.node.proc →
    (task.seq < other.seq ↔ task.position < other.position)
  filled : ∀ proc pos, pos < count proc → ∃ task ∈ added, task.node.proc = proc ∧
    task.position = pos

structure Rings (sched : TaskSched Tag) (count start : Nat → Nat) (added : List (Placed Tag)) :
    Prop where
  depth : 0 < sched.taskQueueDepth
  window : ∀ proc, start proc ≤ count proc ∧ count proc ≤ start proc + sched.taskQueueDepth
  ring : ∀ proc, (sched.subProc proc).taskHead = count proc % sched.taskQueueDepth ∧
    (sched.subProc proc).taskTail = start proc % sched.taskQueueDepth ∧
    ((sched.subProc proc).ringFull = true ↔ count proc = start proc + sched.taskQueueDepth)
  live : ∀ task ∈ added, Live start task → (sched.taskNodes task.node).addSeq = task.seq ∧
    (sched.taskNodes task.node).tag = some task.tag ∧ (sched.taskNodes task.node).status ≠ .idle
  occupied : ∀ node, (sched.taskNodes node).addSeq ≠ 0 → ∃ task ∈ added, task.node = node ∧
    Live start task
  vacant : ∀ node, (sched.taskNodes node).addSeq = 0 →
    (sched.taskNodes node).status = .idle ∧ (sched.taskNodes node).nextLatch = false

/-- The unfinished tasks of a chain: the first may run once it is released, the others are held. -/
def Waiting (nodes : NodeId → TaskNode Tag) (releasing : NodeId → Prop) : List NodeId → Prop
  | [] => True
  | first :: others =>
    ((nodes first).status = .running ∧ ¬ releasing first ∨ (nodes first).status = .hold ∧
      releasing first) ∧ ∀ node ∈ others, (nodes node).status = .hold ∧ ¬ releasing node

structure Chains (nodes : NodeId → TaskNode Tag) (chain : Tag → List NodeId)
    (releasing : NodeId → Prop) : Prop where
  member : ∀ tag node, node ∈ chain tag ↔
    (nodes node).addSeq ≠ 0 ∧ (nodes node).tag = some tag ∧ (nodes node).status ≠ .removed
  sorted : ∀ tag, (chain tag).Pairwise fun early late => (nodes early).addSeq < (nodes late).addSeq
  shape : ∀ tag, ∃ done rest, chain tag = done ++ rest ∧
    (∀ node ∈ done, (nodes node).status = .finished) ∧ Waiting nodes releasing rest
  latch : ∀ tag front node back, chain tag = front ++ node :: back →
    (nodes node).status ≠ .finished → ((nodes node).nextLatch = true ↔ back ≠ [])
  known : ∀ node, releasing node → (nodes node).addSeq ≠ 0 ∧ (nodes node).tag.isSome = true ∧
    (nodes node).status = .hold

def inHandler : Activity → List NodeId
  | .handling task => [task]
  | .handled task => [task]
  | _ => []

def inHand (sub : SubTask) : List NodeId :=
  inHandler sub.activity ++ sub.repeatTasks.map Prod.fst ++ sub.holdTasks

def Releasing (worker : Nat → SubTask) (node : NodeId) : Prop :=
  ∃ proc, (worker proc).activity = .releasing (some node)

def Unfinished (node : TaskNode Tag) : Prop := node.status = .running ∨ node.status = .hold

structure Hands (nodes : NodeId → TaskNode Tag) (worker : Nat → SubTask) : Prop where
  nodup : ∀ proc, (inHand (worker proc)).Nodup
  member : ∀ proc node, node ∈ inHand (worker proc) ↔
    node.proc = proc ∧ (nodes node).addSeq ≠ 0 ∧ (nodes node).addSeq ≤ (worker proc).maxFetchSeq ∧
      Unfinished (nodes node)
  busy : ∀ proc,
    ∀ node ∈ inHandler (worker proc).activity ++ (worker proc).repeatTasks.map Prod.fst,
    (nodes node).status = .running
  alone : ∀ proc other node, (worker proc).activity = .releasing (some node) →
    (worker other).activity = .releasing (some node) → proc = other

/-- How far the workers have read their rings. -/
structure Fetched (nodes : NodeId → TaskNode Tag) (depth : Nat) (worker : Nat → SubTask)
    (count start fetched : Nat → Nat) (added : List (Placed Tag)) : Prop where
  within : ∀ proc, start proc ≤ fetched proc ∧ fetched proc ≤ count proc
  index : ∀ proc, (worker proc).fetchTaskIdx % depth = fetched proc % depth ∧
    (worker proc).fetchTaskIdx ≤ depth
  seq : ∀ task ∈ added, task.seq ≤ (worker task.node.proc).maxFetchSeq ↔
    task.position < fetched task.node.proc
  done : ∀ node, (nodes node).status = .finished ∨ (nodes node).status = .removed →
    (nodes node).addSeq ≤ (worker node.proc).maxFetchSeq

/-- The task is handled: it is finished, or its worker is about to mark it as finished. -/
def Over (nodes : NodeId → TaskNode Tag) (worker : Nat → SubTask) (node : NodeId) : Prop :=
  (nodes node).status = .finished ∨ (nodes node).status = .removed ∨
  ∃ proc, (worker proc).activity = .handled node

structure Ledger [DecidableEq Tag] (nodes : NodeId → TaskNode Tag) (worker : Nat → SubTask)
    (start : Nat → Nat) (added completed removed : List (Placed Tag)) : Prop where
  ordered : ∀ tag, (completed.filter fun task => task.tag = tag) <+: added.filter fun task =>
    task.tag = tag
  isOver : ∀ task ∈ added, task ∈ completed ↔ (Live start task → Over nodes worker task.node)
  gone : ∀ task ∈ added, (Live start task → (nodes task.node).status = .removed) → task ∈ removed

structure Inv [DecidableEq Tag] (sys : System Tag) (start fetched : Nat → Nat) : Prop where
  history : History sys.sched.totalProc sys.sched.taskQueueDepth sys.sched.addedSeq sys.count
    sys.added
  rings : Rings sys.sched sys.count start sys.added
  chains : Chains sys.sched.taskNodes sys.sched.taskHash (Releasing sys.worker)
  hands : Hands sys.sched.taskNodes sys.worker
  fetched : Fetched sys.sched.taskNodes sys.sched.taskQueueDepth sys.worker sys.count start fetched
    sys.added
  ledger : Ledger sys.sched.taskNodes sys.worker start sys.added sys.completed sys.removed
  bounded : ∀ proc, (sys.worker proc).maxFetchSeq ≤ sys.sched.addedSeq

section

variable {sched : TaskSched Tag} {count start fetched : Nat → Nat} {added : List (Placed Tag)}
  {total depth addedSeq : Nat}

theorem History.nodup (history : History total depth addedSeq count added) : added.Nodup := by
  apply history.order.imp
  intro _ _ below same
  rw [same] at below
  exact lt_irrefl _ below

variable {task other : Placed Tag}

section
variable (history : History total depth addedSeq count added) (mem : task ∈ added)
  (otherMember : other ∈ added)
include history mem otherMember

theorem History.eq_of_seq (same : task.seq = other.seq) : task = other := by
  have distinct : (added.map Placed.seq).Nodup := pairwise_map.mpr (history.order.imp ne_of_lt)
  exact inj_on_of_nodup_map distinct mem otherMember same

theorem History.eq_of_position (sameProc : task.node.proc = other.node.proc)
    (samePosition : task.position = other.position) : task = other := by
  apply history.eq_of_seq mem otherMember
  have forward := history.along task mem other otherMember sameProc
  have backward := history.along other otherMember task mem sameProc.symm
  omega

end

variable (history : History sched.totalProc sched.taskQueueDepth sched.addedSeq count added)
  (rings : Rings sched count start added)

include history rings in
theorem live_unique (mem : task ∈ added) (otherMember : other ∈ added)
    (live : Live start task) (otherLive : Live start other) (same : task.node = other.node) :
    task = other := by
  apply history.eq_of_seq mem otherMember
  rw [← (rings.live task mem live).1, ← (rings.live other otherMember otherLive).1, same]

include rings in
theorem task_of_node {node : NodeId} (occupied : (sched.taskNodes node).addSeq ≠ 0) :
    ∃ task ∈ added, task.node = node ∧ Live start task ∧ task.seq = (sched.taskNodes node).addSeq ∧
      (sched.taskNodes node).tag = some task.tag := by
  obtain ⟨task, mem, isNode, live⟩ := rings.occupied node occupied
  have stored := rings.live task mem live
  rw [isNode] at stored
  exact ⟨task, mem, isNode, live, stored.1.symm, stored.2.1⟩

include history rings in
theorem live_of_seq {task : Placed Tag} (mem : task ∈ added)
    (same : (sched.taskNodes task.node).addSeq = task.seq) : Live start task := by
  have positive := (history.numbered task mem).1
  obtain ⟨_, otherMember, -, otherLive, otherSeq, -⟩ :=
    task_of_node rings (show (sched.taskNodes task.node).addSeq ≠ 0 by omega)
  have isOther := history.eq_of_seq mem otherMember (by rw [otherSeq, same])
  exact isOther ▸ otherLive

include history rings in
theorem head_vacant {proc : Nat} (room : (sched.subProc proc).ringFull = false) :
    (sched.taskNodes { proc := proc, index := (sched.subProc proc).taskHead }).addSeq = 0 := by
  by_contra occupied
  obtain ⟨task, mem, isNode, live, -⟩ := task_of_node rings occupied
  have placed := history.placed task mem
  have isProc : task.node.proc = proc := by rw [isNode]
  have isIndex : task.node.index = (sched.subProc proc).taskHead := by rw [isNode]
  have ring := rings.ring proc
  have window := rings.window proc
  have notFull : count proc ≠ start proc + sched.taskQueueDepth := by
    intro full
    rw [ring.2.2.mpr full] at room
    cases room
  rw [placed.2.1, ring.1] at isIndex
  rw [isProc] at placed
  unfold Live at live
  rw [isProc] at live
  exact Lib.Circular.mod_ne_of_lt placed.2.2 (by omega) isIndex

end

section

variable {nodes : NodeId → TaskNode Tag} {chain : Tag → List NodeId} {releasing : NodeId → Prop}
  {tag : Tag}
  {node : NodeId}

theorem Chains.nodup (chains : Chains nodes chain releasing) (tag : Tag) : (chain tag).Nodup := by
  apply (chains.sorted tag).imp
  intro _ _ below same
  rw [same] at below
  exact lt_irrefl _ below

theorem Waiting.unfinished {rest : List NodeId} (waiting : Waiting nodes releasing rest) :
    ∀ node ∈ rest, (nodes node).status ≠ .finished := by
  intro node mem finished
  cases rest with
  | nil => cases mem
  | cons =>
    rcases mem_cons.mp mem with same | later
    · rw [same] at finished
      rcases waiting.1 with running | held
      · rw [running.1] at finished
        cases finished
      · rw [held.1] at finished
        cases finished
    · rw [(waiting.2 node later).1] at finished
      cases finished

/-- The first unfinished task of a chain is the one that runs or is released. -/
theorem Chains.split (chains : Chains nodes chain releasing) (mem : node ∈ chain tag)
    (unfinished : (nodes node).status ≠ .finished)
    (first : ¬((nodes node).status = .hold ∧ ¬ releasing node)) :
    ∃ done others, chain tag = done ++ node :: others ∧
      (∀ earlier ∈ done, (nodes earlier).status = .finished) ∧
      Waiting nodes releasing (node :: others) := by
  obtain ⟨done, rest, whole, finished, waiting⟩ := chains.shape tag
  rw [whole] at mem
  rcases mem_append.mp mem with early | late
  · exact absurd (finished node early) unfinished
  cases rest with
  | nil => cases late
  | cons _ others =>
    rcases mem_cons.mp late with same | later
    · subst same
      exact ⟨done, others, whole, finished, waiting⟩
    · exact absurd (waiting.2 node later) first

theorem Chains.split_running (chains : Chains nodes chain releasing) (mem : node ∈ chain tag)
    (running : (nodes node).status = .running) :
    ∃ done others, chain tag = done ++ node :: others ∧
    (∀ earlier ∈ done, (nodes earlier).status = .finished) ∧
      ¬ releasing node ∧ ∀ later ∈ others, (nodes later).status = .hold ∧ ¬ releasing later := by
  obtain ⟨done, others, whole, finished, waiting⟩ :=
    chains.split mem (by simp [running]) (by simp [running])
  refine ⟨done, others, whole, finished, ?_, waiting.2⟩
  rcases waiting.1 with isRunning | held
  · exact isRunning.2
  · rw [held.1] at running
    cases running

theorem Waiting.congr {other : NodeId → TaskNode Tag} {otherReleasing : NodeId → Prop}
    {rest : List NodeId} (waiting : Waiting nodes releasing rest)
    (same : ∀ node ∈ rest, (other node).status = (nodes node).status ∧
      (otherReleasing node ↔ releasing node)) : Waiting other otherReleasing rest := by
  cases rest with
  | nil => trivial
  | cons first =>
    constructor
    · have atFirst := same first mem_cons_self
      rw [atFirst.1, atFirst.2]
      exact waiting.1
    · intro node mem
      have there := same node (mem_cons_of_mem _ mem)
      rw [there.1, there.2]
      exact waiting.2 node mem

theorem Chains.shape_congr {other : NodeId → TaskNode Tag} {otherReleasing : NodeId → Prop}
    (chains : Chains nodes chain releasing)
    (same : ∀ node ∈ chain tag, (other node).status = (nodes node).status ∧
      (otherReleasing node ↔ releasing node)) : ∃ done rest, chain tag = done ++ rest ∧
      (∀ node ∈ done, (other node).status = .finished) ∧ Waiting other otherReleasing rest := by
  obtain ⟨done, rest, whole, finished, waiting⟩ := chains.shape tag
  rw [whole] at same
  refine ⟨done, rest, whole, ?_,
    waiting.congr fun node inRest => same node (mem_append_right _ inRest)⟩
  intro node inDone
  rw [(same node (mem_append_left _ inDone)).1]
  exact finished node inDone

theorem Chains.tag_unique {other : Tag} (chains : Chains nodes chain releasing)
    (inTag : node ∈ chain tag) (inOther : node ∈ chain other) : other = tag := by
  have one := ((chains.member other node).mp inOther).2.1
  have two := ((chains.member tag node).mp inTag).2.1
  rw [one] at two
  injection two

end

section

variable {nodes : NodeId → TaskNode Tag} {chain : Tag → List NodeId} {releasing : NodeId → Prop}
  {id : NodeId}
  {status : Status}

def withStatus (nodes : NodeId → TaskNode Tag) (id : NodeId) (status : Status) :
    NodeId → TaskNode Tag :=
  update nodes id { nodes id with status := status }

@[simp]
theorem withStatus_self : (withStatus nodes id status id).status = status := by
  rw [withStatus, update_self]

theorem withStatus_of_ne {node : NodeId} (different : node ≠ id) :
    withStatus nodes id status node = nodes node := by
  rw [withStatus, update_of_ne different]

@[simp]
theorem withStatus_addSeq (node : NodeId) : (withStatus nodes id status node).addSeq =
    (nodes node).addSeq := by
  by_cases same : node = id
  · rw [same, withStatus, update_self]
  · rw [withStatus_of_ne same]

@[simp]
theorem withStatus_tag (node : NodeId) : (withStatus nodes id status node).tag =
    (nodes node).tag := by
  by_cases same : node = id
  · rw [same, withStatus, update_self]
  · rw [withStatus_of_ne same]

@[simp]
theorem withStatus_nextLatch (node : NodeId) :
    (withStatus nodes id status node).nextLatch = (nodes node).nextLatch := by
  by_cases same : node = id
  · rw [same, withStatus, update_self]
  · rw [withStatus_of_ne same]

theorem withStatus_removed (kept : status ≠ .removed) (node : NodeId)
    (removed : (withStatus nodes id status node).status = .removed) :
    (nodes node).status = .removed := by
  by_cases same : node = id
  · rw [same, withStatus_self] at removed
    exact absurd removed kept
  · rw [withStatus_of_ne same] at removed
    exact removed

theorem Rings.set_status {sched : TaskSched Tag} {count start : Nat → Nat}
    {added : List (Placed Tag)} (rings : Rings sched count start added)
    (occupied : (sched.taskNodes id).addSeq ≠ 0) (filled : status ≠ .idle) :
    Rings (sched.setStatus id status) count start added := by
  refine { rings with live := ?_, occupied := ?_, vacant := ?_ }
  · intro task mem live
    have stored := rings.live task mem live
    change (withStatus sched.taskNodes id status task.node).addSeq = _ ∧
      (withStatus sched.taskNodes id status task.node).tag = _ ∧
      (withStatus sched.taskNodes id status task.node).status ≠ _
    rw [withStatus_addSeq, withStatus_tag]
    refine ⟨stored.1, stored.2.1, ?_⟩
    by_cases same : task.node = id
    · rw [same, withStatus_self]
      exact filled
    · rw [withStatus_of_ne same]
      exact stored.2.2
  · intro node there
    change (withStatus sched.taskNodes id status node).addSeq ≠ 0 at there
    rw [withStatus_addSeq] at there
    exact rings.occupied node there
  · intro node empty
    change (withStatus sched.taskNodes id status node).addSeq = 0 at empty
    rw [withStatus_addSeq] at empty
    have different : node ≠ id := by
      intro same
      rw [same] at empty
      exact occupied empty
    change (withStatus sched.taskNodes id status node).status = _ ∧
      (withStatus sched.taskNodes id status node).nextLatch = _
    rw [withStatus_of_ne different]
    exact rings.vacant node empty

theorem Chains.set_status {after : NodeId → Prop} {tag : Tag}
    (chains : Chains nodes chain releasing) (mem : id ∈ chain tag) (kept : status ≠ .removed)
    (unfinished : status ≠ .finished → (nodes id).status ≠ .finished)
    (elsewhere : ∀ node, node ∉ chain tag → (after node ↔ releasing node))
    (held : ∀ node ∈ chain tag, after node → (withStatus nodes id status node).status = .hold)
    (shape : ∃ done rest, chain tag = done ++ rest ∧
      (∀ node ∈ done, (withStatus nodes id status node).status = .finished) ∧
      Waiting (withStatus nodes id status) after rest) :
    Chains (withStatus nodes id status) chain after := by
  have atNode := (chains.member tag id).mp mem
  constructor
  · intro other node
    rw [chains.member other node, withStatus_addSeq, withStatus_tag]
    by_cases same : node = id
    · subst same
      rw [withStatus_self]
      exact ⟨fun there => ⟨there.1, there.2.1, kept⟩, fun there => ⟨there.1, there.2.1, atNode.2.2⟩⟩
    · rw [withStatus_of_ne same]
  · intro other
    simp only [withStatus_addSeq]
    exact chains.sorted other
  · intro other
    by_cases sameTag : other = tag
    · rw [sameTag]
      exact shape
    -- the task is in no other chain
    apply chains.shape_congr
    intro node inOther
    have outside : node ∉ chain tag := fun inTag => sameTag (chains.tag_unique inTag inOther)
    have apart : node ≠ id := fun same => outside (same ▸ mem)
    rw [withStatus_of_ne apart]
    exact ⟨rfl, elsewhere node outside⟩
  · intro other front node back whole notFinished
    rw [withStatus_nextLatch]
    apply chains.latch other front node back whole
    by_cases same : node = id
    · rw [same, withStatus_self] at notFinished
      rw [same]
      exact unfinished notFinished
    · rw [withStatus_of_ne same] at notFinished
      exact notFinished
  · intro node isAfter
    rw [withStatus_addSeq, withStatus_tag]
    by_cases inTag : node ∈ chain tag
    · have there := (chains.member tag node).mp inTag
      exact ⟨there.1, by rw [there.2.1]; rfl, held node inTag isAfter⟩
    have there := chains.known node ((elsewhere node inTag).mp isAfter)
    have different : node ≠ id := by
      intro same
      rw [same] at inTag
      exact inTag mem
    rw [withStatus_of_ne different]
    exact there

variable {worker : Nat → SubTask}

theorem Hands.set_status (hands : Hands nodes worker)
    (same : Unfinished { nodes id with status := status } ↔ Unfinished (nodes id))
    (busy : (nodes id).status = .running → status = .running) :
      Hands (withStatus nodes id status) worker := by
  refine { hands with member := ?_, busy := ?_ }
  · intro proc node
    rw [hands.member proc node, withStatus_addSeq]
    by_cases isId : node = id
    · rw [isId, withStatus, update_self, same]
    · rw [withStatus_of_ne isId]
  · intro proc node inBusy
    have running := hands.busy proc node inBusy
    by_cases isId : node = id
    · rw [isId] at running
      rw [isId, withStatus_self]
      exact busy running
    · rw [withStatus_of_ne isId]
      exact running

theorem Fetched.set_status {depth : Nat} {count start fetched : Nat → Nat}
    {added : List (Placed Tag)} (reading : Fetched nodes depth worker count start fetched added)
    (done : status = .finished ∨ status = .removed →
      (nodes id).addSeq ≤ (worker id.proc).maxFetchSeq) :
    Fetched (withStatus nodes id status) depth worker count start fetched added := by
  refine { reading with done := ?_ }
  intro node isDone
  rw [withStatus_addSeq]
  by_cases same : node = id
  · rw [same, withStatus_self] at isDone
    rw [same]
    exact done isDone
  · rw [withStatus_of_ne same] at isDone
    exact reading.done node isDone

theorem Ledger.congr [DecidableEq Tag] {other : NodeId → TaskNode Tag}
    {worker otherWorker : Nat → SubTask} {start : Nat → Nat}
    {added completed removed : List (Placed Tag)}
    (ledger : Ledger nodes worker start added completed removed)
    (isOver : ∀ node, Over nodes worker node ↔ Over other otherWorker node)
    (gone : ∀ node, (other node).status = .removed → (nodes node).status = .removed) :
    Ledger other otherWorker start added completed removed := by
  constructor
  · exact ledger.ordered
  · intro task mem
    rw [ledger.isOver task mem, isOver]
  · intro task mem removed
    apply ledger.gone task mem
    intro live
    exact gone task.node (removed live)

end

end PolarDB.ProcPool.Pool
