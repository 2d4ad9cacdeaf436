import PolarDB.Buffer.FlushOrder
import PolarDB.Lib.Runs

/-!
# The flush list and its cursor

The background writers take the buffers of the flush list in batches from
`current_pos` on. A buffer that leaves the list moves the cursor away from itself.
When it was the only one, the cursor is left at the end of the list, which the test
for an unavailable cursor does not recognise.

The buffers, their oldest LSNs and the links are those of the buffer manager's state;
`insertRecPtr` stands for the LSN up to which this node has WAL, from which fake
oldest LSNs are taken.
-/

namespace PolarDB.Buffer.FlushList

open Function List Lib.Doubly
open Lib.Runs
open Buffer.Bufmgr
open Buffer.FlushOrder

structure FlushControl (Page Buf : Type) where
  pool : State Page Buf
  currentPos : Link Buf
  latestFlushCount : Nat
  count : Nat

variable {Page Buf : Type} [DecidableEq Buf]

def bufferNotInFlushList (pool : State Page Buf) (buf : Buf) : Prop :=
  pool.flushCtl.previous buf = .notInList ∧ pool.flushCtl.next buf = .notInList

def FlushControl.removeOneBuffer (ctl : FlushControl Page Buf) (buf : Buf) :
    FlushControl Page Buf :=
  let nextFlushId := ctl.pool.flushCtl.next buf
  let removed := Bufmgr.removeOneBuffer ctl.pool buf
  { ctl with
    pool := removed
    currentPos :=
      if ctl.currentPos = .node buf then
        if nextFlushId = .endOfList then removed.flushCtl.first else nextFlushId
      else ctl.currentPos }

def FlushControl.appendOneBuffer (ctl : FlushControl Page Buf) (buf : Buf) :
    Except Panic (FlushControl Page Buf) :=
  (Bufmgr.appendOneBuffer ctl.pool buf).map fun pool => { ctl with pool := pool }

def FlushControl.polarRemoveBufferFromFlushList (ctl : FlushControl Page Buf) (buf : Buf) :
    FlushControl Page Buf :=
  let reset :=
    { ctl with pool :=
      ctl.pool.setBuffer buf { ctl.pool.buffers buf with oldestLsn := invalidXLogRecPtr } }
  { reset.removeOneBuffer buf with count := ctl.count - 1 }

def FlushControl.polarPutBufferToFlushList (ctl : FlushControl Page Buf) (buf : Buf)
    (lsn : XLogRecPtr) : Except Panic (FlushControl Page Buf) :=
  (Bufmgr.polarPutBufferToFlushList ctl.pool buf lsn).map fun pool =>
    { ctl with pool := pool, count := ctl.count + 1 }

def FlushControl.polarAdjustPositionInFlushList (ctl : FlushControl Page Buf) (buf : Buf) :
    Except Panic (FlushControl Page Buf) :=
  let faked := { ctl with pool := polarBufferSetFakeOldestLsn ctl.pool buf }
  if faked.pool.flushCtl.next buf = .endOfList then .ok faked
  else (faked.removeOneBuffer buf).appendOneBuffer buf

/-- The loop of `polar_get_batch_buffer`: the buffers taken and the position behind them. A position
outside the list fails the assertion. -/
def takeBatch (next : Buf → Link Buf) : Nat → Link Buf → Option (List Buf × Link Buf)
  | 0, bufferId => some ([], bufferId)
  | _ + 1, .notInList => none
  | _ + 1, .endOfList => some ([], .endOfList)
  | size + 1, .node buf => (takeBatch next size (next buf)).map fun rest => (buf :: rest.1, rest.2)

/-- `maxBatchSize` is `polar_bgwriter_batch_size`. -/
def FlushControl.polarGetBatchBuffer (maxBatchSize : Nat) (ctl : FlushControl Page Buf)
    (batchSize : Nat) : Option (List Buf × FlushControl Page Buf) :=
  if polarFlushListIsEmpty ctl.pool then some ([], ctl)
  else
    let first := ctl.pool.flushCtl.first
    let start := if ctl.currentPos = .notInList then first else ctl.currentPos
    (takeBatch ctl.pool.flushCtl.next batchSize start).map fun (batch, bufferId) =>
      if bufferId = .endOfList ∨ maxBatchSize < ctl.latestFlushCount + batch.length then
        (batch, { ctl with currentPos := first, latestFlushCount := 0 })
      else
        (batch, { ctl with
            currentPos := bufferId, latestFlushCount := ctl.latestFlushCount + batch.length })

inductive Event (Buf : Type) where
  | remove (buf : Buf)
  | other

/-- The operations under the guards of their callers. A given LSN is the one of a record that is
being replayed. -/
inductive Step (maxBatchSize : Nat) : Event Buf → FlushControl Page Buf →
    FlushControl Page Buf → Prop
  | advance {ctl : FlushControl Page Buf} (lsn : XLogRecPtr)
      (forward : ctl.pool.insertRecPtr ≤ lsn) :
      Step maxBatchSize .other ctl { ctl with pool := { ctl.pool with insertRecPtr := lsn } }
  | put {ctl next : FlushControl Page Buf} (buf : Buf) (lsn : XLogRecPtr)
      (absent : bufferNotInFlushList ctl.pool buf) (known : lsn ≤ ctl.pool.insertRecPtr)
      (done : ctl.polarPutBufferToFlushList buf lsn = .ok next) : Step maxBatchSize .other ctl next
  | remove {ctl : FlushControl Page Buf} (buf : Buf) (mem : ¬ bufferNotInFlushList ctl.pool buf) :
      Step maxBatchSize (.remove buf) ctl (ctl.polarRemoveBufferFromFlushList buf)
  | adjust {ctl next : FlushControl Page Buf} (buf : Buf)
      (mem : ¬ bufferNotInFlushList ctl.pool buf)
      (done : ctl.polarAdjustPositionInFlushList buf = .ok next) : Step maxBatchSize .other ctl next
  | getBatch {ctl next : FlushControl Page Buf} (batchSize : Nat) (batch : List Buf)
      (done : ctl.polarGetBatchBuffer maxBatchSize batchSize = some (batch, next)) :
      Step maxBatchSize .other ctl next

/-- `polar_init_flush_list_ctl`. -/
def startControl (pool : State Page Buf) : FlushControl Page Buf where
  pool := pool
  currentPos := .notInList
  latestFlushCount := 0
  count := 0

/-- The only buffer of the list is not removed while the cursor is at it. -/
def CursorElsewhere : Event Buf → FlushControl Page Buf → Prop
  | .remove buf, ctl => ctl.pool.flushCtl.previous buf = .endOfList → ctl.pool.flushCtl.next buf =
      .endOfList → ctl.currentPos ≠ .node buf
  | .other, _ => True

structure Listed (ctl : FlushControl Page Buf) (nodes : List Buf) : Prop where
  positive : invalidXLogRecPtr < ctl.pool.insertRecPtr
  bound : ∀ buf, oldestOf ctl.pool buf ≤ ctl.pool.insertRecPtr
  ordered : OrderedBy ctl.pool.flushCtl (oldestOf ctl.pool) nodes
  count : ctl.count = nodes.length

/-- The cursor is at a buffer of the list or was never set. -/
def CursorListed (ctl : FlushControl Page Buf) (nodes : List Buf) : Prop :=
  ctl.currentPos = .notInList ∨ ∃ buf ∈ nodes, ctl.currentPos = .node buf

variable {ctl next : FlushControl Page Buf} {nodes : List Buf} {buf : Buf}

omit [DecidableEq Buf] in
theorem Listed.mem_iff (listed : Listed ctl nodes) : buf ∈ nodes ↔
    ¬ bufferNotInFlushList ctl.pool buf := by
  have threads := listed.ordered.1
  constructor
  · intro mem outside
    exact (threads.mem_iff.mp mem) outside.2
  · intro linked
    by_contra absent
    have links := threads.outside buf absent
    exact linked ⟨links.2, links.1⟩

theorem Listed.isEmpty_iff (listed : Listed ctl nodes) : polarFlushListIsEmpty ctl.pool = true ↔
    nodes = [] := by
  have threads := listed.ordered.1
  unfold polarFlushListIsEmpty
  rw [threads.first, threads.last]
  cases nodes with
  | nil => simp [headLink, lastLink]
  | cons => simp [headLink]

variable {front back : List Buf}

omit [DecidableEq Buf] in
theorem takeBatch_eq {chain : Chain Buf} (threads : Threads chain (front ++ back)) (size : Nat) :
    takeBatch chain.next size (headLink .endOfList back) =
      some (back.take size, headLink .endOfList (back.drop size)) := by
  induction size generalizing front back with
  | zero => rfl
  | succ size ih =>
    cases back with
    | nil => rfl
    | cons buf rest =>
      have split : front ++ buf :: rest = (front ++ [buf]) ++ rest := by simp
      have shorter := threads
      rw [split] at shorter
      change (takeBatch chain.next size (chain.next buf)).map _ = _
      rw [threads.links.2, ih shorter]
      rfl

omit [DecidableEq Buf] in
theorem le_last {oldest : Buf → XLogRecPtr} {tail : Buf}
    (sorted : nodes.Pairwise (fun early late => oldest early ≤ oldest late))
    (last : lastLink .endOfList nodes = .node tail) :
    ∀ early ∈ nodes, oldest early ≤ oldest tail := by
  intro early mem
  induction nodes using List.reverseRecOn with
  | nil => cases mem
  | append_singleton =>
    rw [lastLink_append] at last
    cases last
    rcases mem_append.mp mem with inFront | isFinal
    · exact (pairwise_append.mp sorted).2.2 early inFront tail mem_cons_self
    · exact Nat.le_of_eq (congrArg oldest (mem_singleton.mp isFinal))

theorem appendOneBuffer_ok {pool res : State Page Buf}
    (done : Bufmgr.appendOneBuffer pool buf = .ok res) :
    res = { pool with flushCtl := pool.flushCtl.append buf } ∧
      ∀ tail, pool.flushCtl.last = .node tail → oldestOf pool tail ≤ oldestOf pool buf := by
  unfold Bufmgr.appendOneBuffer at done
  split at done
  · next tail isLast =>
    split at done
    · cases done
    next ascending =>
    cases done
    refine ⟨rfl, ?_⟩
    intro _ found
    rw [isLast] at found
    cases found
    exact Nat.not_lt.mp ascending
  · next noTail =>
    cases done
    exact ⟨rfl, fun tail found => absurd found (noTail tail)⟩

theorem Listed.append (listed : Listed ctl nodes) (absent : buf ∉ nodes) {lsn : XLogRecPtr}
    (valid : lsn ≠ invalidXLogRecPtr) (known : lsn ≤ ctl.pool.insertRecPtr) {res : State Page Buf}
    (done : Bufmgr.appendOneBuffer
      (ctl.pool.setBuffer buf { ctl.pool.buffers buf with oldestLsn := lsn }) buf = .ok res) :
    Listed { ctl with pool := res, count := ctl.count + 1 } (nodes ++ [buf]) := by
  have ⟨whole, above⟩ := appendOneBuffer_ok done
  have ⟨threads, sorted, members⟩ := listed.ordered
  have none : oldestOf ctl.pool buf = invalidXLogRecPtr := by
    by_contra present
    exact absent ((members buf).mpr present)
  have largest : ∀ early ∈ nodes, oldestOf ctl.pool early ≤ lsn := by
    intro early mem
    cases last : lastLink .endOfList nodes with
    | notInList => exact absurd last lastLink_ne_notInList
    | endOfList =>
      rcases eq_nil_or_concat nodes with empty | ⟨front, final, shape⟩
      · rw [empty] at mem
        cases mem
      · rw [shape, concat_eq_append, lastLink_append] at last
        cases last
    | node tail =>
      have reached := above tail (threads.last.trans last)
      rw [oldest_of_set_buffer, update_self,
        update_of_ne (ne_of_mem_of_not_mem (mem_of_lastLink last.symm) absent)] at reached
      exact Nat.le_trans (le_last sorted last early mem) reached
  rw [whole]
  constructor
  case positive => exact listed.positive
  case bound => exact bound_set_buffer listed.bound known
  case ordered =>
    change OrderedBy (ctl.pool.flushCtl.append buf) (oldestOf (ctl.pool.setBuffer buf _)) _
    rw [oldest_of_set_buffer]
    exact listed.ordered.append none valid largest
  case count =>
    rw [length_append, ← listed.count]
    rfl

theorem Listed.put (listed : Listed ctl nodes) {lsn : XLogRecPtr}
    (absent : bufferNotInFlushList ctl.pool buf)
    (known : lsn ≤ ctl.pool.insertRecPtr)
    (done : ctl.polarPutBufferToFlushList buf lsn = .ok next) : Listed next (nodes ++ [buf]) ∧
    next.currentPos = ctl.currentPos := by
  have outside : buf ∉ nodes := fun mem => listed.mem_iff.mp mem absent
  unfold FlushControl.polarPutBufferToFlushList at done
  cases res : Bufmgr.polarPutBufferToFlushList ctl.pool buf lsn with
  | error panic =>
    rw [res] at done
    cases done
  | ok pool =>
    rw [res] at done
    cases done
    refine ⟨?_, rfl⟩
    unfold Bufmgr.polarPutBufferToFlushList at res
    split at res
    · exact listed.append outside (Nat.ne_of_gt listed.positive) (Nat.le_refl _) res
    · next valid => exact listed.append outside valid known res

theorem removeOneBuffer_cursor (threads : Threads ctl.pool.flushCtl (front ++ buf :: back))
    (cursor : CursorListed ctl (front ++ buf :: back))
    (elsewhere : front ++ back = [] → ctl.currentPos ≠ .node buf) :
    CursorListed (ctl.removeOneBuffer buf) (front ++ back) := by
  have shorter := threads.remove
  unfold CursorListed FlushControl.removeOneBuffer
  dsimp only
  split
  · next here =>
    rw [threads.links.2]
    right
    cases back with
    | nil =>
      change ∃ other ∈ _, (ctl.pool.flushCtl.remove buf).first = _
      rw [shorter.first]
      cases front with
      | nil => exact absurd here (elsewhere rfl)
      | cons head rest => exact ⟨head, mem_cons_self, rfl⟩
    | cons head =>
      exact ⟨head, mem_append_right front mem_cons_self, rfl⟩
  · next here =>
    rcases cursor with unset | ⟨other, mem, found⟩
    · exact .inl unset
    right
    refine ⟨other, ?_, found⟩
    rcases mem_append.mp mem with early | later
    · exact mem_append_left back early
    · rcases mem_cons.mp later with rfl | late
      · exact absurd found here
      · exact mem_append_right front late

theorem Listed.remove (listed : Listed ctl (front ++ buf :: back)) :
    Listed (ctl.polarRemoveBufferFromFlushList buf) (front ++ back) := by
  constructor
  case positive => exact listed.positive
  case bound => exact bound_set_buffer listed.bound (Nat.zero_le _)
  case ordered =>
    change OrderedBy (ctl.pool.flushCtl.remove buf) (oldestOf (ctl.pool.setBuffer buf _)) _
    rw [oldest_of_set_buffer]
    exact OrderedBy.remove listed.ordered
  case count =>
    change ctl.count - 1 = _
    rw [listed.count, length_append, length_append, length_cons]
    omega

theorem Listed.adjust (listed : Listed ctl (front ++ buf :: back))
    (cursor : CursorListed ctl (front ++ buf :: back))
    (done : ctl.polarAdjustPositionInFlushList buf = .ok next) :
    Listed next (front ++ back ++ [buf]) ∧ CursorListed next (front ++ back ++ [buf]) := by
  have positive := Nat.ne_of_gt listed.positive
  have faked : oldestOf (polarBufferSetFakeOldestLsn ctl.pool buf) =
      update (oldestOf ctl.pool) buf ctl.pool.insertRecPtr := oldest_of_set_buffer
  have bound : ∀ other, oldestOf (polarBufferSetFakeOldestLsn ctl.pool buf) other ≤
    ctl.pool.insertRecPtr :=
    bound_set_buffer listed.bound (Nat.le_refl _)
  have links := listed.ordered.1.links
  unfold FlushControl.polarAdjustPositionInFlushList at done
  dsimp only at done
  split at done
  · next isLast =>
    change ctl.pool.flushCtl.next buf = .endOfList at isLast
    rw [links.2] at isLast
    cases back with
    | cons => cases isLast
    | nil =>
      cases done
      rw [append_nil]
      refine ⟨⟨listed.positive, bound, ?_, listed.count⟩, cursor⟩
      rw [faked]
      exact OrderedBy.raise_last listed.ordered positive fun early _ => listed.bound early
  next notLast =>
  cases res : Bufmgr.appendOneBuffer
      (Bufmgr.removeOneBuffer (polarBufferSetFakeOldestLsn ctl.pool buf) buf) buf with
  | error =>
    unfold FlushControl.appendOneBuffer FlushControl.removeOneBuffer at done
    rw [res] at done
    cases done
  | ok pool =>
    have ⟨whole, _⟩ := appendOneBuffer_ok res
    have moved : CursorListed (FlushControl.removeOneBuffer
        { ctl with pool := polarBufferSetFakeOldestLsn ctl.pool buf } buf) (front ++ back) := by
      apply removeOneBuffer_cursor listed.ordered.1 cursor
      intro alone
      change ctl.pool.flushCtl.next buf ≠ .endOfList at notLast
      rw [links.2, (append_eq_nil_iff.mp alone).2] at notLast
      exact absurd rfl notLast
    have last := OrderedBy.append (OrderedBy.remove listed.ordered) (update_self buf _ _) positive
      fun early _ => update_bound listed.bound (Nat.zero_le _) early
    rw [update_idem] at last
    change (Bufmgr.appendOneBuffer
      (Bufmgr.removeOneBuffer (polarBufferSetFakeOldestLsn ctl.pool buf) buf) buf).map _ = _ at done
    rw [res, whole] at done
    cases done
    constructor
    · refine ⟨listed.positive, bound, ?_, ?_⟩
      · change OrderedBy ((ctl.pool.flushCtl.remove buf).append buf)
          (oldestOf (polarBufferSetFakeOldestLsn ctl.pool buf)) _
        rw [faked]
        exact last
      · change ctl.count = _
        rw [listed.count]
        simp only [length_append, length_cons, length_nil]
        omega
    · rcases moved with unset | ⟨other, mem, found⟩
      · exact .inl unset
      · exact .inr ⟨other, mem_append_left [buf] mem, found⟩

theorem Listed.getBatch (listed : Listed ctl nodes) (cursor : CursorListed ctl nodes)
    (filled : nodes ≠ []) (maxBatchSize batchSize : Nat) :
    ∃ front back, nodes = front ++ back ∧ back ≠ [] ∧ ∃ after,
      ctl.polarGetBatchBuffer maxBatchSize batchSize = some (back.take batchSize, after) ∧
        after.pool = ctl.pool ∧ after.count = ctl.count ∧ CursorListed after nodes := by
  have threads := listed.ordered.1
  have ⟨front, back, split, rest, start⟩ : ∃ front back, nodes = front ++ back ∧ back ≠ [] ∧
      (if ctl.currentPos = .notInList then ctl.pool.flushCtl.first else ctl.currentPos) =
      headLink .endOfList back := by
    rcases cursor with unset | ⟨buf, mem, found⟩
    · exact ⟨[], nodes, rfl, filled, by rw [if_pos unset, threads.first]⟩
    · have ⟨front, back, split⟩ := append_of_mem mem
      exact ⟨front, buf :: back, split, cons_ne_nil _ _, by rw [found]; rfl⟩
  have batch := takeBatch_eq (split ▸ threads) batchSize
  have first : CursorListed { ctl with
      currentPos := ctl.pool.flushCtl.first, latestFlushCount := 0 } nodes := by
    right
    rw [threads.first]
    cases nodes with
    | nil => exact absurd rfl filled
    | cons head tail => exact ⟨head, mem_cons_self, rfl⟩
  refine ⟨front, back, split, rest, ?_⟩
  unfold FlushControl.polarGetBatchBuffer
  rw [if_neg (fun empty => filled (listed.isEmpty_iff.mp empty))]
  dsimp only
  rw [start, batch]
  dsimp only [Option.map_some]
  split
  · exact ⟨_, rfl, rfl, rfl, first⟩
  next further =>
  refine ⟨_, rfl, rfl, rfl, .inr ?_⟩
  cases remaining : back.drop batchSize with
  | nil =>
    rw [remaining] at further
    exact absurd (.inl rfl) further
  | cons head =>
    refine ⟨head, ?_, rfl⟩
    rw [split]
    apply mem_append_right front
    apply mem_of_mem_drop
    rw [remaining]
    exact mem_cons_self

def WellFormed (ctl : FlushControl Page Buf) : Prop := ∃ nodes, Listed ctl nodes ∧
    CursorListed ctl nodes

theorem step_wellFormed {maxBatchSize : Nat} {event : Event Buf} (formed : WellFormed ctl)
    (step : Step maxBatchSize event ctl next) (met : CursorElsewhere event ctl) :
    WellFormed next := by
  have ⟨nodes, listed, cursor⟩ := formed
  cases step with
  | advance lsn forward =>
    refine ⟨nodes, ⟨?_, ?_, listed.ordered, listed.count⟩, cursor⟩
    · exact Nat.lt_of_lt_of_le listed.positive forward
    · exact fun buf => Nat.le_trans (listed.bound buf) forward
  | put buf _ absent known done =>
    have ⟨longer, same⟩ := listed.put absent known done
    refine ⟨_, longer, ?_⟩
    unfold CursorListed
    rw [same]
    rcases cursor with unset | ⟨other, mem, found⟩
    · exact .inl unset
    · exact .inr ⟨other, mem_append_left [buf] mem, found⟩
  | remove buf mem =>
    have ⟨front, back, split⟩ := append_of_mem (listed.mem_iff.mpr mem)
    subst split
    refine ⟨front ++ back, listed.remove, ?_⟩
    apply removeOneBuffer_cursor listed.ordered.1 cursor
    intro alone
    have ⟨noFront, noBack⟩ := append_eq_nil_iff.mp alone
    have links := listed.ordered.1.links
    rw [noFront, noBack] at links
    exact met links.1 links.2
  | adjust _ mem done =>
    have ⟨front, back, split⟩ := append_of_mem (listed.mem_iff.mpr mem)
    subst split
    exact ⟨_, listed.adjust cursor done⟩
  | getBatch batchSize _ done =>
    by_cases empty : nodes = []
    · unfold FlushControl.polarGetBatchBuffer at done
      rw [if_pos (listed.isEmpty_iff.mpr empty)] at done
      cases done
      exact formed
    have ⟨_, _, _, _, after, res, pool, count, moved⟩ :=
      listed.getBatch cursor empty maxBatchSize batchSize
    rw [done] at res
    cases res
    refine ⟨nodes, ⟨?_, ?_, ?_, count.trans listed.count⟩, moved⟩
    · rw [pool]
      exact listed.positive
    · rw [pool]
      exact listed.bound
    · rw [pool]
      exact listed.ordered

omit [DecidableEq Buf] in
theorem start_wellFormed {insertRecPtr : XLogRecPtr} (positive : invalidXLogRecPtr < insertRecPtr)
    (copies : Nat) (storage : Page → List XLogRecPtr) :
    WellFormed (startControl (startState insertRecPtr copies storage : State Page Buf)) := by
  refine ⟨[], ⟨positive, fun _ => Nat.zero_le _, ⟨Threads.empty, List.Pairwise.nil, ?_⟩, rfl⟩,
    .inl rfl⟩
  intro _
  simp [oldestOf, startControl, startState, cleanBuffer]

/-- In every reached state the chain is a doubly linked list of exactly the buffers with an oldest
LSN, in ascending order, `count` is its length, the cursor is in the list or unset, and a batch of a
list that is not empty has a buffer. -/
theorem flush_list_well_formed {maxBatchSize : Nat} {insertRecPtr : XLogRecPtr}
    (positive : invalidXLogRecPtr < insertRecPtr) (copies : Nat) (storage : Page → List XLogRecPtr)
    (run : Run (Step maxBatchSize) CursorElsewhere
      (startControl (startState insertRecPtr copies storage : State Page Buf)) ctl) :
    ∃ nodes, Threads ctl.pool.flushCtl nodes ∧
      (∀ buf, buf ∈ nodes ↔ oldestOf ctl.pool buf ≠ invalidXLogRecPtr) ∧
      nodes.Pairwise (fun early late => oldestOf ctl.pool early ≤ oldestOf ctl.pool late) ∧
      ctl.count = nodes.length ∧
      (ctl.currentPos = .notInList ∨ ∃ buf ∈ nodes, ctl.currentPos = .node buf) ∧
      (nodes ≠ [] → ∀ batchSize, 0 < batchSize → ∃ batch after,
        ctl.polarGetBatchBuffer maxBatchSize batchSize = some (batch, after) ∧ batch ≠ []) := by
  have ⟨nodes, listed, cursor⟩ :=
    run.invariant WellFormed (start_wellFormed positive copies storage)
    fun _ _ _ formed step met => step_wellFormed formed step met
  refine ⟨nodes, listed.ordered.1, listed.ordered.2.2, listed.ordered.2.1, listed.count, cursor, ?_⟩
  intro filled batchSize _
  have ⟨_, back, _, rest, after, res, _⟩ := listed.getBatch cursor filled maxBatchSize batchSize
  refine ⟨_, after, res, ?_⟩
  intro empty
  rcases take_eq_nil_iff.mp empty with zero | nothing
  · omega
  · exact rest nothing

def twoStart : FlushControl Nat Nat := startControl (startState 100 0 fun _ => [])

/-- Both buffers are appended, the first one is taken and removed, and the next batch has the second
one. -/
theorem second_buffer_in_batch : ∃ ctl, Run (Step 10) CursorElsewhere twoStart ctl ∧
    ctl.pool.flushCtl.first = .node 1 ∧ ∃ nodes, Threads ctl.pool.flushCtl nodes ∧
      (∀ buf, buf ∈ nodes ↔ oldestOf ctl.pool buf ≠ invalidXLogRecPtr) ∧
      nodes.Pairwise (fun early late => oldestOf ctl.pool early ≤ oldestOf ctl.pool late) ∧
      ctl.count = nodes.length ∧
      (ctl.currentPos = .notInList ∨ ∃ buf ∈ nodes, ctl.currentPos = .node buf) ∧
      (nodes ≠ [] → ∀ batchSize, 0 < batchSize → ∃ batch after,
        ctl.polarGetBatchBuffer 10 batchSize = some (batch, after) ∧ batch ≠ []) := by
  have started : Run (Step 10) CursorElsewhere twoStart _ := .refl
  have first := started.snoc (Step.put 0 invalidXLogRecPtr ⟨rfl, rfl⟩ (by decide) rfl)
  have second := first.snoc (.put 1 invalidXLogRecPtr ⟨rfl, rfl⟩ (by decide) rfl)
  have taken := second.snoc (.getBatch 1 _ rfl)
  have removed := taken.tail (.remove 0 (fun outside => nomatch outside.1))
    (fun _ isLast => nomatch isLast)
  exact ⟨_, removed, rfl, flush_list_well_formed (by decide) 0 (fun _ => []) removed⟩

/-- The only buffer is removed with the cursor at it; the batch of the list with the next buffer is
empty. -/
theorem batch_of_one_buffer_empty : ∃ ctl after, Run (Step 10) (fun _ _ => True) twoStart ctl ∧
    ctl.pool.flushCtl.first = .node 1 ∧ ctl.currentPos = .endOfList ∧
    ctl.polarGetBatchBuffer 10 1 = some ([], after) := by
  have started : Run (Step 10) (fun _ _ => True) twoStart _ := .refl
  have first := started.snoc (Step.put 0 invalidXLogRecPtr ⟨rfl, rfl⟩ (by decide) rfl)
  have taken := first.snoc (.getBatch 1 _ rfl)
  have removed := taken.snoc (.remove 0 (fun outside => nomatch outside.1))
  have second := removed.snoc (.put 1 invalidXLogRecPtr ⟨rfl, rfl⟩ (by decide) rfl)
  exact ⟨_, _, second, rfl, rfl, rfl⟩

end PolarDB.Buffer.FlushList
