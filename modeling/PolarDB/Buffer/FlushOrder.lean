import PolarDB.Buffer.Bufmgr

/-!
# The flush list is ordered by oldest LSN

`Ordered` says that the flush list holds exactly the buffers with an oldest LSN,
in ascending order, none of them beyond the insert position. Each function that
touches the list is then described by the one buffer it rewrites.
-/

namespace PolarDB.Buffer.FlushOrder

open List Lib.Doubly
open Function Buffer.Bufmgr

variable {Page Buf : Type}

/-- The flush list against the oldest LSN of every buffer. -/
structure Ordered (chain : Chain Buf) (oldest : Buf → XLogRecPtr) (insertRecPtr : XLogRecPtr) :
    Prop where
  positive : invalidXLogRecPtr < insertRecPtr
  bound : ∀ buf, oldest buf ≤ insertRecPtr
  listed : ∃ nodes, Threads chain nodes ∧
    nodes.Pairwise (fun early late => oldest early ≤ oldest late) ∧
    ∀ buf, buf ∈ nodes ↔ oldest buf ≠ invalidXLogRecPtr

variable {chain : Chain Buf} {oldest : Buf → XLogRecPtr} {insertRecPtr : XLogRecPtr} {buf : Buf}

theorem ordered_start (positive : invalidXLogRecPtr < insertRecPtr) :
    Ordered (Chain.empty : Chain Buf) (fun _ => invalidXLogRecPtr) insertRecPtr := by
  constructor
  · exact positive
  · exact fun _ => Nat.zero_le _
  · exact ⟨[], Threads.empty, List.Pairwise.nil, by simp⟩

theorem Ordered.advance {later : XLogRecPtr} (ordered : Ordered chain oldest insertRecPtr)
    (forward : insertRecPtr ≤ later) : Ordered chain oldest later :=
  { positive := Nat.lt_of_lt_of_le ordered.positive forward
    bound := fun buf => Nat.le_trans (ordered.bound buf) forward
    listed := ordered.listed }

variable {value : XLogRecPtr}

variable [DecidableEq Buf]

theorem update_bound (bound : ∀ other, oldest other ≤ insertRecPtr)
    (small : value ≤ insertRecPtr) (other : Buf) :
    update oldest buf value other ≤ insertRecPtr := by
  rw [update_apply]
  split_ifs
  · exact small
  · exact bound other

variable {nodes : List Buf} {desc : BufferDesc Page}

theorem sorted_update (outside : buf ∉ nodes)
    (sorted : nodes.Pairwise (fun early late => oldest early ≤ oldest late)) :
      nodes.Pairwise
      (fun early late => update oldest buf value early ≤ update oldest buf value late) := by
  apply sorted.imp_of_mem
  intro _ _ earlyMember lateMember below
  rw [update_of_ne (ne_of_mem_of_not_mem earlyMember outside),
    update_of_ne (ne_of_mem_of_not_mem lateMember outside)]
  exact below

/-- The chain spells out `nodes`, which are the buffers with an oldest LSN, in ascending order. -/
def OrderedBy (chain : Chain Buf) (oldest : Buf → XLogRecPtr) (nodes : List Buf) : Prop :=
  Threads chain nodes ∧ nodes.Pairwise (fun early late => oldest early ≤ oldest late) ∧
    ∀ buf, buf ∈ nodes ↔ oldest buf ≠ invalidXLogRecPtr

theorem ordered_snoc {longer : Chain Buf} (threads : Threads longer (nodes ++ [buf]))
    (sorted : nodes.Pairwise (fun early late => oldest early ≤ oldest late))
    (members : ∀ other, other ≠ buf → (other ∈ nodes ↔ oldest other ≠ invalidXLogRecPtr))
    (valid : value ≠ invalidXLogRecPtr) (largest : ∀ early ∈ nodes, oldest early ≤ value) :
    OrderedBy longer (update oldest buf value) (nodes ++ [buf]) := by
  have outside : buf ∉ nodes := by
    intro inside
    exact (nodup_append.mp threads.nodup).2.2 buf inside buf (by simp) rfl
  have lastLargest : ∀ early ∈ nodes, ∀ late ∈ [buf], update oldest buf value early ≤
    update oldest buf value late := by
    intro early mem _ isLast
    rw [mem_singleton.mp isLast, update_self, update_of_ne (ne_of_mem_of_not_mem mem outside)]
    exact largest early mem
  have exactMembers : ∀ other, other ∈ nodes ++ [buf] ↔ update oldest buf value other ≠
    invalidXLogRecPtr := by
    intro other
    rw [update_apply]
    split_ifs with same
    · rw [same]
      simp [valid]
    · rw [← members other same]
      simp [same]
  exact ⟨threads, pairwise_append.mpr
    ⟨sorted_update outside sorted, pairwise_singleton _ _, lastLargest⟩, exactMembers⟩

theorem OrderedBy.append (ordered : OrderedBy chain oldest nodes)
    (absent : oldest buf = invalidXLogRecPtr) (valid : value ≠ invalidXLogRecPtr)
    (largest : ∀ early ∈ nodes, oldest early ≤ value) :
    OrderedBy (chain.append buf) (update oldest buf value) (nodes ++ [buf]) := by
  have ⟨threads, sorted, members⟩ := ordered
  have fresh : buf ∉ nodes := fun mem => (members buf).mp mem absent
  exact ordered_snoc (threads.append fresh) sorted (fun other _ => members other) valid largest

theorem OrderedBy.raise_last {front : List Buf} (ordered : OrderedBy chain oldest (front ++ [buf]))
    (valid : value ≠ invalidXLogRecPtr) (largest : ∀ early ∈ front, oldest early ≤ value) :
    OrderedBy chain (update oldest buf value) (front ++ [buf]) := by
  have ⟨threads, sorted, members⟩ := ordered
  apply ordered_snoc threads (pairwise_append.mp sorted).1 _ valid largest
  intro other apart
  rw [← members other]
  simp [apart]

theorem OrderedBy.remove {front back : List Buf}
    (ordered : OrderedBy chain oldest (front ++ buf :: back)) :
    OrderedBy (chain.remove buf) (update oldest buf invalidXLogRecPtr) (front ++ back) := by
  have ⟨threads, sorted, members⟩ := ordered
  have rest : (front ++ back).Sublist (front ++ buf :: back) :=
    List.Sublist.append_left (sublist_cons_self buf back) front
  have outside : buf ∉ front ++ back := (nodup_cons.mp (nodup_middle.mp threads.nodup)).1
  have exactMembers : ∀ other, other ∈ front ++ back ↔
      update oldest buf invalidXLogRecPtr other ≠ invalidXLogRecPtr := by
    intro other
    rw [update_apply]
    split_ifs with same
    · rw [same]
      exact ⟨fun mem => absurd mem outside, absurd rfl⟩
    · rw [← members other]
      simp [same]
  exact ⟨threads.remove, sorted_update outside (sorted.sublist rest), exactMembers⟩

section
variable (ordered : Ordered chain oldest insertRecPtr)
include ordered

theorem Ordered.append (absent : oldest buf = invalidXLogRecPtr) :
    Ordered (chain.append buf) (update oldest buf insertRecPtr) insertRecPtr := by
  have ⟨nodes, listed⟩ := ordered.listed
  have longer := OrderedBy.append listed absent (Nat.ne_of_gt ordered.positive) fun early _ =>
    ordered.bound early
  exact ⟨ordered.positive, update_bound ordered.bound (Nat.le_refl _), _, longer⟩

theorem Ordered.raise_last (present : oldest buf ≠ invalidXLogRecPtr)
    (last : chain.next buf = .endOfList) :
    Ordered chain (update oldest buf insertRecPtr) insertRecPtr := by
  obtain ⟨_, threads, sorted, members⟩ := ordered.listed
  obtain ⟨_, back, rfl⟩ := append_of_mem ((members buf).mpr present)
  have next := threads.links.2
  rw [last] at next
  cases back with
  | cons => cases next
  | nil =>
    have raised := OrderedBy.raise_last ⟨threads, sorted, members⟩ (Nat.ne_of_gt ordered.positive)
      fun early _ => ordered.bound early
    exact ⟨ordered.positive, update_bound ordered.bound (Nat.le_refl _), _, raised⟩

theorem Ordered.remove (present : oldest buf ≠ invalidXLogRecPtr) :
    Ordered (chain.remove buf) (update oldest buf invalidXLogRecPtr) insertRecPtr := by
  obtain ⟨_, listed⟩ := ordered.listed
  obtain ⟨_, _, rfl⟩ := append_of_mem ((listed.2.2 buf).mpr present)
  exact ⟨ordered.positive, update_bound ordered.bound (Nat.zero_le _), _, OrderedBy.remove listed⟩

omit [DecidableEq Buf] in
theorem Ordered.first_le {first : Buf}
    (isFirst : chain.first = .node first) (present : oldest buf ≠ invalidXLogRecPtr) :
    oldest first ≤ oldest buf := by
  obtain ⟨nodes, threads, sorted, members⟩ := ordered.listed
  have mem := (members buf).mpr present
  have head := threads.first
  rw [isFirst] at head
  cases nodes with
  | nil => cases head
  | cons =>
    cases head
    rcases mem_cons.mp mem with same | later
    · exact Nat.le_of_eq (congrArg oldest same.symm)
    · exact rel_of_pairwise_cons sorted later

omit [DecidableEq Buf] in
theorem Ordered.first_exists (present : oldest buf ≠ invalidXLogRecPtr) :
    ∃ first, chain.first = .node first := by
  obtain ⟨nodes, threads, -, members⟩ := ordered.listed
  have mem := (members buf).mpr present
  cases nodes with
  | nil => cases mem
  | cons start => exact ⟨start, threads.first⟩

end

variable {st : State Page Buf}

def oldestOf (st : State Page Buf) (buf : Buf) : XLogRecPtr := (st.buffers buf).oldestLsn

def InOrder (st : State Page Buf) : Prop := Ordered st.flushCtl (oldestOf st) st.insertRecPtr

theorem oldest_of_update {next : State Page Buf}
    (buffers : next.buffers = update st.buffers buf desc) :
    oldestOf next = update (oldestOf st) buf desc.oldestLsn := by
  funext other
  unfold oldestOf
  rw [buffers, update_apply, update_apply]
  split_ifs
  · rfl
  · rfl

/-- A buffer as `MarkBufferDirty` leaves it. -/
def marked (desc : BufferDesc Page) (insertRecPtr : XLogRecPtr) : BufferDesc Page :=
  if desc.oldestLsn = invalidXLogRecPtr then
    { desc with dirty := true, oldestLsn := insertRecPtr, oldestLsnIsFake := true }
  else if desc.copyBuffer.isSome && !desc.firstTouchedAfterCopy then
    { desc with dirty := true, oldestLsn := insertRecPtr, firstTouchedAfterCopy := true }
  else { desc with dirty := true }

@[simp] theorem marked_copyBuffer : (marked desc insertRecPtr).copyBuffer = desc.copyBuffer := by
  unfold marked
  split_ifs <;> rfl

theorem marked_oldest_ne (positive : invalidXLogRecPtr < insertRecPtr) :
    (marked desc insertRecPtr).oldestLsn ≠ invalidXLogRecPtr := by
  unfold marked
  split_ifs with absent touch
  · exact Nat.ne_of_gt positive
  · exact Nat.ne_of_gt positive
  · exact absent

theorem append_one_buffer_eq (newest : (st.buffers buf).oldestLsn = st.insertRecPtr)
    (bound : ∀ other, (st.buffers other).oldestLsn ≤ st.insertRecPtr) :
    appendOneBuffer st buf = .ok { st with flushCtl := st.flushCtl.append buf } := by
  unfold appendOneBuffer
  split
  · rename_i tail _
    rw [newest, if_neg (Nat.not_lt.mpr (bound tail))]
  · rfl

theorem set_buffer_twice (first second : BufferDesc Page) :
    (st.setBuffer buf first).setBuffer buf second = st.setBuffer buf second := by
  unfold State.setBuffer
  rw [update_idem]

@[simp] theorem set_buffer_self (desc : BufferDesc Page) :
    (st.setBuffer buf desc).buffers buf = desc :=
  update_self _ _ _

@[simp] theorem set_buffer_insert : (st.setBuffer buf desc).insertRecPtr = st.insertRecPtr := rfl

theorem oldest_of_set_buffer : oldestOf (st.setBuffer buf desc) = update (oldestOf st) buf
    desc.oldestLsn :=
  oldest_of_update rfl

theorem bound_set_buffer (bound : ∀ other, oldestOf st other ≤ st.insertRecPtr)
    (small : desc.oldestLsn ≤ st.insertRecPtr) (other : Buf) :
    ((st.setBuffer buf desc).buffers other).oldestLsn ≤ st.insertRecPtr := by
  change oldestOf (st.setBuffer buf desc) other ≤ _
  rw [oldest_of_set_buffer]
  exact update_bound bound small other

variable (ordered : InOrder st)
include ordered

theorem put_buffer_spec (absent : oldestOf st buf = invalidXLogRecPtr) :
    polarPutBufferToFlushList st buf invalidXLogRecPtr =
      .ok { st.setBuffer buf { st.buffers buf with oldestLsn := st.insertRecPtr } with
        flushCtl := st.flushCtl.append buf } ∧
    Ordered (st.flushCtl.append buf) (update (oldestOf st) buf st.insertRecPtr)
      st.insertRecPtr := by
  constructor
  · unfold polarPutBufferToFlushList polarBufferSetFakeOldestLsn
    exact append_one_buffer_eq (by simp) (bound_set_buffer ordered.bound (Nat.le_refl _))
  · exact ordered.append absent

theorem adjust_position_spec (present : oldestOf st buf ≠ invalidXLogRecPtr) :
    ∃ chain, polarAdjustPositionInFlushList st buf =
        .ok { st.setBuffer buf { st.buffers buf with oldestLsn := st.insertRecPtr } with
          flushCtl := chain } ∧
      Ordered chain (update (oldestOf st) buf st.insertRecPtr) st.insertRecPtr := by
  unfold polarAdjustPositionInFlushList polarBufferSetFakeOldestLsn
  by_cases last : st.flushCtl.next buf = .endOfList
  · rw [if_pos (show (st.setBuffer buf _).flushCtl.next buf = .endOfList from last)]
    exact ⟨st.flushCtl, rfl, ordered.raise_last present last⟩
  · have raised := (ordered.remove present).append (update_self buf _ _)
    rw [update_idem] at raised
    rw [if_neg (show ¬ (st.setBuffer buf _).flushCtl.next buf = .endOfList from last)]
    exact ⟨_, append_one_buffer_eq (by simp [removeOneBuffer])
      (bound_set_buffer ordered.bound (Nat.le_refl _)), raised⟩

theorem mark_buffer_dirty_spec (buf : Buf) : ∃ chain, markBufferDirty st buf = .ok { st with
          buffers := update st.buffers buf (marked (st.buffers buf) st.insertRecPtr)
          flushCtl := chain } ∧
      Ordered chain (update (oldestOf st) buf
        (marked (st.buffers buf) st.insertRecPtr).oldestLsn) st.insertRecPtr := by
  let dirtied := st.setBuffer buf { st.buffers buf with dirty := true }
  have unmoved : oldestOf dirtied = oldestOf st := by
    rw [oldest_of_set_buffer]
    exact update_eq_self _ _
  have inOrder : InOrder dirtied := by
    unfold InOrder
    rw [unmoved]
    exact ordered
  have desc : dirtied.buffers buf = { st.buffers buf with dirty := true } := set_buffer_self _
  change ∃ chain, polarSetBufferFakeOldestLsn dirtied buf = _ ∧ _
  unfold polarSetBufferFakeOldestLsn polarBufferFirstTouchAfterCopy marked
  rw [desc]
  split_ifs with absent touch
  · have put := put_buffer_spec inOrder (by rw [unmoved]; exact absent)
    rw [unmoved] at put
    refine ⟨_, ?_, put.2⟩
    rw [put.1]
    simp [dirtied, State.setBuffer, bind, Except.bind, pure, Except.pure]
  · have present : oldestOf dirtied buf ≠ invalidXLogRecPtr := by
      rw [unmoved]
      exact absent
    obtain ⟨chain, adjusted, raised⟩ := adjust_position_spec inOrder present
    rw [unmoved] at raised
    refine ⟨chain, ?_, raised⟩
    rw [adjusted]
    simp [dirtied, State.setBuffer, bind, Except.bind, pure, Except.pure]
  · refine ⟨st.flushCtl, rfl, ?_⟩
    have same : update (oldestOf st) buf (st.buffers buf).oldestLsn = oldestOf st :=
      update_eq_self _ _
    rw [same]
    exact ordered

theorem reset_buffer_oldest_lsn_spec (buf : Buf) :
        ∃ chain fake touched, polarResetBufferOldestLsn st buf = { st with
          buffers := update st.buffers buf { st.buffers buf with
              oldestLsn := invalidXLogRecPtr, oldestLsnIsFake := fake, firstTouchedAfterCopy :=
              touched }
          flushCtl := chain } ∧
      Ordered chain (update (oldestOf st) buf invalidXLogRecPtr) st.insertRecPtr := by
  unfold polarResetBufferOldestLsn
  split_ifs with absent
  · refine ⟨st.flushCtl, (st.buffers buf).oldestLsnIsFake, (st.buffers buf).firstTouchedAfterCopy,
      ?_, ?_⟩
    · rw [← absent, update_eq_self]
    · have same : update (oldestOf st) buf invalidXLogRecPtr = oldestOf st := by
        rw [← absent]
        exact update_eq_self _ _
      rw [same]
      exact ordered
  · refine ⟨st.flushCtl.remove buf, false, false, ?_, ordered.remove absent⟩
    unfold polarRemoveBufferFromFlushList removeOneBuffer
    rw [set_buffer_self, set_buffer_twice]
    rfl

end PolarDB.Buffer.FlushOrder
