import PolarDB.Buffer.ConsistentRun

/-!
# Lower bounds of the oldest LSNs stay lower bounds

Each step leaves every oldest LSN as it is, takes it away, replaces it by the insert
position, or copies it from a buffer of the list to a copy buffer. A lower bound of
all of them therefore stays one. A copy buffer in use belongs to a buffer of the list.
-/

namespace PolarDB.Buffer.ConsistentRun

open Lib.Doubly
open Lib.Runs
open Buffer.Bufmgr
open Function Buffer.FlushOrder

variable {Page Buf : Type}

structure Ages (pool next : State Page Buf) : Prop where
  insertRecPtr : pool.insertRecPtr ≤ next.insertRecPtr
  copyBuffers : next.polarCopyBuffers = pool.polarCopyBuffers
  buffers : ∀ buf, oldestOf next buf ≠ invalidXLogRecPtr →
    oldestOf next buf = oldestOf pool buf ∨ oldestOf next buf = pool.insertRecPtr
  copies : ∀ cbuf, (next.copyBuffers cbuf).oldestLsn ≠ invalidXLogRecPtr →
    (next.copyBuffers cbuf).oldestLsn = (pool.copyBuffers cbuf).oldestLsn ∨
      ∃ buf, oldestOf pool buf = (next.copyBuffers cbuf).oldestLsn

/-- No oldest LSN in the list is below, nor will one be. -/
def ListFloor (pool : State Page Buf) (lsn : XLogRecPtr) : Prop :=
  lsn ≤ pool.insertRecPtr ∧ ∀ buf, oldestOf pool buf ≠ invalidXLogRecPtr → lsn ≤ oldestOf pool buf

/-- No oldest LSN in the first copy buffers is below. -/
def CopyFloor (pool : State Page Buf) (count : Nat) (lsn : XLogRecPtr) : Prop :=
  ∀ cbuf, cbuf < count → (pool.copyBuffers cbuf).oldestLsn ≠ invalidXLogRecPtr →
  lsn ≤ (pool.copyBuffers cbuf).oldestLsn

def Floor (pool : State Page Buf) (lsn : XLogRecPtr) : Prop :=
  ListFloor pool lsn ∧ CopyFloor pool pool.polarCopyBuffers lsn

variable {pool next : State Page Buf} {lsn : XLogRecPtr}

theorem Ages.of_same (insertRecPtr : pool.insertRecPtr ≤ next.insertRecPtr)
    (count : next.polarCopyBuffers = pool.polarCopyBuffers)
    (buffers : ∀ buf, oldestOf next buf = oldestOf pool buf)
    (copies : ∀ cbuf, (next.copyBuffers cbuf).oldestLsn = (pool.copyBuffers cbuf).oldestLsn) :
    Ages pool next where
  insertRecPtr := insertRecPtr
  copyBuffers := count
  buffers := fun buf _ => .inl (buffers buf)
  copies := fun cbuf _ => .inl (copies cbuf)

theorem Ages.refl (pool : State Page Buf) : Ages pool pool :=
  Ages.of_same (Nat.le_refl _) rfl (fun _ => rfl) fun _ => rfl

theorem ListFloor.ages (floor : ListFloor pool lsn) (ages : Ages pool next) :
    ListFloor next lsn := by
  constructor
  · exact Nat.le_trans floor.1 ages.insertRecPtr
  intro buf valid
  rcases ages.buffers buf valid with same | newest
  · rw [same] at valid ⊢
    exact floor.2 buf valid
  · rw [newest]
    exact floor.1

/-- A copy made behind the reading of the list takes an oldest LSN that the reading has covered. -/
theorem CopyFloor.ages {count : Nat} {acc : XLogRecPtr} (floor : ListFloor pool lsn)
    (copied : CopyFloor pool count acc) (below : acc ≤ lsn) (ages : Ages pool next) :
    CopyFloor next count acc := by
  intro cbuf inside valid
  rcases ages.copies cbuf valid with same | ⟨buf, taken⟩
  · rw [same] at valid ⊢
    exact copied cbuf inside valid
  · rw [← taken] at valid ⊢
    exact Nat.le_trans below (floor.2 buf valid)

theorem Floor.ages (floor : Floor pool lsn) (ages : Ages pool next) : Floor next lsn := by
  refine ⟨floor.1.ages ages, ?_⟩
  rw [ages.copyBuffers]
  exact CopyFloor.ages floor.1 floor.2 (Nat.le_refl _) ages

theorem combine_le (lsn res : XLogRecPtr) : combine lsn res ≤ lsn := by
  unfold combine
  split
  · exact Nat.le_refl _
  · exact Nat.min_le_left _ _

theorem combine_scanCopy (lsn res curLsn : XLogRecPtr) : combine lsn (scanCopy res curLsn) =
      if curLsn = invalidXLogRecPtr then combine lsn res else min (combine lsn res) curLsn := by
  unfold combine scanCopy
  by_cases absent : curLsn = invalidXLogRecPtr
  · rw [if_pos absent, if_pos absent]
  rw [if_neg absent, if_neg absent]
  by_cases first : res = invalidXLogRecPtr
  · rw [if_pos (Or.inl first), if_neg absent, if_pos first]
  · by_cases smaller : curLsn < res
    · rw [if_pos (Or.inr smaller), if_neg absent, if_neg first, Nat.min_assoc,
        Nat.min_eq_right (Nat.le_of_lt smaller)]
    · have kept : ¬(res = invalidXLogRecPtr ∨ curLsn < res) := not_or.mpr ⟨first, smaller⟩
      rw [if_neg kept, if_neg first, Nat.min_assoc, Nat.min_eq_left (Nat.le_of_not_lt smaller)]

def Pc.holds : Pc Buf → Option (Buf × Nat)
  | .copyStamped buf cbuf => some (buf, cbuf)
  | .detached buf cbuf _ => some (buf, cbuf)
  | _ => none

/-- What a process may rely on at its place. -/
def Pc.Sound (pool : State Page Buf) (use : Buf → Use) (proc : Nat) : Pc Buf → Prop
  | .idle => True
  | .copyTaken buf _ => use buf = .busy proc ∧ oldestOf pool buf ≠ invalidXLogRecPtr ∧
      (pool.buffers buf).copyBuffer = none
  | .copyStamped buf _ => use buf = .busy proc ∧ oldestOf pool buf ≠ invalidXLogRecPtr ∧
      (pool.buffers buf).copyBuffer = none
  | .releasing buf _ => use buf = .busy proc
  | .detached buf _ _ => use buf = .busy proc ∧ oldestOf pool buf ≠ invalidXLogRecPtr ∧
      (pool.buffers buf).copyBuffer = none
  | .released buf _ => use buf = .busy proc ∧ (pool.buffers buf).copyBuffer = none
  | .reading cur => Floor pool cur
  | .scanning cur earlier lsn idx res => ListFloor pool lsn ∧ CopyFloor pool idx (combine lsn res) ∧
      cur ≤ combine lsn res ∧ (∀ value ∈ earlier, value ≤ combine lsn res) ∧ Floor pool cur ∧
      ∀ value ∈ earlier, Floor pool value
  | .computed cur earlier lsn => Floor pool lsn ∧ cur ≤ lsn ∧ ∀ value ∈ earlier, value ≤ lsn

/-- Every copy buffer in use belongs to a buffer of the list. -/
def Paired (pool : State Page Buf) (procs : Nat → Pc Buf) : Prop :=
  ∀ cbuf, (pool.copyBuffers cbuf).oldestLsn ≠ invalidXLogRecPtr → ∃ buf, oldestOf pool buf ≠
  invalidXLogRecPtr ∧
    ((pool.buffers buf).copyBuffer = some cbuf ∨ ∃ proc, (procs proc).holds = some (buf, cbuf))

structure Inv (machine : Machine Page Buf) : Prop where
  order : InOrder machine.pool
  uncopied : ∀ buf, oldestOf machine.pool buf = invalidXLogRecPtr →
    (machine.pool.buffers buf).copyBuffer = none
  paired : Paired machine.pool machine.procs
  floors : ∀ lsn ∈ machine.finished, Floor machine.pool lsn
  stored : Floor machine.pool machine.consistentLsn
  procs : ∀ proc, (machine.procs proc).Sound machine.pool machine.use proc

/-- The buffers that a process works on are left alone. -/
def Untouched (other : Nat) (pool next : State Page Buf) (use later : Buf → Use) : Prop :=
  ∀ buf, use buf = .busy other → later buf = .busy other ∧ oldestOf next buf = oldestOf pool buf ∧
    (next.buffers buf).copyBuffer = (pool.buffers buf).copyBuffer

variable {use later : Buf → Use} {proc other : Nat}
variable {procs after : Nat → Pc Buf} {pc : Pc Buf}

theorem Pc.Sound.ages (sound : pc.Sound pool use other) (ages : Ages pool next)
    (kept : Untouched other pool next use later) : pc.Sound next later other := by
  cases pc with
  | idle => trivial
  | copyTaken buf | copyStamped buf | detached buf =>
    have ⟨same, oldest, copy⟩ := kept buf sound.1
    exact ⟨same, oldest ▸ sound.2.1, copy ▸ sound.2.2⟩
  | releasing buf reset => exact (kept buf sound).1
  | released buf =>
    have ⟨same, _, copy⟩ := kept buf sound.1
    exact ⟨same, copy ▸ sound.2⟩
  | reading cur => exact Floor.ages sound ages
  | scanning cur earlier lsn _ res =>
    have ⟨list, copies, above, later, floor, floors⟩ := sound
    exact ⟨list.ages ages, CopyFloor.ages list copies (combine_le lsn res) ages, above, later,
      floor.ages ages,
      fun value mem => (floors value mem).ages ages⟩
  | computed => exact ⟨sound.1.ages ages, sound.2⟩

theorem Paired.mono (paired : Paired pool procs)
    (copies : ∀ cbuf, (next.copyBuffers cbuf).oldestLsn ≠ invalidXLogRecPtr →
      (pool.copyBuffers cbuf).oldestLsn ≠ invalidXLogRecPtr)
    (valid : ∀ buf, oldestOf pool buf ≠ invalidXLogRecPtr → oldestOf next buf ≠ invalidXLogRecPtr)
    (attached : ∀ buf, (next.buffers buf).copyBuffer = (pool.buffers buf).copyBuffer)
    (held : ∀ proc pair, (procs proc).holds = some pair → (after proc).holds = some pair) :
    Paired next after := by
  intro cbuf inUse
  have ⟨buf, listed, which⟩ := paired cbuf (copies cbuf inUse)
  refine ⟨buf, valid buf listed, ?_⟩
  rw [attached buf]
  exact which.imp id fun ⟨proc, holds⟩ => ⟨proc, held proc _ holds⟩

theorem holds_here (procs : Nat → Pc Buf) (proc : Nat) (pc : Pc Buf) :
    (update procs proc pc proc).holds = pc.holds := by
  rw [update_self]

theorem holds_update {procs : Nat → Pc Buf} (unheld : (procs proc).holds = none) (other : Nat)
    (pair : Buf × Nat) (holds : (procs other).holds = some pair) :
    (update procs proc pc other).holds = some pair := by
  rw [update_apply]
  split_ifs with same
  · rw [same, unheld] at holds
    cases holds
  · exact holds

variable {machine : Machine Page Buf} {buf : Buf} {cbuf : Nat}

theorem Inv.pass (inv : Inv machine) (after : Machine Page Buf)
    (finished : after.finished = machine.finished)
    (stored : after.consistentLsn = machine.consistentLsn) (ages : Ages machine.pool after.pool)
    (order : InOrder after.pool)
    (uncopied : ∀ buf, oldestOf after.pool buf = invalidXLogRecPtr →
      (after.pool.buffers buf).copyBuffer = none) (paired : Paired after.pool after.procs)
    (sound : ∀ proc, (after.procs proc).Sound after.pool after.use proc) : Inv after where
  order := order
  uncopied := uncopied
  paired := paired
  floors := fun lsn mem => (inv.floors lsn (finished ▸ mem)).ages ages
  stored := stored ▸ inv.stored.ages ages
  procs := sound

theorem sound_update {procs : Nat → Pc Buf} (known : ∀ proc, (procs proc).Sound pool use proc)
    (ages : Ages pool next) (kept : ∀ other, other ≠ proc → Untouched other pool next use later)
    (sound : pc.Sound next later proc) (other : Nat) :
    (update procs proc pc other).Sound next later other := by
  rw [update_apply]
  split_ifs with same
  · rw [same]
    exact sound
  · exact (known other).ages ages (kept other same)

theorem untouched_of_one (owner : use buf ≠ .busy other)
    (sameUse : ∀ which, which ≠ buf → later which = use which)
    (sameDesc : ∀ which, which ≠ buf → next.buffers which = pool.buffers which) :
    Untouched other pool next use later := by
  intro which busy
  have elsewhere : which ≠ buf := fun same => owner (same ▸ busy)
  refine ⟨(sameUse which elsewhere).trans busy, ?_, ?_⟩
  · exact congrArg BufferDesc.oldestLsn (sameDesc which elsewhere)
  · exact congrArg BufferDesc.copyBuffer (sameDesc which elsewhere)

theorem not_busy_of_busy (busy : use buf = .busy proc) (apart : other ≠ proc) :
    use buf ≠ .busy other := by
  rw [busy]
  exact fun same => apart (Use.busy.inj same).symm

theorem not_busy_of_free (free : use buf = .free) : use buf ≠ .busy other := by
  rw [free]
  exact nofun

theorem marked_oldestLsn (desc : BufferDesc Page) (insertRecPtr : XLogRecPtr) :
    (marked desc insertRecPtr).oldestLsn = desc.oldestLsn ∨ (marked desc insertRecPtr).oldestLsn =
    insertRecPtr := by
  unfold marked
  split_ifs
  · exact .inr rfl
  · exact .inr rfl
  · exact .inl rfl

theorem Inv.insert (inv : Inv machine) (size : Nat) : Inv (machine.setPool
      { machine.pool with insertRecPtr := machine.pool.insertRecPtr + size }) := by
  have ages : Ages machine.pool { machine.pool with insertRecPtr :=
    machine.pool.insertRecPtr + size } :=
    Ages.of_same (Nat.le_add_right _ _) rfl (fun _ => rfl) fun _ => rfl
  refine inv.pass _ rfl rfl ages (inv.order.advance (Nat.le_add_right _ _)) inv.uncopied
    inv.paired ?_
  intro other
  exact (inv.procs other).ages ages fun _ busy => ⟨busy, rfl, rfl⟩

theorem Inv.sound (inv : Inv machine) {pc : Pc Buf} (here : machine.procs proc = pc) :
    pc.Sound machine.pool machine.use proc :=
  here ▸ inv.procs proc

theorem Inv.go (inv : Inv machine) (pc : Pc Buf) (unheld : (machine.procs proc).holds = none)
    (sound : pc.Sound machine.pool machine.use proc) : Inv (machine.go proc pc) := by
  refine inv.pass _ rfl rfl (Ages.refl _) inv.order inv.uncopied ?_ ?_
  · exact inv.paired.mono (fun _ => id) (fun _ => id) (fun _ => rfl) (holds_update unheld)
  · exact sound_update inv.procs (Ages.refl _) (fun _ _ _ busy => ⟨busy, rfl, rfl⟩) sound

theorem Inv.clear (inv : Inv machine) (here : machine.procs proc = .detached buf cbuf reset) :
    Inv ((machine.setPool (clearCopy machine.pool cbuf)).go proc (.released buf reset)) := by
  have sound := inv.sound here
  have cleared : ((clearCopy machine.pool cbuf).copyBuffers cbuf).oldestLsn =
    invalidXLogRecPtr := by
    unfold clearCopy
    dsimp only
    rw [update_self]
  have elsewhere : ∀ other, other ≠ cbuf →
      (clearCopy machine.pool cbuf).copyBuffers other = machine.pool.copyBuffers other :=
    fun _ apart => update_of_ne apart ..
  have ages : Ages machine.pool (clearCopy machine.pool cbuf) := by
    constructor
    · exact Nat.le_refl _
    · rfl
    · exact fun _ _ => .inl rfl
    · intro other inUse
      have apart : other ≠ cbuf := fun same => inUse (same ▸ cleared)
      rw [elsewhere other apart]
      exact .inl rfl
  refine inv.pass _ rfl rfl ages inv.order inv.uncopied ?_ ?_
  · intro other inUse
    have apart : other ≠ cbuf := fun same => inUse (same ▸ cleared)
    have before : ((machine.pool).copyBuffers other).oldestLsn ≠ invalidXLogRecPtr :=
      elsewhere other apart ▸ inUse
    have ⟨which, listed, attached⟩ := inv.paired other before
    refine ⟨which, listed, attached.imp id ?_⟩
    intro ⟨holder, holds⟩
    have others : holder ≠ proc := by
      rintro rfl
      rw [here] at holds
      cases holds
      exact apart rfl
    exact ⟨holder, (congrArg Pc.holds (update_of_ne others ..)).trans holds⟩
  · exact sound_update inv.procs ages (fun _ _ _ busy => ⟨busy, rfl, rfl⟩) ⟨sound.1, sound.2.2⟩

theorem Pc.Sound.busy_of_holds {pc : Pc Buf} (sound : pc.Sound pool use proc)
    (holds : pc.holds = some (buf, cbuf)) : use buf = .busy proc := by
  cases pc <;> cases holds <;> exact sound.1

variable [DecidableEq Buf]

/-- One buffer is rewritten and the list may change, the copy buffers do not. -/
structure Rewritten (pool next : State Page Buf) (buf : Buf) (desc : BufferDesc Page) : Prop where
  buffers : next.buffers = update pool.buffers buf desc
  insertRecPtr : next.insertRecPtr = pool.insertRecPtr
  count : next.polarCopyBuffers = pool.polarCopyBuffers
  copies : next.copyBuffers = pool.copyBuffers

namespace Rewritten

variable {desc : BufferDesc Page}

variable (rewritten : Rewritten pool next buf desc)
include rewritten

theorem here : next.buffers buf = desc := by
  rw [rewritten.buffers, update_self]

theorem elsewhere {which : Buf} (apart : which ≠ buf) :
    next.buffers which = pool.buffers which := by
  rw [rewritten.buffers, update_of_ne apart]

theorem oldest : oldestOf next = update (oldestOf pool) buf desc.oldestLsn :=
  oldest_of_update rewritten.buffers

theorem ages (value : desc.oldestLsn = invalidXLogRecPtr ∨ desc.oldestLsn = oldestOf pool buf ∨
      desc.oldestLsn = pool.insertRecPtr) : Ages pool next := by
  constructor
  · exact Nat.le_of_eq rewritten.insertRecPtr.symm
  · exact rewritten.count
  · intro which valid
    rw [rewritten.oldest] at valid ⊢
    by_cases same : which = buf
    · rw [same, update_self] at valid ⊢
      exact value.resolve_left valid
    · rw [update_of_ne same]
      exact .inl rfl
  · intro _ _
    rw [rewritten.copies]
    exact .inl rfl

theorem order (order : InOrder pool)
    (list : next.flushCtl = pool.flushCtl) (same : desc.oldestLsn = oldestOf pool buf) :
    InOrder next := by
  unfold InOrder
  rw [list, rewritten.oldest, rewritten.insertRecPtr, same, update_eq_self]
  exact order

theorem uncopied (known : ∀ which, oldestOf pool which = invalidXLogRecPtr →
    (pool.buffers which).copyBuffer = none)
    (own : desc.oldestLsn = invalidXLogRecPtr → desc.copyBuffer = none) (which : Buf)
    (absent : oldestOf next which = invalidXLogRecPtr) :
    (next.buffers which).copyBuffer = none := by
  unfold oldestOf at absent
  by_cases same : which = buf
  · rw [same, rewritten.here] at absent ⊢
    exact own absent
  · rw [rewritten.elsewhere same] at absent ⊢
    exact known which absent

theorem paired (paired : Paired pool procs)
    (valid : oldestOf pool buf ≠ invalidXLogRecPtr → desc.oldestLsn ≠ invalidXLogRecPtr)
    (attached : desc.copyBuffer = (pool.buffers buf).copyBuffer)
    (held : ∀ proc pair, (procs proc).holds = some pair → (after proc).holds = some pair) :
    Paired next after := by
  apply paired.mono _ _ _ held
  · intro _ inUse
    rw [rewritten.copies] at inUse
    exact inUse
  · intro which present
    rw [rewritten.oldest]
    rw [update_apply]
    split_ifs with same
    · exact valid (same ▸ present)
    · exact present
  · intro which
    by_cases same : which = buf
    · rw [same, rewritten.here]
      exact attached
    · rw [rewritten.elsewhere same]

end Rewritten

section
variable (inv : Inv machine)
include inv

theorem Inv.setUse {value : Use}
    (owner : ∀ other, machine.procs other ≠ .idle → machine.use buf ≠ .busy other) :
    Inv (machine.setUse buf value) := by
  refine inv.pass _ rfl rfl (Ages.refl _) inv.order inv.uncopied inv.paired ?_
  intro other
  by_cases idle : machine.procs other = .idle
  · change (machine.procs other).Sound _ _ other
    rw [idle]
    trivial
  · apply (inv.procs other).ages (Ages.refl _)
    exact untouched_of_one (owner other idle) (fun _ apart => update_of_ne apart ..) fun _ _ => rfl

theorem Inv.markDirty (owner : ∀ other, machine.use buf ≠ .busy other)
    (dirtied : markBufferDirty machine.pool buf = .ok pool) : Inv (machine.setPool pool) := by
  have ⟨chain, result, order⟩ := mark_buffer_dirty_spec inv.order buf
  rw [result] at dirtied
  cases dirtied
  have valid := @marked_oldest_ne Page _ (machine.pool.buffers buf) inv.order.positive
  have rewritten : Rewritten machine.pool { machine.pool with
        buffers := update machine.pool.buffers buf
          (marked (machine.pool.buffers buf) machine.pool.insertRecPtr)
        flushCtl := chain } buf _ := ⟨rfl, rfl, rfl, rfl⟩
  have ages := rewritten.ages (.inr (marked_oldestLsn _ _))
  refine inv.pass _ rfl rfl ages ?_ ?_ ?_ ?_
  · unfold InOrder
    exact rewritten.oldest ▸ order
  · exact rewritten.uncopied inv.uncopied fun absent => absurd absent valid
  · exact rewritten.paired inv.paired (fun _ => valid) marked_copyBuffer fun _ _ => id
  · intro other
    exact (inv.procs other).ages ages (untouched_of_one (owner other) (fun _ _ => rfl) fun _ =>
      rewritten.elsewhere)

theorem Inv.copyStart {rest : List Nat} (here : machine.procs proc = .idle)
    (free : machine.use buf = .free) (uncopied : (machine.pool.buffers buf).copyBuffer = none)
    (valid : oldestOf machine.pool buf ≠ invalidXLogRecPtr) :
    Inv (((machine.setPool (takeCopy machine.pool rest)).setUse buf (.busy proc)).go proc
      (.copyTaken buf cbuf)) := by
  have ages : Ages machine.pool (takeCopy machine.pool rest) :=
    Ages.of_same (Nat.le_refl _) rfl (fun _ => rfl) fun _ => rfl
  refine inv.pass _ rfl rfl ages inv.order inv.uncopied ?_ ?_
  · exact inv.paired.mono (fun _ => id) (fun _ => id) (fun _ => rfl)
      (holds_update (congrArg Pc.holds here))
  · refine sound_update inv.procs ages ?_ ⟨update_self .., valid, uncopied⟩
    intro _ _
    exact untouched_of_one (not_busy_of_free free) (fun _ apart => update_of_ne apart ..) fun _ _ =>
      rfl

omit [DecidableEq Buf] in
/-- The copy buffer is in use from now on, for the buffer that the process works on. -/
theorem Inv.copyStamp (here : machine.procs proc = .copyTaken buf cbuf) :
    Inv ((machine.setPool (stampCopy machine.pool buf cbuf)).go proc (.copyStamped buf cbuf)) := by
  have sound := inv.sound here
  have elsewhere : ∀ other, other ≠ cbuf →
      (stampCopy machine.pool buf cbuf).copyBuffers other = machine.pool.copyBuffers other :=
    fun _ apart => update_of_ne apart ..
  have ages : Ages machine.pool (stampCopy machine.pool buf cbuf) := by
    constructor
    · exact Nat.le_refl _
    · rfl
    · exact fun _ _ => .inl rfl
    · intro other _
      by_cases same : other = cbuf
      · rw [same]
        change _ ∨ ∃ which, _ = (update machine.pool.copyBuffers cbuf _ cbuf).oldestLsn
        rw [update_self]
        exact .inr ⟨buf, rfl⟩
      · rw [elsewhere other same]
        exact .inl rfl
  refine inv.pass _ rfl rfl ages inv.order inv.uncopied ?_ ?_
  · intro other inUse
    by_cases same : other = cbuf
    · subst same
      exact ⟨buf, sound.2.1, .inr ⟨proc, holds_here ..⟩⟩
    · change ((stampCopy machine.pool buf cbuf).copyBuffers other).oldestLsn ≠ _ at inUse
      rw [elsewhere other same] at inUse
      have ⟨which, listed, attached⟩ := inv.paired other inUse
      refine ⟨which, listed, attached.imp id ?_⟩
      exact fun ⟨holder, holds⟩ => ⟨holder, holds_update (congrArg Pc.holds here) holder _ holds⟩
  · exact sound_update inv.procs ages (fun _ _ _ busy => ⟨busy, rfl, rfl⟩) sound

theorem Inv.copyAttach (here : machine.procs proc = .copyStamped buf cbuf) :
    Inv (((machine.setPool (attachCopy machine.pool buf cbuf)).setUse buf .free).go
      proc .idle) := by
  have sound := inv.sound here
  have rewritten : Rewritten machine.pool (attachCopy machine.pool buf cbuf) buf
      { machine.pool.buffers buf with copyBuffer := some cbuf } := ⟨rfl, rfl, rfl, rfl⟩
  have ages := rewritten.ages (.inr (.inl rfl))
  refine inv.pass _ rfl rfl ages (rewritten.order inv.order rfl rfl) ?_ ?_ ?_
  · exact rewritten.uncopied inv.uncopied fun absent => absurd absent sound.2.1
  · intro other inUse
    have ⟨which, listed, attached⟩ := inv.paired other inUse
    have stays : oldestOf (attachCopy machine.pool buf cbuf) which ≠ invalidXLogRecPtr := by
      rw [rewritten.oldest]
      exact (congrFun (update_eq_self buf (oldestOf machine.pool)) which).symm ▸ listed
    rcases attached with attached | ⟨holder, holds⟩
    · have apart : which ≠ buf := by
        rintro rfl
        rw [sound.2.2] at attached
        cases attached
      exact ⟨which, stays, .inl ((congrArg _ (rewritten.elsewhere apart)).trans attached)⟩
    · by_cases same : holder = proc
      · -- the copy that the process held is now the copy of the buffer
        subst same
        rw [here] at holds
        cases holds
        exact ⟨buf, stays, .inl (congrArg _ rewritten.here)⟩
      · exact ⟨which, stays, .inr ⟨holder, (congrArg Pc.holds (update_of_ne same ..)).trans holds⟩⟩
  · refine sound_update inv.procs ages ?_ trivial
    intro _ apart
    exact untouched_of_one (not_busy_of_busy sound.1 apart) (fun _ apart => update_of_ne apart ..)
      fun _ => rewritten.elsewhere

end

variable {reset : Bool}

theorem Inv.releaseStart (inv : Inv machine) (here : machine.procs proc = .idle)
    (free : machine.use buf = .free) :
    Inv ((machine.setUse buf (.busy proc)).go proc (.releasing buf reset)) := by
  apply (inv.setUse fun _ _ => not_busy_of_free free).go
  · exact congrArg Pc.holds here
  · exact update_self ..

theorem Inv.detach (inv : Inv machine) (here : machine.procs proc = .releasing buf reset) :
    Inv (releaseStep machine proc buf reset) := by
  have busy := inv.sound here
  unfold releaseStep
  cases copied : (machine.pool.buffers buf).copyBuffer with
  | none =>
    exact inv.go _ (congrArg Pc.holds here) ⟨busy, copied⟩
  | some cbuf =>
    have valid : oldestOf machine.pool buf ≠ invalidXLogRecPtr := by
      intro absent
      rw [inv.uncopied buf absent] at copied
      cases copied
    have rewritten : Rewritten machine.pool (detachCopy machine.pool buf) buf
        { machine.pool.buffers buf with copyBuffer := none, firstTouchedAfterCopy := false } :=
        ⟨rfl, rfl, rfl, rfl⟩
    have oldest : oldestOf (detachCopy machine.pool buf) = oldestOf machine.pool :=
      rewritten.oldest.trans (update_eq_self ..)
    have ages := rewritten.ages (.inr (.inl rfl))
    refine inv.pass _ rfl rfl ages (rewritten.order inv.order rfl rfl) ?_ ?_ ?_
    · exact rewritten.uncopied inv.uncopied fun _ => rfl
    · intro other inUse
      have ⟨which, listed, attached⟩ := inv.paired other inUse
      refine ⟨which, (congrFun oldest which).symm ▸ listed, ?_⟩
      rcases attached with attached | ⟨holder, holds⟩
      · by_cases same : which = buf
        · subst same
          rw [copied] at attached
          cases attached
          exact .inr ⟨proc, holds_here ..⟩
        · exact .inl ((congrArg _ (rewritten.elsewhere same)).trans attached)
      · exact .inr ⟨holder, holds_update (congrArg Pc.holds here) holder _ holds⟩
    · refine sound_update inv.procs ages ?_ ⟨busy, (congrFun oldest buf).symm ▸ valid, ?_⟩
      · intro _ apart
        exact untouched_of_one (not_busy_of_busy busy apart) (fun _ _ => rfl) fun _ =>
          rewritten.elsewhere
      · exact congrArg BufferDesc.copyBuffer rewritten.here

/-- The oldest LSN is reset behind the copy buffer: a copy in use still belongs to a buffer of the
list. -/
theorem Inv.resetOldestLsn (inv : Inv machine) (busy : machine.use buf = .busy proc)
    (uncopied : (machine.pool.buffers buf).copyBuffer = none)
    (unheld : (machine.procs proc).holds = none)
    (sound : (machine.procs proc).Sound (polarResetBufferOldestLsn machine.pool buf)
      machine.use proc) : Inv (machine.setPool (polarResetBufferOldestLsn machine.pool buf)) := by
  have ⟨chain, fake, touched, result, order⟩ := reset_buffer_oldest_lsn_spec inv.order buf
  have rewritten : Rewritten machine.pool (polarResetBufferOldestLsn machine.pool buf) buf
      { machine.pool.buffers buf with
        oldestLsn := invalidXLogRecPtr, oldestLsnIsFake := fake, firstTouchedAfterCopy :=
          touched } := by
    rw [result]
    exact ⟨rfl, rfl, rfl, rfl⟩
  have ages := rewritten.ages (.inl rfl)
  refine inv.pass _ rfl rfl ages ?_ ?_ ?_ ?_
  · change Ordered (polarResetBufferOldestLsn machine.pool buf).flushCtl
      (oldestOf (polarResetBufferOldestLsn machine.pool buf)) _
    rw [rewritten.oldest]
    rw [result]
    exact order
  · exact rewritten.uncopied inv.uncopied fun _ => uncopied
  · intro other inUse
    have before : ((machine.pool).copyBuffers other).oldestLsn ≠ invalidXLogRecPtr :=
      rewritten.copies ▸ inUse
    have ⟨which, listed, attached⟩ := inv.paired other before
    have apart : which ≠ buf := by
      rintro rfl
      rcases attached with attached | ⟨holder, holds⟩
      · rw [uncopied] at attached
        cases attached
      · have working := (inv.procs holder).busy_of_holds holds
        rw [busy] at working
        cases working
        rw [unheld] at holds
        cases holds
    refine ⟨which, ?_, attached.imp ?_ id⟩
    · exact fun absent =>
        listed ((congrArg BufferDesc.oldestLsn (rewritten.elsewhere apart)).symm.trans absent)
    · exact (congrArg BufferDesc.copyBuffer (rewritten.elsewhere apart)).trans
  · intro other
    by_cases same : other = proc
    · rw [same]
      exact sound
    · exact (inv.procs other).ages ages
        (untouched_of_one (not_busy_of_busy busy same) (fun _ _ => rfl) fun _ =>
        rewritten.elsewhere)

theorem Inv.finishRelease (inv : Inv machine) (here : machine.procs proc = .released buf reset) :
    Inv (finishRelease machine proc buf reset) := by
  have sound := inv.sound here
  have unheld : (machine.procs proc).holds = none := congrArg Pc.holds here
  have idle : ∀ pool, Inv (machine.setPool pool) →
    Inv (((machine.setPool pool).setUse buf .free).go proc .idle) := by
    intro pool known
    have gone : Inv ((machine.setPool pool).go proc .idle) := known.go .idle unheld trivial
    apply gone.setUse
    intro _ working
    apply not_busy_of_busy sound.1
    rintro rfl
    exact working (update_self ..)
  cases reset with
  | false => exact idle machine.pool inv
  | true =>
    apply idle
    apply inv.resetOldestLsn sound.1 sound.2 unheld
    rw [here]
    have ⟨chain, fake, touched, result, _⟩ := reset_buffer_oldest_lsn_spec inv.order buf
    refine ⟨sound.1, ?_⟩
    rw [result]
    change (update machine.pool.buffers buf _ buf).copyBuffer = none
    rw [update_self]
    exact sound.2

end PolarDB.Buffer.ConsistentRun
