import PolarDB.Rsc.Remembered

/-!
# Lookups see the settled size

On a primary an extension or truncation changes the file and then the cache, and a
lookup may store a size that it read before. A lookup that starts after a resize has
stored its size, and before whose end no other resize or drop of the fork starts,
returns that size.
-/

namespace PolarDB.Rsc.Access

open Lib.Runs
open Rsc.Pool
open Function Storage

/-- A cached size is the settled one. -/
def State.Agrees (st : State) (rnode : RelFileNode) (fork : ForkNumber) (nblocks : Nat) : Prop :=
  ∀ size, st.settled rnode fork = some size → nblocks = size

/-- A size that a lookup may return: the settled size at its start, if the fork has not changed
since. -/
def State.Expected (st : State) (task : Task) (nblocks : Nat) : Prop :=
  ∀ size, task.expected = some size → task.stamp = st.changes task.rnode task.fork → nblocks = size

/-- A task started no later than now, and if nothing changed since, the size is still settled. -/
def State.Timely (st : State) (task : Task) : Prop := task.stamp ≤ st.changes task.rnode task.fork ∧
    ∀ size, task.expected = some size → task.stamp = st.changes task.rnode task.fork →
      st.settled task.rnode task.fork = some size

/-- A resize that has changed the file and not stored its size. -/
def State.Pending (st : State) (task : Task) : Prop := ∀ nblocks, task.known = some nblocks →
    st.settled task.rnode task.fork = none ∧ st.file task.rnode task.fork = nblocks

/-- A size that a lookup read and will store is the settled one, or the entry is dirty and keeps its
own. -/
def State.Overruled (st : State) (task : Task) (idx nblocks : Nat) : Prop :=
  ∀ size, st.settled task.rnode task.fork = some size → nblocks = size ∨
  (st.rsc.entries idx).dirty task.fork = true

def Pc.Fresh (st : State) : Pc → Prop
  | .idle => True
  | .searchRef task => task.known = none
  | .checkRef task _ _ _ => task.known = none
  | .searchMapping task => task.known = none
  | .reading task _ => task.known = none
  | .resizing task => task.known ≠ none ∧ st.settled task.rnode task.fork = none
  | .update task => st.Pending task
  | .sweeping task _ => st.Pending task
  | .picked task _ _ => st.Pending task
  | .allocated task _ => st.Pending task
  | .storing task idx nblocks =>
    (∀ known, task.known = some known → nblocks = known) ∧ st.Pending task ∧
      (task.known = none → st.Overruled task idx nblocks ∧ st.Expected task nblocks)
  | .finished task nblocks => task.known = none → st.Expected task nblocks

structure Coherent (st : State) : Prop where
  inv : Inv st
  sizes : st.rsc.Sizes st.Agrees
  files : ∀ rnode fork, st.Agrees rnode fork (st.file rnode fork)
  checked : ∀ proc, (st.procs proc).pc.Checked st.rsc st.Expected
  fresh : ∀ proc, (st.procs proc).pc.Fresh st
  tasks : ∀ proc task, (st.procs proc).pc.task = some task → st.Timely task
  alone : ∀ proc other task otherTask, (st.procs proc).pc.task = some task →
    (st.procs other).pc.task = some otherTask → task.known ≠ none → otherTask.known ≠ none →
    task.rnode = otherTask.rnode → task.fork = otherTask.fork → proc = other

variable {partitionOf : RelFileNode → Nat} {st next : State} {proc : Nat} {task : Task}
  {event : Event}

theorem State.Pending.of_lookup (isLookup : task.known = none) : st.Pending task := by
  intro _ known
  rw [isLookup] at known
  contradiction

section
variable (coherent : Coherent st) (proc : Nat)
include coherent

theorem Coherent.setPc (pc : Pc) (sound : pc.Sound st.rsc) (checked : pc.Checked st.rsc st.Expected)
    (fresh : pc.Fresh st) (timely : ∀ task, pc.task = some task → st.Timely task)
    (alone : ∀ task, pc.task = some task → task.known ≠ none → (st.procs proc).pc.task = some task ∨
      ¬ ResizingFork st task.rnode task.fork) : Coherent (st.setPc proc pc) where
  inv := coherent.inv.setPc proc pc sound
  sizes := coherent.sizes
  files := coherent.files
  checked := State.setPc_forall checked coherent.checked
  fresh := State.setPc_forall fresh coherent.fresh
  tasks := State.setPc_forall (P := fun pc => ∀ task, pc.task = some task → st.Timely task) timely
    coherent.tasks
  alone := by
    -- The task of the process is the one it had, or no other process resizes the fork.
    have apart : ∀ other task otherTask, other ≠ proc → pc.task = some task →
        (st.procs other).pc.task = some otherTask → task.known ≠ none → otherTask.known ≠ none →
        task.rnode = otherTask.rnode → task.fork = otherTask.fork → False := by
      intro other task otherTask distinct given otherGiven known otherKnown sameNode sameFork
      rcases alone task given known with before | none
      · exact distinct
          (coherent.alone proc other task otherTask before otherGiven known otherKnown sameNode
            sameFork).symm
      · exact none ⟨other, otherTask, otherGiven, otherKnown, sameNode.symm, sameFork.symm⟩
    intro first second task otherTask given otherGiven known otherKnown sameNode sameFork
    by_cases here : first = proc
    · by_cases there : second = proc
      · exact here.trans there.symm
      · rw [here, State.setPc_pc] at given
        rw [State.setPc_other st pc there] at otherGiven
        exact (apart second task otherTask there given otherGiven known otherKnown sameNode
          sameFork).elim
    · rw [State.setPc_other st pc here] at given
      by_cases there : second = proc
      · rw [there, State.setPc_pc] at otherGiven
        exact (apart first otherTask task here otherGiven given otherKnown known sameNode.symm
          sameFork.symm).elim
      · rw [State.setPc_other st pc there] at otherGiven
        exact coherent.alone first second task otherTask given otherGiven known otherKnown
          sameNode sameFork

theorem Coherent.setRef (rnode : RelFileNode) (ref : Option (Nat × Nat))
    (inv : Inv (st.setRef proc rnode ref)) : Coherent (st.setRef proc rnode ref) := by
  have same := st.setRef_pc proc rnode ref
  constructor
  · exact inv
  · exact coherent.sizes
  · exact coherent.files
  · intro other
    rw [same]
    exact coherent.checked other
  · intro other
    rw [same]
    exact coherent.fresh other
  · intro other
    rw [same]
    exact coherent.tasks other
  · intro other second
    rw [same, same]
    exact coherent.alone other second

end

theorem Coherent.go (coherent : Coherent st) {before : Pc} (here : (st.procs proc).pc = before)
    (pc : Pc) (sameTask : pc.task = before.task) (sound : pc.Sound st.rsc)
    (checked : pc.Checked st.rsc st.Expected) (fresh : pc.Fresh st) :
    Coherent (st.setPc proc pc) := by
  subst here
  apply coherent.setPc proc pc sound checked fresh
  · intro task given
    exact coherent.tasks proc task (sameTask.symm.trans given)
  · intro _ given _
    exact .inl (sameTask.symm.trans given)

theorem Coherent.fresh_at (coherent : Coherent st) {pc : Pc} (here : (st.procs proc).pc = pc) :
    pc.Fresh st :=
  here ▸ coherent.fresh proc

variable {rnode : RelFileNode} {fork : ForkNumber} {idx nblocks : Nat} {rsc : RelSizeCache}

/-- What a process knows is still true in another state. -/
theorem Pc.Fresh.imp {pc : Pc} (fresh : pc.Fresh st)
    (resizing : ∀ task, pc = .resizing task → task.known ≠ none →
      st.settled task.rnode task.fork = none → next.settled task.rnode task.fork = none)
    (pending : ∀ task, pc.task = some task → pc ≠ .resizing task →
      (∀ res, pc ≠ .finished task res) → st.Pending task → next.Pending task)
    (overruled : ∀ task idx nblocks, pc = .storing task idx nblocks →
      st.Overruled task idx nblocks → next.Overruled task idx nblocks)
    (expected : ∀ task nblocks, pc.task = some task → st.Expected task nblocks →
      next.Expected task nblocks) : pc.Fresh next := by
  cases pc with
  | resizing task => exact ⟨fresh.1, resizing task rfl fresh.1 fresh.2⟩
  | update task | sweeping task | picked task | allocated task =>
      exact pending task rfl nofun nofun fresh
  | storing task idx nblocks =>
    exact ⟨fresh.1, pending task rfl nofun nofun fresh.2.1, fun isLookup =>
      (fresh.2.2 isLookup).imp (overruled task idx nblocks rfl) (expected task nblocks rfl)⟩
  | finished task nblocks => exact fun isLookup => expected task nblocks rfl (fresh isLookup)
  | _ => exact fresh

theorem Pc.Fresh.evolves {pc : Pc} (fresh : pc.Fresh st)
    (dirty : ∀ rnode idx fork, pc.holds = some (rnode,
      idx) → (st.rsc.entries idx).dirty fork = true → (rsc.entries idx).dirty fork = true) :
      pc.Fresh { st with rsc := rsc } := by
  cases pc with
  | storing task idx =>
    refine ⟨fresh.1, fresh.2.1, fun isLookup => ⟨?_, (fresh.2.2 isLookup).2⟩⟩
    intro size settled
    exact ((fresh.2.2 isLookup).1 size settled).imp id (dirty task.rnode idx task.fork rfl)
  | _ => exact fresh

theorem Coherent.evolve (coherent : Coherent st) (inv : Inv { st with rsc := rsc })
    (evolves : st.rsc.Evolves rsc) (sizes : rsc.Sizes st.Agrees)
    (dirty : ∀ proc rnode idx fork, (st.procs proc).pc.holds = some (rnode, idx) →
      (st.rsc.entries idx).dirty fork = true → (rsc.entries idx).dirty fork = true) :
    Coherent { st with rsc := rsc } :=
  { coherent with
    inv := inv
    sizes := sizes
    checked := fun proc => (coherent.checked proc).evolves (coherent.inv.pcs proc) evolves
      fun _ _ known => known
    fresh := fun proc => (coherent.fresh proc).evolves (dirty proc) }

theorem Coherent.evolve_use (coherent : Coherent st) (same : st.rsc.SameUse rsc) :
    Coherent { st with rsc := rsc } := by
  apply coherent.evolve (coherent.inv.evolve_use same) same.evolves (same.sizes coherent.sizes)
  intro _ _ _ _ _ dirty
  rw [same.dirty]
  exact dirty

theorem Coherent.answer (coherent : Coherent st) (proc : Nat) (task : Task) (res : Nat)
    (otherwise : Pc) (here : (st.procs proc).pc.task = some task)
    (sameTask : otherwise.task = some task) (sound : otherwise.Sound st.rsc)
    (checked : otherwise.Checked st.rsc st.Expected) (fresh : otherwise.Fresh st)
    (expected : res = invalidBlockNumber ∨ st.Expected task res) :
    Coherent (st.answer proc task res otherwise) := by
  rcases st.answer_cases proc task res otherwise with ⟨_, equal⟩ | ⟨found, equal⟩
  · rw [equal]
    exact coherent.go rfl otherwise (sameTask.trans here.symm) sound checked fresh
  rw [equal]
  have moved := coherent.go rfl (.finished task res) here.symm trivial trivial
    fun _ => expected.resolve_left found
  exact { moved with inv := { moved.inv with } }

/-- The forks whose resize or drop starts are no longer settled. -/
structure Unsettles (before after : State) : Prop where
  rsc : after.rsc = before.rsc
  file : after.file = before.file
  procs : after.procs = before.procs
  forks : ∀ rnode fork,
    after.settled rnode fork = before.settled rnode fork ∧ after.changes rnode fork =
    before.changes rnode fork ∨
      after.settled rnode fork = none ∧ before.changes rnode fork < after.changes rnode fork

theorem State.unsettle_unsettles (st : State) (rnode : RelFileNode) (fork : ForkNumber) :
    Unsettles st (st.unsettle rnode fork) where
  rsc := rfl
  file := rfl
  procs := rfl
  forks := by
    intro _ _
    unfold State.unsettle
    dsimp only
    rw [update_apply, update_apply]
    split_ifs with sameNode
    · rw [sameNode]
      rw [update_apply, update_apply]
      split_ifs with sameFork
      · rw [sameFork]
        exact .inr ⟨rfl, Nat.lt_succ_self _⟩
      · exact .inl ⟨rfl, rfl⟩
    · exact .inl ⟨rfl, rfl⟩

theorem State.unsettleRelation_unsettles (st : State) (rnode : RelFileNode) :
    Unsettles st (st.unsettleRelation rnode) where
  rsc := rfl
  file := rfl
  procs := rfl
  forks := by
    intro _ _
    unfold State.unsettleRelation
    dsimp only
    rw [update_apply, update_apply]
    split_ifs with sameNode
    · rw [sameNode]
      exact .inr ⟨rfl, Nat.lt_succ_self _⟩
    · exact .inl ⟨rfl, rfl⟩

section
variable (unsettles : Unsettles st next)
include unsettles

theorem Unsettles.settled {size : Nat}
    (after : next.settled rnode fork = some size) : st.settled rnode fork = some size := by
  rcases unsettles.forks rnode fork with ⟨same, _⟩ | ⟨gone, _⟩
  · exact same.symm.trans after
  · rw [gone] at after
    contradiction

theorem Unsettles.stays_none (before : st.settled rnode fork = none) :
    next.settled rnode fork = none := by
  rcases unsettles.forks rnode fork with ⟨same, _⟩ | ⟨gone, _⟩
  · exact same.trans before
  · exact gone

theorem Unsettles.unchanged (timely : st.Timely task)
    (current : task.stamp = next.changes task.rnode task.fork) : next.settled task.rnode task.fork =
      st.settled task.rnode task.fork ∧ task.stamp = st.changes task.rnode task.fork := by
  have reached := timely.1
  rcases unsettles.forks task.rnode task.fork with ⟨same, sameChanges⟩ | ⟨_, _⟩
  · exact ⟨same, current.trans sameChanges⟩
  · omega

theorem Unsettles.expected (timely : st.Timely task) {nblocks : Nat}
    (expected : st.Expected task nblocks) : next.Expected task nblocks := by
  intro size start current
  exact expected size start (unsettles.unchanged timely current).2

theorem Unsettles.timely (timely : st.Timely task) : next.Timely task := by
  constructor
  · rcases unsettles.forks task.rnode task.fork with ⟨_, same⟩ | ⟨_, changed⟩
    · rw [same]
      exact timely.1
    · exact Nat.le_trans timely.1 (Nat.le_of_lt changed)
  · intro size start current
    have unchanged := unsettles.unchanged timely current
    exact unchanged.1.trans (timely.2 size start unchanged.2)

theorem Unsettles.pending (pending : st.Pending task) : next.Pending task := by
  intro nblocks known
  have before := pending nblocks known
  rw [unsettles.file]
  exact ⟨unsettles.stays_none before.1, before.2⟩

theorem Unsettles.fresh {pc : Pc} (fresh : pc.Fresh st)
    (timely : ∀ task, pc.task = some task → st.Timely task) : pc.Fresh next := by
  apply fresh.imp
  · exact fun _ _ _ => unsettles.stays_none
  · exact fun _ _ _ _ => unsettles.pending
  · intro task _ _ _ overruled size settled
    rw [unsettles.rsc]
    exact overruled size (unsettles.settled settled)
  · exact fun task _ given => unsettles.expected (timely task given)

end

theorem Coherent.unsettles (coherent : Coherent st) (unsettles : Unsettles st next) :
    Coherent next where
  inv := by
    have inv := coherent.inv
    constructor
    · rw [unsettles.rsc]
      exact inv.positive
    · rw [unsettles.rsc]
      exact inv.matched
    · rw [unsettles.rsc, unsettles.procs]
      exact inv.refs
    · rw [unsettles.rsc, unsettles.procs]
      exact inv.pcs
  sizes := by
    rw [unsettles.rsc]
    exact coherent.sizes.mono fun _ _ _ agrees size settled =>
      agrees size (unsettles.settled settled)
  files := by
    intro rnode fork size settled
    rw [unsettles.file]
    exact coherent.files rnode fork size (unsettles.settled settled)
  checked := by
    intro proc
    have checked := coherent.checked proc
    rw [unsettles.rsc, unsettles.procs]
    cases place : (st.procs proc).pc with
    | checkRef task =>
      rw [place] at checked
      intro same
      have timely := coherent.tasks proc task (by rw [place]; rfl)
      exact (checked same).imp id (unsettles.expected timely)
    | _ => trivial
  fresh := by
    intro proc
    rw [unsettles.procs]
    exact unsettles.fresh (coherent.fresh proc) (coherent.tasks proc)
  tasks := by
    intro proc task given
    rw [unsettles.procs] at given
    exact unsettles.timely (coherent.tasks proc task given)
  alone := by
    rw [unsettles.procs]
    exact coherent.alone

theorem Coherent.setFile (coherent : Coherent st) (rnode : RelFileNode) (fork : ForkNumber)
    (nblocks : Nat) (unsettled : st.settled rnode fork = none)
    (before : ∀ proc task, (st.procs proc).pc.task = some task → task.known ≠ none →
      task.rnode = rnode → task.fork = fork → (st.procs proc).pc = .resizing task) :
    Coherent { st with file := update st.file rnode (update (st.file rnode) fork nblocks) } where
  inv := { coherent.inv with }
  sizes := coherent.sizes
  files := by
    intro other otherFork size settled
    dsimp only at settled ⊢
    by_cases sameNode : other = rnode
    · by_cases sameFork : otherFork = fork
      · rw [sameNode, sameFork, unsettled] at settled
        contradiction
      · rw [sameNode, update_self, update_of_ne sameFork]
        rw [sameNode] at settled
        exact coherent.files rnode otherFork size settled
    · rw [update_of_ne sameNode]
      exact coherent.files other otherFork size settled
  checked := coherent.checked
  fresh := by
    intro proc
    refine (coherent.fresh proc).imp (fun _ _ _ none => none) ?_ (fun _ _ _ _ same => same)
      fun _ _ _ same => same
    intro task given moved _ pending size known
    have unchanged := pending size known
    constructor
    · exact unchanged.1
    have apart : task.rnode = rnode → task.fork ≠ fork := by
      intro sameNode sameFork
      exact moved (before proc task given (by rw [known]; nofun) sameNode sameFork)
    dsimp only
    rw [update_apply]
    split_ifs with sameNode
    · rw [update_of_ne (apart sameNode), ← sameNode]
      exact unchanged.2
    · exact unchanged.2
  tasks := coherent.tasks
  alone := coherent.alone

theorem Coherent.storeLookup (coherent : Coherent st) (idx nblocks : Nat)
    (mapped : st.rsc.mappings task.rnode = some idx) (overruled : st.Overruled task idx nblocks) :
    Coherent { st with rsc := st.rsc.updateEntry idx task.fork nblocks false } := by
  have evolves : st.rsc.Evolves (st.rsc.updateEntry idx task.fork nblocks false) :=
    RelSizeCache.updateEntry_evolves coherent.inv.matched mapped _
  apply coherent.evolve (coherent.inv.evolve_same evolves (st.rsc.updateEntry_same _)) evolves
  · apply coherent.sizes.updateEntry_lookup coherent.inv.matched mapped fun _ _ _ agrees => agrees
    intro clean size settled
    exact (overruled size settled).resolve_right (by simp [clean])
  · intro _ _ _ _ _ dirty
    exact st.rsc.updateEntry_dirty false dirty

/-- `store` of a resize: the size of the fork. -/
def State.settle (st : State) (rnode : RelFileNode) (fork : ForkNumber) (nblocks : Nat) : State :=
  { st with
    settled := update st.settled rnode (update (st.settled rnode) fork (some nblocks)) }

theorem State.settle_self (st : State) (rnode : RelFileNode) (fork : ForkNumber) (nblocks : Nat) :
    (st.settle rnode fork nblocks).settled rnode fork = some nblocks := by
  simp [State.settle]

theorem State.settle_other (st : State) {rnode other : RelFileNode} {fork otherFork : ForkNumber}
    (nblocks : Nat) (apart : other = rnode → otherFork ≠ fork) :
    (st.settle rnode fork nblocks).settled other otherFork = st.settled other otherFork := by
  unfold State.settle
  dsimp only
  rw [update_apply]
  split_ifs with sameNode
  · rw [sameNode, update_of_ne (apart sameNode)]
  · rfl

/-- The fork is settled again when nobody resizes it, the entry is dirty and nothing else is cached
for it; no lookup that started before expects a size. -/
theorem Coherent.settle (coherent : Coherent st)
    (unsettled : st.settled rnode fork = none) (size : st.file rnode fork = nblocks)
    (only : ∀ proc task, (st.procs proc).pc.task = some task → task.known ≠ none →
      task.rnode = rnode → task.fork = fork → ∃ res, (st.procs proc).pc = .finished task res)
    (mapped : st.rsc.mappings rnode = some idx) (dirty : (st.rsc.entries idx).dirty fork = true)
    (sizes : st.rsc.Sizes (st.settle rnode fork nblocks).Agrees) :
    Coherent (st.settle rnode fork nblocks) where
  inv := { coherent.inv with }
  sizes := sizes
  files := by
    intro other otherFork settledSize settled
    by_cases apart : other = rnode → otherFork ≠ fork
    · rw [st.settle_other nblocks apart] at settled
      exact coherent.files other otherFork settledSize settled
    · push Not at apart
      rw [apart.1, apart.2, State.settle_self, Option.some.injEq] at settled
      rw [apart.1, apart.2, ← settled]
      exact size
  checked := coherent.checked
  fresh := by
    intro proc
    have sound := coherent.inv.pcs proc
    have elsewhere : ∀ task, (st.procs proc).pc.task = some task → task.known ≠ none →
        (∀ res, (st.procs proc).pc ≠ .finished task res) → task.rnode = rnode →
        task.fork ≠ fork := by
      intro task given known going sameNode sameFork
      have done := only proc task given known sameNode sameFork
      exact done.elim going
    apply (coherent.fresh proc).imp
    · intro task here known none
      rw [here] at elsewhere
      rw [st.settle_other nblocks (elsewhere task rfl known nofun)]
      exact none
    · intro task given _ going pending known isKnown
      have apart := elsewhere task given (by rw [isKnown]; nofun) going
      have unchanged := pending known isKnown
      constructor
      · rw [st.settle_other nblocks apart]
        exact unchanged.1
      · exact unchanged.2
    · intro task found _ here overruled settledSize settled
      by_cases apart : task.rnode = rnode → task.fork ≠ fork
      · rw [st.settle_other nblocks apart] at settled
        exact overruled settledSize settled
      · push Not at apart
        rw [here] at sound
        have sameIndex : st.rsc.mappings task.rnode = some found := sound
        rw [apart.1, mapped, Option.some.injEq] at sameIndex
        rw [← sameIndex, apart.2]
        exact .inr dirty
    · exact fun _ _ _ same => same
  tasks := by
    intro proc task given
    have timely := coherent.tasks proc task given
    constructor
    · exact timely.1
    intro expected start current
    have before := timely.2 expected start current
    have apart : task.rnode = rnode → task.fork ≠ fork := by
      intro sameNode sameFork
      rw [sameNode, sameFork, unsettled] at before
      contradiction
    rw [st.settle_other nblocks apart]
    exact before
  alone := coherent.alone

theorem Coherent.storeResize (coherent : Coherent st)
    (here : (st.procs proc).pc = .storing task idx nblocks) (isResize : task.known = some nblocks) :
    Coherent ({ st.setPc proc (.finished task nblocks) with
        rsc := st.rsc.updateEntry idx task.fork nblocks true }.settle task.rnode task.fork
        nblocks) := by
  have mapped : st.rsc.mappings task.rnode = some idx := coherent.inv.sound here
  have pending : st.settled task.rnode task.fork = none ∧ st.file task.rnode task.fork = nblocks :=
    (coherent.fresh_at here).2.1 nblocks isResize
  have isKnown : task.known ≠ none := by
    rw [isResize]
    nofun
  have done := coherent.go here (.finished task nblocks) rfl trivial trivial
    fun isLookup => absurd isLookup isKnown
  have evolves : st.rsc.Evolves (st.rsc.updateEntry idx task.fork nblocks true) :=
    RelSizeCache.updateEntry_evolves coherent.inv.matched mapped _
  have same : st.rsc.SameRelations (st.rsc.updateEntry idx task.fork nblocks true) :=
    st.rsc.updateEntry_same _
  have weaker : (st.rsc.updateEntry idx task.fork nblocks true).Sizes st.Agrees := by
    apply coherent.sizes.updateEntry_extend coherent.inv.matched mapped fun _ _ _ _ agrees => agrees
    intro size settled
    rw [pending.1] at settled
    contradiction
  have updated := done.evolve (done.inv.evolve_same evolves same) evolves weaker
    fun _ _ other fork _ dirty => st.rsc.updateEntry_dirty true dirty
  apply updated.settle pending.1 pending.2
  · intro other otherTask given known sameNode sameFork
    by_cases atHome : other = proc
    · rw [atHome] at given ⊢
      have atProc : ((st.setPc proc (.finished task nblocks)).procs proc).pc =
        .finished task nblocks :=
        State.setPc_pc st proc _
      rw [atProc] at given
      rw [← Option.some.inj given]
      exact ⟨nblocks, atProc⟩
    · rw [State.setPc_other st _ atHome] at given
      have taskHere : (st.procs proc).pc.task = some task := here ▸ rfl
      exact absurd (coherent.alone other proc otherTask task given taskHere known isKnown sameNode
        sameFork) atHome
  · exact (congrFun same.mappings task.rnode).trans mapped
  · exact st.rsc.updateEntry_extend_dirty
  · apply coherent.sizes.updateEntry_extend coherent.inv.matched mapped
    · intro _ _ _ apart agrees settledSize settled
      rw [State.settle_other _ nblocks apart] at settled
      exact agrees settledSize settled
    · intro _ settled
      rw [State.settle_self, Option.some.injEq] at settled
      exact settled

theorem Coherent.timely_here (coherent : Coherent st) {pc : Pc} (here : (st.procs proc).pc = pc)
    (given : pc.task = some task) : st.Timely task := by
  apply coherent.tasks proc task
  rw [here]
  exact given

theorem State.Timely.expected (timely : st.Timely task) {nblocks : Nat}
    (agrees : st.Agrees task.rnode task.fork nblocks) : st.Expected task nblocks :=
  fun size start current => agrees size (timely.2 size start current)

section
variable (coherent : Coherent st)
include coherent

theorem Coherent.searchByRef (here : (st.procs proc).pc = .searchRef task) :
    Coherent (searchByRef st proc task) := by
  have isLookup := coherent.fresh_at here
  have timely := coherent.timely_here here rfl
  unfold Access.searchByRef
  split
  · exact coherent.go here _ rfl trivial trivial isLookup
  · next idx generation remembered =>
    have remembers := coherent.inv.refs proc task.rnode idx generation remembered
    exact coherent.go here _ rfl remembers
      (fun same => (remembers.size coherent.sizes same).imp id timely.expected) isLookup

theorem Coherent.checkGeneration {idx generation res : Nat}
    (here : (st.procs proc).pc = .checkRef task idx generation res) :
    Coherent (checkGeneration st proc task idx generation res) := by
  have isLookup := coherent.fresh_at here
  unfold Access.checkGeneration
  split
  · next same =>
    have checked := coherent.checked proc
    rw [here] at checked
    exact (coherent.evolve_use (st.rsc.touch_sameUse idx)).answer proc task res _
      (by rw [here]; rfl) rfl
      trivial trivial isLookup (checked same)
  · have cleared := coherent.setRef proc task.rnode none
      (coherent.inv.setRef proc task.rnode none fun _ _ => nofun)
    exact cleared.go ((State.setRef_pc ..).trans here) _ rfl trivial trivial isLookup

theorem Coherent.searchByMapping (here : (st.procs proc).pc = .searchMapping task) :
    Coherent (searchByMapping st proc task) := by
  have isLookup := coherent.fresh_at here
  have timely := coherent.timely_here here rfl
  unfold Access.searchByMapping
  split
  · exact coherent.go here _ rfl trivial trivial (State.Pending.of_lookup isLookup)
  · next idx mapped =>
    have noted := (coherent.evolve_use (st.rsc.touch_sameUse idx)).setRef proc task.rnode
      (some (idx, (st.rsc.entries idx).generation)) (coherent.inv.remember proc mapped)
    exact noted.answer proc task _ (.update task) (by rw [State.setRef_pc, here]; rfl) rfl
      trivial trivial
      (State.Pending.of_lookup isLookup)
        ((coherent.inv.matched.size coherent.sizes mapped).imp id timely.expected)

theorem Coherent.findEntry (here : (st.procs proc).pc = .update task) :
    Coherent (findEntry st proc task) := by
  have pending := coherent.fresh_at here
  unfold Access.findEntry
  split
  · exact coherent.go here _ rfl trivial trivial pending
  next idx mapped =>
  split
  · next isLookup => exact coherent.go here _ rfl mapped trivial isLookup
  next nblocks isResize =>
  apply coherent.go here (.storing task idx nblocks) rfl mapped trivial
  refine ⟨fun known same => ?_, pending, fun isLookup => ?_⟩
  · exact Option.some.inj (isResize.symm.trans same)
  · rw [isResize] at isLookup
    contradiction

theorem Coherent.readFile {idx : Nat} (here : (st.procs proc).pc = .reading task idx) :
    Coherent (st.setPc proc (.storing task idx (st.file task.rnode task.fork))) := by
  have isLookup := coherent.fresh_at here
  have mapped := coherent.inv.sound here
  have timely := coherent.timely_here here rfl
  have agrees := coherent.files task.rnode task.fork
  apply coherent.go here (.storing task idx (st.file task.rnode task.fork)) rfl mapped trivial
  refine ⟨fun known same => ?_, State.Pending.of_lookup isLookup,
    fun _ => ⟨?_, timely.expected agrees⟩⟩
  · rw [show task.known = none from isLookup] at same
    contradiction
  · exact fun size settled => .inl (agrees size settled)

theorem Coherent.store
    (here : (st.procs proc).pc = .storing task idx nblocks) :
    Coherent (store st proc task idx nblocks) := by
  have fresh := coherent.fresh_at here
  have mapped := coherent.inv.sound here
  unfold Access.store
  cases kind : task.known with
  | some known =>
    have same : nblocks = known := fresh.1 known kind
    have stored := coherent.storeResize here (kind.trans (congrArg some same.symm))
    exact { stored with inv := { stored.inv with } }
  | none =>
    have read := fresh.2.2 kind
    have done := coherent.go here (.finished task nblocks) rfl trivial trivial fun _ => read.2
    have stored := done.storeLookup idx nblocks mapped read.1
    dsimp only
    split
    · exact stored
    · exact { stored with inv := { stored.inv with } }

theorem Coherent.sweep {used : Nat} (here : (st.procs proc).pc = .sweeping task used)
    (random : Nat) : Coherent (sweep st proc task used random) := by
  have pending := coherent.fresh_at here
  have swept := coherent.evolve_use st.rsc.sweepHand_sameUse
  apply sweep_rule coherent.inv.positive
  · exact fun _ _ inPool => swept.go here _ rfl inPool trivial pending
  · exact fun _ inPool => swept.go here _ rfl inPool trivial pending
  · exact swept.go here _ rfl trivial trivial pending

theorem Coherent.evictPicked {idx : Nat} {victim : RelFileNode}
    (here : (st.procs proc).pc = .picked task idx victim)
    (alone : Exclusive partitionOf st victim) : Coherent (evictPicked st proc task idx victim) := by
  have pending := coherent.fresh_at here
  have inPool := coherent.inv.sound here
  unfold Access.evictPicked
  split
  · next mapped =>
    have evicted := coherent.evolve (coherent.inv.evict mapped alone)
      (st.rsc.evict_evolves idx victim) (coherent.sizes.evict idx victim)
      fun _ _ other fork _ dirty => RelSizeCache.setEntry_dirty id dirty
    exact evicted.go here _ rfl inPool trivial pending
  · exact coherent.go here _ rfl trivial trivial pending

theorem Coherent.enterAllocated {idx : Nat}
    (here : (st.procs proc).pc = .allocated task idx)
    (alone : Exclusive partitionOf st task.rnode) : Coherent (enterAllocated st proc task idx) := by
  have pending := coherent.fresh_at here
  have inPool := coherent.inv.sound here
  unfold Access.enterAllocated
  split
  · exact coherent.go here _ rfl trivial trivial pending
  next used =>
  have unused := Bool.eq_false_iff.mpr used
  have entered := coherent.evolve (coherent.inv.enter inPool unused alone)
    (RelSizeCache.enter_evolves idx task.rnode unused) (coherent.sizes.enter idx task.rnode)
    fun _ rnode found _ holds dirty => by
      -- The entry another process holds is in use.
      have mapped := coherent.inv.held_mapped holds
      have distinct : found ≠ idx := by
        intro same
        have valid := (coherent.inv.matched.mapped rnode found mapped).2.1
        rw [same, unused] at valid
        contradiction
      rw [RelSizeCache.enter_other task.rnode distinct]
      exact dirty
  exact entered.go here _ rfl trivial trivial pending

theorem Coherent.step (step : Step partitionOf event st next) (primary : OnPrimary event st) :
    Coherent next := by
  cases step with
  | lookup proc rnode fork here =>
    apply coherent.setPc proc (.searchRef _) trivial trivial
    · exact rfl
    · intro task given
      rw [← Option.some.inj given]
      exact ⟨Nat.le_refl _, fun _ start _ => start⟩
    · intro task given known
      rw [← Option.some.inj given] at known
      contradiction
  | resize proc rnode fork nblocks here =>
    have unsettles := st.unsettle_unsettles rnode fork
    apply (coherent.unsettles unsettles).setPc proc (.resizing _) trivial trivial
    · refine ⟨nofun, ?_⟩
      simp [State.unsettle]
    · intro task given
      rw [← Option.some.inj given]
      exact ⟨Nat.zero_le _, nofun⟩
    · intro task given _
      rw [← Option.some.inj given]
      exact .inr primary
  | changeFile proc task nblocks here isKnown =>
    have fresh := coherent.fresh_at here
    have taskHere : (st.procs proc).pc.task = some task := here ▸ rfl
    have changed := coherent.setFile task.rnode task.fork nblocks fresh.2 (by
      intro other otherTask given known sameNode sameFork
      have same := coherent.alone other proc otherTask task given taskHere known fresh.1
        sameNode sameFork
      rw [same, taskHere] at given
      rw [same, here, Option.some.inj given])
    apply changed.go here (.update task) rfl trivial trivial
    intro _ known
    rw [isKnown, Option.some.injEq] at known
    constructor
    · exact fresh.2
    · dsimp only
      rw [update_self, update_self, known]
  | searchByRef proc task here => exact coherent.searchByRef here
  | checkGeneration proc task idx _ _ here => exact coherent.checkGeneration here
  | searchByMapping proc task here => exact coherent.searchByMapping here
  | findEntry proc task here => exact coherent.findEntry here
  | readFile proc task idx here => exact coherent.readFile here
  | store proc task idx nblocks here => exact coherent.store here
  | sweep proc task _ random here => exact coherent.sweep here random
  | evictPicked proc task idx _ here alone => exact coherent.evictPicked here alone
  | enterAllocated proc task idx here alone => exact coherent.enterAllocated here alone
  | «return» proc task nblocks here =>
    exact coherent.setPc proc .idle trivial trivial trivial (fun _ => nofun) (fun _ => nofun)
  | drop rnode alone =>
    have unsettled := coherent.unsettles (st.unsettleRelation_unsettles rnode)
    have inv := unsettled.inv.dropEntry alone
    exact unsettled.evolve inv (st.rsc.dropEntry_evolves rnode) (unsettled.sizes.dropEntry rnode)
      fun _ _ other fork _ dirty => RelSizeCache.dropEntry_dirty rnode dirty
  | unlink rnode fork nblocks =>
    apply coherent.setFile rnode fork nblocks primary.1
    intro proc task given known sameNode sameFork
    exact absurd ⟨proc, task, given, known, sameNode, sameFork⟩ primary.2
  | promote alone =>
    apply coherent.evolve (coherent.inv.promote alone) st.rsc.promote_evolves coherent.sizes.promote
    intro _ rnode _ _ holds
    exact absurd rfl ((alone rnode).distinct holds)
  | replay => exact primary.elim

end

theorem Started.coherent (started : Started st) : Coherent st where
  inv := started.inv
  sizes := started.answered.sizes.mono fun rnode fork _ _ size settled => by
    rw [started.settled] at settled
    contradiction
  files := by
    intro _ _ _ settled
    rw [started.settled] at settled
    contradiction
  checked := by
    intro proc
    rw [started.idle]
    trivial
  fresh := by
    intro proc
    rw [started.idle]
    trivial
  tasks := by
    intro proc task given
    rw [started.idle] at given
    contradiction
  alone := by
    intro _ _ _ _ given
    rw [started.idle] at given
    contradiction

/-- A lookup that started when the size of the last resize was stored, and since whose start no
resize or drop of the fork started, returns that size. -/
theorem lookup_returns_settled_size {start : State} (started : Started start)
    (run : Run (Step partitionOf) OnPrimary start st) (proc : Nat) {res size : Nat}
    (done : (st.procs proc).pc = .finished task res) (isLookup : task.known = none)
    (settled : task.expected = some size)
    (unchanged : task.stamp = st.changes task.rnode task.fork) : res = size := by
  have coherent : Coherent st :=
    run.invariant Coherent started.coherent fun _ _ _ known step primary => known.step step primary
  exact coherent.fresh_at done isLookup size settled unchanged

theorem not_resizing_of_lookups (lookups : ∀ proc task, (st.procs proc).pc.task = some task →
    task.known = none) : ¬ ResizingFork st rnode fork := by
  intro ⟨proc, task, given, known, _⟩
  exact known (lookups proc task given)

def extension (nblocks : Nat) : Task :=
  { rnode := ⟨1, 1, 7⟩, fork := .main, known := some nblocks, expected := none, stamp := 0 }

/-- The relation was extended to four blocks, for which it got an entry, and then a lookup has
started. -/
def lookupAfterExtension : State :=
  let asked := (smallStart.unsettle ⟨1, 1, 7⟩ .main).setPc 0 (.resizing (extension 4))
  let changed := { asked.setPc 0 (.update (extension 4)) with
    file := update asked.file ⟨1, 1, 7⟩ (update (asked.file ⟨1, 1, 7⟩) .main 4) }
  let entered := enterAllocated (sweep (findEntry changed 0 (extension 4)) 0 (extension 4) 0 0) 0
    (extension 4) 0
  let stored := store (findEntry entered 0 (extension 4)) 0 (extension 4) 0 4
  (stored.setPc 0 .idle).setPc 0 (.searchRef
    { rnode := ⟨1, 1, 7⟩, fork := .main, known := none, expected := some 4, stamp := 1 })

theorem lookupAfterExtension_run :
    Run (Step fun _ => 0) OnPrimary smallStart lookupAfterExtension := by
  have none : Run (Step fun _ => 0) OnPrimary smallStart _ := .refl
  have asked := none.snoc (.resize 0 ⟨1, 1, 7⟩ .main 4 rfl (by decide))
    (not_resizing_of_lookups fun _ _ => nofun)
  have changed := asked.snoc (.changeFile 0 _ 4 rfl rfl)
  have swept := (changed.snoc (.findEntry 0 _ rfl)).snoc (.sweep 0 _ 0 0 rfl)
  have entered := swept.snoc (.enterAllocated 0 _ 0 rfl (Exclusive.of_none (by
    intro proc
    cases proc with
    | zero => rfl
    | succ => rfl)))
  have stored := (entered.snoc (.findEntry 0 _ rfl)).snoc (.store 0 _ 0 4 rfl)
  exact (stored.snoc (.return 0 _ 4 rfl)).snoc (.lookup 0 ⟨1, 1, 7⟩ .main rfl)

theorem lookup_after_extension_returns_four :
    ∃ st task res, Run (Step fun _ => 0) OnPrimary smallStart st ∧
      (st.procs 0).pc = .finished task res ∧ task.expected = some 4 ∧ res = 4 := by
  have searched := lookupAfterExtension_run.snoc (.searchByRef 0 _ rfl)
  have run := searched.snoc (.searchByMapping 0 _ rfl)
  exact ⟨_, _, _, run, rfl, rfl,
    lookup_returns_settled_size smallStart_started run 0 rfl rfl rfl rfl⟩

/-- A lookup that starts when the relation has four blocks returns five if an extension to five
blocks starts and returns before the lookup has searched. -/
theorem overtaken_lookup_returns_next_size :
    ∃ st task, Run (Step fun _ => 0) OnPrimary smallStart st ∧
      (st.procs 0).pc = .finished task 5 ∧ task.known = none ∧ task.expected = some 4 := by
  have alone : ¬ ResizingFork lookupAfterExtension ⟨1, 1, 7⟩ .main := by
    apply not_resizing_of_lookups
    intro proc _ given
    cases proc with
    | zero =>
      cases given
      rfl
    | succ => nomatch given
  have asked := lookupAfterExtension_run.snoc (.resize 1 ⟨1, 1, 7⟩ .main 5 rfl (by decide)) alone
  have changed := asked.snoc (.changeFile 1 _ 5 rfl rfl)
  have stored := (changed.snoc (.findEntry 1 _ rfl)).snoc (.store 1 _ 0 5 rfl)
  have searched := (stored.snoc (.return 1 _ 5 rfl)).snoc (.searchByRef 0 _ rfl)
  have run := searched.snoc (.searchByMapping 0 _ rfl)
  exact ⟨_, _, run, rfl, rfl, rfl⟩

end PolarDB.Rsc.Access
