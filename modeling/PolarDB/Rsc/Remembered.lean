import PolarDB.Rsc.Access
import PolarDB.Rsc.Generations

/-!
# Runs keep the pool and the remembered entries sound

In every reached state the mapping table and the valid entries are in bijection, an
entry that a process remembers belongs to the relation it was remembered for as long
as its generation is the same, and an answer of the two searches was stored as a
size of the relation.
-/

namespace PolarDB.Rsc.Access

open Function List Lib.Runs
open Rsc.Pool
open Storage

def Pc.Sound (rsc : RelSizeCache) : Pc → Prop
  | .checkRef task idx generation _ => rsc.Remembers task.rnode idx generation
  | .reading task idx => rsc.mappings task.rnode = some idx
  | .storing task idx _ => rsc.mappings task.rnode = some idx
  | .picked _ idx _ => idx < rsc.sharedRelations
  | .allocated _ idx => idx < rsc.sharedRelations
  | _ => True

/-- A size that was read through a remembered entry, should the generation turn out to be the
same. -/
def Pc.Checked (rsc : RelSizeCache) (known : Task → Nat → Prop) : Pc → Prop
  | .checkRef task idx generation res =>
    (rsc.entries idx).generation = generation → res = invalidBlockNumber ∨ known task res
  | _ => True

structure Inv (st : State) : Prop where
  positive : 0 < st.rsc.sharedRelations
  matched : st.rsc.Matched
  refs : ∀ proc rnode idx generation, (st.procs proc).refs rnode = some (idx, generation) →
    st.rsc.Remembers rnode idx generation
  pcs : ∀ proc, (st.procs proc).pc.Sound st.rsc

variable {partitionOf : RelFileNode → Nat} {st next : State} {proc : Nat} {task : Task}
  {event : Event}

/-- A round of the sweep picks an entry of the pool or moves the hand on. -/
theorem sweep_rule {motive : State → Prop} {used random : Nat}
    (positive : 0 < st.rsc.sharedRelations) (picked : ∀ idx victim, idx < st.rsc.sharedRelations →
      motive ({ st with rsc := st.rsc.sweepHand.2 }.setPc proc (.picked task idx victim)))
    (allocated : ∀ idx < st.rsc.sharedRelations,
      motive ({ st with rsc := st.rsc.sweepHand.2 }.setPc proc (.allocated task idx)))
    (again : motive
      ({ st with rsc := st.rsc.sweepHand.2 }.setPc proc (.sweeping task (used + 1)))) :
    motive (sweep st proc task used random) := by
  have look (idx : Nat) (inPool : idx < st.rsc.sharedRelations) :
      motive (lookAtPicked { st with rsc := st.rsc.sweepHand.2 } proc task idx) := by
    unfold lookAtPicked
    dsimp only
    split
    · exact picked idx _ inPool
    · exact allocated idx inPool
  unfold sweep
  dsimp only
  split
  · exact look _ (Nat.mod_lt _ positive)
  · split
    · exact look _ (Nat.mod_lt _ positive)
    · exact again

section
variable (st : State)

@[simp] theorem State.setPc_pc (proc : Nat) (pc : Pc) :
    ((st.setPc proc pc).procs proc).pc = pc := by
  simp [State.setPc]

theorem State.setPc_other (pc : Pc) {other : Nat} (distinct : other ≠ proc) :
    (st.setPc proc pc).procs other = st.procs other :=
  update_of_ne distinct ..

@[simp] theorem State.setPc_refs (proc : Nat) (pc : Pc) (other : Nat) :
    ((st.setPc proc pc).procs other).refs = (st.procs other).refs := by
  by_cases here : other = proc
  · simp [here, State.setPc]
  · rw [st.setPc_other pc here]

variable {st} in
theorem State.setPc_forall {P : Pc → Prop} {pc : Pc} (new : P pc)
    (old : ∀ other, P (st.procs other).pc) (other : Nat) :
    P ((st.setPc proc pc).procs other).pc := by
  by_cases here : other = proc
  · rw [here, State.setPc_pc]
    exact new
  · rw [st.setPc_other pc here]
    exact old other

theorem State.setRef_other (rnode : RelFileNode) (ref : Option (Nat × Nat)) {other : Nat}
    (distinct : other ≠ proc) : (st.setRef proc rnode ref).procs other = st.procs other :=
  update_of_ne distinct ..

end

section
variable (st : State) (proc : Nat) (rnode : RelFileNode) (ref : Option (Nat × Nat))

@[simp] theorem State.setRef_refs :
    ((st.setRef proc rnode ref).procs proc).refs = update (st.procs proc).refs rnode ref := by
  simp [State.setRef]

@[simp] theorem State.setRef_pc (other : Nat) : ((st.setRef proc rnode ref).procs other).pc =
    (st.procs other).pc := by
  by_cases here : other = proc
  · simp [here, State.setRef]
  · rw [st.setRef_other rnode ref here]

end

theorem State.answer_cases (st : State) (proc : Nat) (task : Task) (res : Nat) (otherwise : Pc) :
    res = invalidBlockNumber ∧ st.answer proc task res otherwise = st.setPc proc otherwise ∨
      res ≠ invalidBlockNumber ∧ st.answer proc task res otherwise =
      { st.setPc proc (.finished task res) with
          answers := { rnode := task.rnode, fork := task.fork, nblocks := res } ::
          st.answers } := by
  by_cases missed : res = invalidBlockNumber
  · exact .inl ⟨missed, if_pos missed⟩
  · exact .inr ⟨missed, if_neg missed⟩

variable {before after : RelSizeCache} {idx : Nat}

theorem Pc.Sound.evolves {pc : Pc} (sound : pc.Sound before) (evolves : before.Evolves after)
    (held : ∀ rnode idx, pc.holds = some (rnode, idx) →
      after.mappings rnode = before.mappings rnode) : pc.Sound after := by
  cases pc with
  | checkRef task idx => exact RelSizeCache.Remembers.evolves sound evolves
  | reading task idx | storing task idx => exact (held task.rnode idx rfl).trans sound
  | picked | allocated => exact Nat.lt_of_lt_of_eq sound evolves.pool.symm
  | _ => trivial

variable {rnode : RelFileNode} {rsc : RelSizeCache}

section
variable (inv : Inv st)
include inv

theorem Inv.sound {pc : Pc} (here : (st.procs proc).pc = pc) : pc.Sound st.rsc :=
  here ▸ inv.pcs proc

theorem Inv.evolve (evolves : st.rsc.Evolves rsc) (matched : rsc.Matched)
    (held : ∀ proc rnode idx, (st.procs proc).pc.holds = some (rnode, idx) →
      rsc.mappings rnode = st.rsc.mappings rnode) : Inv { st with rsc := rsc } where
  positive := Nat.lt_of_lt_of_eq inv.positive evolves.pool.symm
  matched := matched
  refs := fun proc rnode idx generation remembered =>
    (inv.refs proc rnode idx generation remembered).evolves evolves
  pcs := fun proc => (inv.pcs proc).evolves evolves (held proc)

theorem Inv.evolve_same (evolves : st.rsc.Evolves rsc) (same : st.rsc.SameRelations rsc) :
    Inv { st with rsc := rsc } :=
  inv.evolve evolves (same.matched inv.matched) fun _ rnode _ _ => congrFun same.mappings rnode

theorem Inv.evolve_use (same : st.rsc.SameUse rsc) : Inv { st with rsc := rsc } :=
  inv.evolve_same same.evolves same.same

theorem Inv.setPc (proc : Nat) (pc : Pc) (sound : pc.Sound st.rsc) : Inv (st.setPc proc pc) where
  positive := inv.positive
  matched := inv.matched
  refs := fun other => by
    rw [State.setPc_refs]
    exact inv.refs other
  pcs := State.setPc_forall sound inv.pcs

theorem Inv.setRef (proc : Nat) (rnode : RelFileNode) (ref : Option (Nat × Nat))
    (sound : ∀ idx generation, ref = some (idx, generation) →
      st.rsc.Remembers rnode idx generation) : Inv (st.setRef proc rnode ref) where
  positive := inv.positive
  matched := inv.matched
  refs := by
    intro other relation idx generation remembered
    by_cases here : other = proc
    · rw [here, State.setRef_refs] at remembered
      rw [update_apply] at remembered
      split_ifs at remembered with same
      · rw [same]
        exact sound idx generation remembered
      · exact inv.refs proc relation idx generation remembered
    · rw [State.setRef_other st rnode ref here] at remembered
      exact inv.refs other relation idx generation remembered
  pcs := by
    intro other
    rw [State.setRef_pc]
    exact inv.pcs other

theorem Inv.remember (proc : Nat) (mapped : st.rsc.mappings rnode = some idx) :
    Inv ({ st with rsc := st.rsc.touch idx }.setRef proc rnode
      (some (idx, (st.rsc.entries idx).generation))) := by
  have touched := st.rsc.touch_sameUse idx
  have remembers := (inv.matched.remembers mapped).evolves touched.evolves
  apply (inv.evolve_use touched).setRef proc rnode
  intro _ _ same
  cases same
  exact remembers

theorem Inv.held_mapped (holds : (st.procs proc).pc.holds = some (rnode, idx)) :
    st.rsc.mappings rnode = some idx := by
  have sound := inv.pcs proc
  cases place : (st.procs proc).pc with
  | reading | storing =>
    rw [place] at sound holds
    cases holds
    exact sound
  | _ =>
    rw [place] at holds
    contradiction

end

theorem Exclusive.distinct {rnode held : RelFileNode} (alone : Exclusive partitionOf st rnode)
    (holds : (st.procs proc).pc.holds = some (held, idx)) : held ≠ rnode := by
  intro same
  exact alone proc held idx holds (congrArg partitionOf same)

section
variable (inv : Inv st)
include inv

theorem Inv.evict {victim : RelFileNode} (mapped : st.rsc.mappings victim = some idx)
    (alone : Exclusive partitionOf st victim) : Inv { st with rsc := st.rsc.evict idx victim } :=
  inv.evolve (st.rsc.evict_evolves idx victim) (inv.matched.evict mapped)
    fun _ _ _ holds => RelSizeCache.evict_mappings idx (alone.distinct holds)

theorem Inv.enter (inPool : idx < st.rsc.sharedRelations)
    (unused : (st.rsc.entries idx).valid = false) (alone : Exclusive partitionOf st rnode) :
    Inv { st with rsc := st.rsc.enter idx rnode } :=
  inv.evolve (RelSizeCache.enter_evolves idx rnode unused) (inv.matched.enter rnode inPool unused)
    fun _ _ _ holds => RelSizeCache.enter_mappings idx (alone.distinct holds)

theorem Inv.dropEntry (alone : Exclusive partitionOf st rnode) :
    Inv { st with rsc := st.rsc.dropEntry rnode } :=
  inv.evolve (st.rsc.dropEntry_evolves rnode) (inv.matched.dropEntry rnode)
    fun _ _ _ holds => RelSizeCache.dropEntry_mappings (alone.distinct holds)

theorem Inv.promote (alone : ∀ rnode, Exclusive partitionOf st rnode) :
    Inv { st with rsc := st.rsc.promote } := by
  have bounded : ∀ idx, (st.rsc.entries idx).valid = true → idx < st.rsc.sharedRelations :=
    fun idx valid => (inv.matched.mapped _ idx (inv.matched.valid idx valid)).1
  apply inv.evolve st.rsc.promote_evolves (RelSizeCache.Matched.promote bounded)
  intro _ rnode _ holds
  exact absurd rfl ((alone rnode).distinct holds)

end

theorem Started.inv (started : Started st) : Inv st where
  positive := started.positive
  matched := by
    constructor
    · intro rnode idx mapped
      rw [started.mappings] at mapped
      contradiction
    · intro idx valid
      rw [started.invalid] at valid
      contradiction
  refs := by
    intro proc _ _ _ remembered
    rw [started.refs] at remembered
    contradiction
  pcs := by
    intro _
    rw [started.idle]
    trivial

/-- What was stored as a size of a relation's fork. -/
def State.WasStored (st : State) (rnode : RelFileNode) (fork : ForkNumber) (nblocks : Nat) : Prop :=
  { rnode := rnode, fork := fork, nblocks := nblocks } ∈ st.stored

structure Answered (st : State) : Prop where
  inv : Inv st
  sizes : st.rsc.Sizes st.WasStored
  checked : ∀ proc, (st.procs proc).pc.Checked st.rsc fun task => st.WasStored task.rnode task.fork
  answers : ∀ answer ∈ st.answers, answer ∈ st.stored

theorem Pc.Checked.evolves {pc : Pc} {known knownAfter : Task → Nat → Prop}
    (checked : pc.Checked before known) (sound : pc.Sound before) (evolves : before.Evolves after)
    (implies : ∀ task nblocks, known task nblocks → knownAfter task nblocks) :
    pc.Checked after knownAfter := by
  cases pc with
  | checkRef task _ _ res =>
    intro same
    have unchanged := evolves.same_generation sound.reached same
    exact (checked (unchanged.symm.trans same)).imp id (implies task res)
  | _ => trivial

section
variable (answered : Answered st)
include answered

theorem Answered.evolve (inv : Inv next) (evolves : st.rsc.Evolves next.rsc)
    (sizes : next.rsc.Sizes next.WasStored) (grows : ∀ size ∈ st.stored, size ∈ next.stored)
    (procs : next.procs = st.procs) (answers : next.answers = st.answers) : Answered next where
  inv := inv
  sizes := sizes
  checked := by
    intro proc
    rw [procs]
    exact (answered.checked proc).evolves (answered.inv.pcs proc) evolves fun _ _ => grows _
  answers := by
    intro answer given
    rw [answers] at given
    exact grows answer (answered.answers answer given)

theorem Answered.evolve_use (same : st.rsc.SameUse rsc) : Answered { st with rsc := rsc } :=
  answered.evolve (answered.inv.evolve_use same) same.evolves (same.sizes answered.sizes)
  (fun _ stored => stored) rfl rfl

theorem Answered.setPc (proc : Nat) (pc : Pc) (sound : pc.Sound st.rsc)
    (checked : pc.Checked st.rsc fun task => st.WasStored task.rnode task.fork) :
    Answered (st.setPc proc pc) where
  inv := answered.inv.setPc proc pc sound
  sizes := answered.sizes
  checked := State.setPc_forall checked answered.checked
  answers := answered.answers

theorem Answered.setRef (proc : Nat) (rnode : RelFileNode) (ref : Option (Nat × Nat))
    (inv : Inv (st.setRef proc rnode ref)) : Answered (st.setRef proc rnode ref) where
  inv := inv
  sizes := answered.sizes
  checked := by
    intro other
    rw [State.setRef_pc]
    exact answered.checked other
  answers := answered.answers

theorem Answered.answer (proc : Nat) (task : Task) (res : Nat) (otherwise : Pc)
    (sound : otherwise.Sound st.rsc)
    (checked : otherwise.Checked st.rsc fun task => st.WasStored task.rnode task.fork)
    (stored : res = invalidBlockNumber ∨ st.WasStored task.rnode task.fork res) :
    Answered (st.answer proc task res otherwise) := by
  rcases st.answer_cases proc task res otherwise with ⟨_, equal⟩ | ⟨found, equal⟩
  · rw [equal]
    exact answered.setPc proc otherwise sound checked
  rw [equal]
  have moved := answered.setPc proc (.finished task res) trivial trivial
  refine { moved with inv := { moved.inv with }, answers := ?_ }
  exact forall_mem_cons.mpr ⟨stored.resolve_left found, answered.answers⟩

theorem Answered.searchByRef (proc : Nat) (task : Task) : Answered (searchByRef st proc task) := by
  unfold Access.searchByRef
  split
  · exact answered.setPc proc _ trivial trivial
  · next idx generation remembered =>
    have remembers := answered.inv.refs proc task.rnode idx generation remembered
    exact answered.setPc proc _ remembers fun same => remembers.size answered.sizes same

theorem Answered.checkGeneration {proc idx generation res : Nat}
    (here : (st.procs proc).pc = .checkRef task idx generation res) :
    Answered (checkGeneration st proc task idx generation res) := by
  unfold Access.checkGeneration
  split
  · next same =>
    have checked := answered.checked proc
    rw [here] at checked
    exact (answered.evolve_use (st.rsc.touch_sameUse idx)).answer proc task res _ trivial trivial
      (checked same)
  · have cleared := answered.setRef proc task.rnode none
      (answered.inv.setRef proc task.rnode none fun _ _ => nofun)
    exact cleared.setPc proc _ trivial trivial

section
variable (proc : Nat) (task : Task)

theorem Answered.searchByMapping : Answered (searchByMapping st proc task) := by
  unfold Access.searchByMapping
  split
  · exact answered.setPc proc _ trivial trivial
  · next idx mapped =>
    have touched := st.rsc.touch_sameUse idx
    have noted := (answered.evolve_use touched).setRef proc task.rnode
      (some (idx, (st.rsc.entries idx).generation)) (answered.inv.remember proc mapped)
    exact noted.answer proc task _ (.update task) trivial trivial
      (answered.inv.matched.size answered.sizes mapped)

theorem Answered.store (idx nblocks : Nat) (mapped : st.rsc.mappings task.rnode = some idx) :
    Answered (store st proc task idx nblocks) := by
  have moved := answered.setPc proc (.finished task nblocks) trivial trivial
  have evolves : st.rsc.Evolves (st.rsc.updateEntry idx task.fork nblocks task.known.isSome) :=
    RelSizeCache.updateEntry_evolves answered.inv.matched mapped _
  have inv := moved.inv.evolve_same evolves (st.rsc.updateEntry_same _)
  have added : ∀ rnode fork size, st.WasStored rnode fork size →
      (st.noteStored task nblocks).WasStored rnode fork size := fun _ _ _ => mem_cons_of_mem _
  have stored : (st.noteStored task nblocks).WasStored task.rnode task.fork nblocks := mem_cons_self
  unfold Access.store
  cases kind : task.known with
  | some =>
    rw [kind] at inv evolves
    exact moved.evolve { inv with } evolves
      (answered.sizes.updateEntry_extend answered.inv.matched mapped
        (fun _ _ _ _ => added _ _ _) stored) (fun _ => mem_cons_of_mem _) rfl rfl
  | none =>
    rw [kind] at inv evolves
    dsimp only
    split
    · next dirty =>
      exact moved.evolve inv evolves (answered.sizes.updateEntry_lookup answered.inv.matched mapped
        (fun _ _ _ known => known) fun clean => absurd dirty (by simp [clean]))
        (fun _ known => known) rfl rfl
    · exact moved.evolve { inv with } evolves
        (answered.sizes.updateEntry_lookup answered.inv.matched mapped added fun _ => stored)
        (fun _ => mem_cons_of_mem _) rfl rfl

theorem Answered.sweep (used random : Nat) : Answered (sweep st proc task used random) := by
  have swept := answered.evolve_use st.rsc.sweepHand_sameUse
  apply sweep_rule answered.inv.positive
  · exact fun _ _ inPool => swept.setPc proc _ inPool trivial
  · exact fun _ inPool => swept.setPc proc _ inPool trivial
  · exact swept.setPc proc _ trivial trivial

end

theorem Answered.step (step : Step partitionOf event st next) : Answered next := by
  have same : ∀ size ∈ st.stored, size ∈ st.stored := fun _ stored => stored
  cases step with
  | lookup proc rnode fork => exact answered.setPc proc _ trivial trivial
  | resize proc rnode fork nblocks =>
    have moved := answered.setPc proc
      (.resizing { rnode, fork, known := some nblocks, expected := none, stamp := 0 })
      trivial trivial
    exact { moved with inv := { moved.inv with } }
  | changeFile proc task =>
    have moved := answered.setPc proc (.update task) trivial trivial
    exact { moved with inv := { moved.inv with } }
  | searchByRef proc task => exact answered.searchByRef proc task
  | checkGeneration proc task idx _ _ here => exact answered.checkGeneration here
  | searchByMapping proc task => exact answered.searchByMapping proc task
  | findEntry proc task =>
    unfold Access.findEntry
    split
    · exact answered.setPc proc _ trivial trivial
    · next idx mapped =>
      split
      · exact answered.setPc proc _ mapped trivial
      · exact answered.setPc proc _ mapped trivial
  | readFile proc task idx here =>
    have mapped := answered.inv.sound here
    exact answered.setPc proc _ mapped trivial
  | store proc task idx nblocks here =>
      exact answered.store proc task idx nblocks (answered.inv.sound here)
  | sweep proc task used random => exact answered.sweep proc task used random
  | evictPicked proc task idx victim here alone =>
    have inPool := answered.inv.sound here
    unfold Access.evictPicked
    split
    · next mapped =>
      have evicted := answered.evolve (answered.inv.evict mapped alone)
        (st.rsc.evict_evolves idx victim) (answered.sizes.evict idx victim) same rfl rfl
      exact evicted.setPc proc _ inPool trivial
    · exact answered.setPc proc _ trivial trivial
  | enterAllocated proc task idx here alone =>
    have inPool := answered.inv.sound here
    unfold Access.enterAllocated
    split
    · exact answered.setPc proc _ trivial trivial
    · next used =>
      have unused := Bool.eq_false_iff.mpr used
      have entered := answered.evolve (answered.inv.enter inPool unused alone)
        (RelSizeCache.enter_evolves idx task.rnode unused) (answered.sizes.enter idx task.rnode)
        same rfl rfl
      exact entered.setPc proc _ trivial trivial
  | «return» proc => exact answered.setPc proc _ trivial trivial
  | drop rnode alone =>
    have dropped := answered.inv.dropEntry alone
    exact answered.evolve { dropped with } (st.rsc.dropEntry_evolves rnode)
      (answered.sizes.dropEntry rnode) same rfl rfl
  | unlink rnode fork nblocks => exact { answered with inv := { answered.inv with } }
  | promote alone =>
    exact answered.evolve (answered.inv.promote alone) st.rsc.promote_evolves answered.sizes.promote
      same rfl rfl
  | replay rnode fork nblocks =>
    rcases st.rsc.updateIfExistsAndGreaterThan_cases rnode fork nblocks with
      ⟨less, equal⟩ | ⟨idx, mapped, _, less, equal⟩
    · rw [equal, less, if_neg Bool.false_ne_true]
      exact answered
    rw [equal, if_pos less]
    have valid := (answered.inv.matched.mapped rnode idx mapped).2.1
    have evolves : st.rsc.Evolves
      (st.rsc.setEntry idx (((st.rsc.entries idx).setNblocks fork nblocks).setDirty fork)) :=
      .setEntry (SharedRelation.Evolves.of_valid rfl rfl valid valid)
    have inv := answered.inv.evolve_same evolves (RelSizeCache.SameRelations.setEntry rfl rfl)
    refine answered.evolve { inv with } evolves ?_ (fun _ => mem_cons_of_mem _) rfl rfl
    exact answered.sizes.setNblocks answered.inv.matched mapped rfl rfl
      (fun _ _ _ _ => mem_cons_of_mem _) mem_cons_self

end

theorem Started.answered (started : Started st) : Answered st where
  inv := started.inv
  sizes := by
    intro _ _ valid
    rw [started.invalid] at valid
    contradiction
  checked := by
    intro _
    rw [started.idle]
    trivial
  answers := by
    intro _ given
    rw [started.answers] at given
    contradiction

/-- Over all runs, an answer of the two searches was stored as a size of the relation, and the
mapping table and the valid entries are in bijection. -/
theorem search_answers_were_stored {start : State} (started : Started start)
    (run : Run (Step partitionOf) (fun _ _ => True) start st) :
    (∀ answer ∈ st.answers, answer ∈ st.stored) ∧
    (∀ rnode idx, st.rsc.mappings rnode = some idx ↔
      (st.rsc.entries idx).valid = true ∧ (st.rsc.entries idx).rnode = rnode) ∧
    ∀ rnode idx, st.rsc.mappings rnode = some idx → idx < st.rsc.sharedRelations := by
  have answered : Answered st := run.invariant Answered started.answered fun _ _ _ known step _ =>
    known.step step
  have matched := answered.inv.matched
  constructor
  · exact answered.answers
  constructor
  · intro rnode idx
    constructor
    · exact fun mapped => (matched.mapped rnode idx mapped).2
    · intro ⟨valid, same⟩
      rw [← same]
      exact matched.valid idx valid
  · exact fun rnode idx mapped => (matched.mapped rnode idx mapped).1

def emptyPool : RelSizeCache where
  mappings := fun _ => none
  entries := fun _ =>
    { rnode := ⟨0, 0, 0⟩, nblocks := fun _ => invalidBlockNumber, valid := false,
      dirty := fun _ => false, generation := 0, usecount := 0 }
  nextSweep := 0
  sharedRelations := 1
  poolSweepTimes := 16

def smallStart : State where
  rsc := emptyPool
  file := fun _ _ => 3
  procs := fun _ => { pc := .idle, refs := fun _ => none }
  stored := []
  answers := []
  settled := fun _ _ => none
  changes := fun _ _ => 0

theorem smallStart_started : Started smallStart :=
  ⟨fun _ => rfl, fun _ => rfl, Nat.zero_lt_one, fun _ => rfl, fun _ _ => rfl, rfl, fun _ _ => rfl⟩

theorem Exclusive.of_none {partitionOf : RelFileNode → Nat} {st : State}
    (none : ∀ proc, (st.procs proc).pc.holds = Option.none) : Exclusive partitionOf st rnode := by
  intro proc _ _ holds
  rw [none proc] at holds
  contradiction

/-- A lookup enters the relation and returns; a second lookup, next to which the relation is
extended twice at once, finds the entry. -/
theorem second_lookup_answers : ∃ st, Run (Step fun _ => 0) (fun _ _ => True) smallStart st ∧
      st.answers = [{ rnode := ⟨1, 1, 7⟩, fork := .main, nblocks := 3 }] ∧
      (∀ answer ∈ st.answers, answer ∈ st.stored) ∧ st.rsc.mappings ⟨1, 1, 7⟩ = some 0 ∧
      (st.rsc.entries 0).valid = true ∧ 0 < st.rsc.sharedRelations := by
  have none : Run (Step fun _ => 0) (fun _ _ => True) smallStart _ := .refl
  have asked := none.snoc (.lookup 0 ⟨1, 1, 7⟩ .main rfl)
  have missed := (asked.snoc (.searchByRef 0 _ rfl)).snoc (.searchByMapping 0 _ rfl)
  have swept := (missed.snoc (.findEntry 0 _ rfl)).snoc (.sweep 0 _ 0 0 rfl)
  have entered := swept.snoc (.enterAllocated 0 _ 0 rfl (Exclusive.of_none (by
    intro proc
    cases proc with
    | zero => rfl
    | succ => rfl)))
  have read := (entered.snoc (.findEntry 0 _ rfl)).snoc (.readFile 0 _ 0 rfl)
  have stored := (read.snoc (.store 0 _ 0 3 rfl)).snoc (.return 0 _ 3 rfl)
  have again := (stored.snoc (.lookup 0 ⟨1, 1, 7⟩ .main rfl)).snoc (.searchByRef 0 _ rfl)
  have extended := again.snoc (.resize 1 ⟨1, 1, 7⟩ .main 4 rfl (by decide))
  have twice := extended.snoc (.resize 2 ⟨1, 1, 7⟩ .main 5 rfl (by decide))
  have run := twice.snoc (.searchByMapping 0 _ rfl)
  obtain ⟨answers, mapped, inPool⟩ := search_answers_were_stored smallStart_started run
  exact ⟨_, run, rfl, answers, rfl, ((mapped ⟨1, 1, 7⟩ 0).mp rfl).1, inPool ⟨1, 1, 7⟩ 0 rfl⟩

end PolarDB.Rsc.Access
