import PolarDB.Rsc.Pool

/-!
# What each section keeps of the pool

A process that remembers an entry and its generation is not told when the entry is
used for another relation. `Evolves` says what it can rely on, and every section of
the source is an instance of it. The sizes in the pool satisfy a predicate on the
relation, the fork and the size, which later modules choose.
-/

namespace PolarDB.Rsc.Pool

open Function Storage

/-- As long as the generation is the same, an entry that is valid was valid for the same relation
all the time, and one that is not was dropped. -/
structure SharedRelation.Evolves (before after : SharedRelation) : Prop where
  grows : before.generation ≤ after.generation
  valid : after.generation = before.generation → after.valid = true → before.valid = true ∧
    after.rnode = before.rnode
  invalid : after.generation = before.generation → after.valid = false →
    before.valid = false ∧ after.nblocks = before.nblocks ∨ after.nblocks = fun _ =>
    invalidBlockNumber

theorem SharedRelation.Evolves.refl (entry : SharedRelation) : entry.Evolves entry where
  grows := Nat.le_refl _
  valid := fun _ valid => ⟨valid, rfl⟩
  invalid := fun _ invalid => .inl ⟨invalid, rfl⟩

variable {before after : SharedRelation} {last : RelSizeCache}

theorem SharedRelation.Evolves.of_lt (bumped : before.generation < after.generation) :
    before.Evolves after where
  grows := Nat.le_of_lt bumped
  valid := fun same => absurd same (by omega)
  invalid := fun same => absurd same (by omega)

theorem SharedRelation.Evolves.of_valid
    (generation : after.generation = before.generation) (rnode : after.rnode = before.rnode)
    (wasValid : before.valid = true) (isValid : after.valid = true) : before.Evolves after where
  grows := Nat.le_of_eq generation.symm
  valid := fun _ _ => ⟨wasValid, rnode⟩
  invalid := fun _ invalid => by simp [isValid] at invalid

theorem SharedRelation.update_same (entry : SharedRelation) (fork : ForkNumber) (nblocks : Nat)
    (isExtend : Bool) : (entry.update fork nblocks isExtend).rnode = entry.rnode ∧
      (entry.update fork nblocks isExtend).valid = entry.valid ∧
      (entry.update fork nblocks isExtend).generation = entry.generation := by
  unfold update
  split
  · exact ⟨rfl, rfl, rfl⟩
  · split <;> exact ⟨rfl, rfl, rfl⟩

theorem SharedRelation.update_dirty {fork other : ForkNumber} {nblocks : Nat}
    (entry : SharedRelation) (isExtend : Bool) (dirty : entry.dirty other = true) :
    (entry.update fork nblocks isExtend).dirty other = true := by
  unfold update
  split
  · by_cases same : other = fork
    · simp [setDirty, same]
    · simpa [setDirty, setNblocks, same] using dirty
  · split <;> exact dirty

namespace RelSizeCache

structure Evolves (before after : RelSizeCache) : Prop where
  pool : after.sharedRelations = before.sharedRelations
  entry : ∀ idx, (before.entries idx).Evolves (after.entries idx)

/-- The remembered entry and generation of a relation. -/
structure Remembers (rsc : RelSizeCache) (rnode : RelFileNode) (idx generation : Nat) : Prop where
  reached : generation ≤ (rsc.entries idx).generation
  valid : (rsc.entries idx).generation = generation → (rsc.entries idx).valid = true →
    (rsc.entries idx).rnode = rnode
  invalid : (rsc.entries idx).generation = generation → (rsc.entries idx).valid = false →
    (rsc.entries idx).nblocks = fun _ => invalidBlockNumber

def Sizes (rsc : RelSizeCache) (known : RelFileNode → ForkNumber → Nat → Prop) : Prop :=
  ∀ idx fork, (rsc.entries idx).valid = true → (rsc.entries idx).nblocks fork = invalidBlockNumber ∨
      known (rsc.entries idx).rnode fork ((rsc.entries idx).nblocks fork)

variable {rsc next : RelSizeCache} {rnode : RelFileNode} {fork : ForkNumber}
  {idx generation nblocks : Nat}
variable {known knownAfter : RelFileNode → ForkNumber → Nat → Prop}

theorem Evolves.same_generation (evolves : rsc.Evolves next)
    (reached : generation ≤ (rsc.entries idx).generation)
    (same : (next.entries idx).generation = generation) :
    (next.entries idx).generation = (rsc.entries idx).generation := by
  have grows := (evolves.entry idx).grows
  omega

theorem Remembers.evolves (remembers : rsc.Remembers rnode idx generation)
    (evolves : rsc.Evolves next) : next.Remembers rnode idx generation where
  reached := Nat.le_trans remembers.reached (evolves.entry idx).grows
  valid := by
    intro same valid
    have unchanged := evolves.same_generation remembers.reached same
    have before := (evolves.entry idx).valid unchanged valid
    rw [before.2]
    exact remembers.valid (unchanged.symm.trans same) before.1
  invalid := by
    intro same invalid
    have unchanged := evolves.same_generation remembers.reached same
    rcases (evolves.entry idx).invalid unchanged invalid with ⟨before, kept⟩ | dropped
    · rw [kept]
      exact remembers.invalid (unchanged.symm.trans same) before
    · exact dropped

theorem Matched.remembers (matched : rsc.Matched) (mapped : rsc.mappings rnode = some idx) :
    rsc.Remembers rnode idx (rsc.entries idx).generation where
  reached := Nat.le_refl _
  valid := fun _ _ => (matched.mapped rnode idx mapped).2.2
  invalid := fun _ invalid => by simp [(matched.mapped rnode idx mapped).2.1] at invalid

theorem Remembers.size (remembers : rsc.Remembers rnode idx generation) (sizes : rsc.Sizes known)
    (same : (rsc.entries idx).generation = generation) :
    (rsc.entries idx).nblocks fork = invalidBlockNumber ∨
    known rnode fork ((rsc.entries idx).nblocks fork) := by
  cases valid : (rsc.entries idx).valid with
  | true =>
    have either := sizes idx fork valid
    rwa [remembers.valid same valid] at either
  | false =>
    rw [remembers.invalid same valid]
    exact .inl rfl

theorem Matched.size (matched : rsc.Matched) (sizes : rsc.Sizes known)
    (mapped : rsc.mappings rnode = some idx) :
    (rsc.entries idx).nblocks fork = invalidBlockNumber ∨
    known rnode fork ((rsc.entries idx).nblocks fork) :=
  (matched.remembers mapped).size sizes rfl

variable {entry : SharedRelation} {other : Nat}

theorem Matched.index_unique (matched : rsc.Matched) (mapped : rsc.mappings rnode = some idx)
    (valid : (rsc.entries other).valid = true) (same : (rsc.entries other).rnode = rnode) :
    other = idx := by
  have both := matched.valid other valid
  rw [same, mapped] at both
  exact (Option.some.inj both).symm

theorem Sizes.mono (sizes : rsc.Sizes known)
    (implies : ∀ rnode fork nblocks, known rnode fork nblocks → knownAfter rnode fork nblocks) :
    rsc.Sizes knownAfter := by
  intro idx fork valid
  exact (sizes idx fork valid).imp id (implies _ _ _)

@[simp] theorem setEntry_self (rsc : RelSizeCache) (idx : Nat) (entry : SharedRelation) :
    (rsc.setEntry idx entry).entries idx = entry := by
  exact update_self ..

theorem setEntry_other (rsc : RelSizeCache) (entry : SharedRelation)
    (distinct : other ≠ idx) : (rsc.setEntry idx entry).entries other = rsc.entries other := by
  exact update_of_ne distinct ..

theorem setEntry_field {Field : Type} (field : SharedRelation → Field)
    (equal : field entry = field (rsc.entries idx))
    (other : Nat) : field ((rsc.setEntry idx entry).entries other) = field (rsc.entries other) := by
  by_cases here : other = idx
  · rw [here, setEntry_self, equal]
  · rw [setEntry_other rsc entry here]

theorem Evolves.setEntry (evolves : (rsc.entries idx).Evolves entry) :
    rsc.Evolves (rsc.setEntry idx entry) where
  pool := rfl
  entry := by
    intro other
    by_cases here : other = idx
    · rw [here, setEntry_self]
      exact evolves
    · rw [setEntry_other rsc entry here]
      exact SharedRelation.Evolves.refl _

/-- The section changes no mapping, validity or identity. -/
structure SameRelations (before after : RelSizeCache) : Prop where
  pool : after.sharedRelations = before.sharedRelations
  mappings : after.mappings = before.mappings
  valid : ∀ idx, (after.entries idx).valid = (before.entries idx).valid
  rnode : ∀ idx, (after.entries idx).rnode = (before.entries idx).rnode

theorem SameRelations.matched (same : rsc.SameRelations next) (matched : rsc.Matched) :
    next.Matched where
  mapped := by
    intro rnode idx mapped
    rw [same.mappings] at mapped
    rw [same.pool, same.valid, same.rnode]
    exact matched.mapped rnode idx mapped
  valid := by
    intro idx valid
    rw [same.valid] at valid
    rw [same.mappings, same.rnode]
    exact matched.valid idx valid

theorem SameRelations.setEntry (valid : entry.valid = (rsc.entries idx).valid)
    (sameNode : entry.rnode = (rsc.entries idx).rnode) :
    rsc.SameRelations (rsc.setEntry idx entry) where
  pool := rfl
  mappings := rfl
  valid := setEntry_field (·.valid) valid
  rnode := setEntry_field (·.rnode) sameNode

theorem SameRelations.trans (first : rsc.SameRelations next)
    (second : next.SameRelations last) : rsc.SameRelations last where
  pool := second.pool.trans first.pool
  mappings := second.mappings.trans first.mappings
  valid := fun idx => (second.valid idx).trans (first.valid idx)
  rnode := fun idx => (second.rnode idx).trans (first.rnode idx)

/-- Nothing but use counts and the clock hand differ. -/
structure SameUse (before after : RelSizeCache) : Prop where
  same : before.SameRelations after
  nblocks : ∀ idx, (after.entries idx).nblocks = (before.entries idx).nblocks
  dirty : ∀ idx, (after.entries idx).dirty = (before.entries idx).dirty
  generation : ∀ idx, (after.entries idx).generation = (before.entries idx).generation

theorem SameUse.refl (rsc : RelSizeCache) : rsc.SameUse rsc :=
  ⟨⟨rfl, rfl, fun _ => rfl, fun _ => rfl⟩, fun _ => rfl, fun _ => rfl, fun _ => rfl⟩

theorem SameUse.setUsecount (rsc : RelSizeCache) (idx : Nat) (usecount : Int) :
    rsc.SameUse (rsc.setEntry idx { rsc.entries idx with usecount := usecount }) :=
  ⟨.setEntry rfl rfl, setEntry_field (·.nblocks) rfl, setEntry_field (·.dirty) rfl,
    setEntry_field (·.generation) rfl⟩

theorem SameUse.evolves (same : rsc.SameUse next) : rsc.Evolves next where
  pool := same.same.pool
  entry := by
    intro idx
    constructor
    · exact Nat.le_of_eq (same.generation idx).symm
    · intro _ valid
      exact ⟨(same.same.valid idx).symm.trans valid, same.same.rnode idx⟩
    · intro _ invalid
      exact .inl ⟨(same.same.valid idx).symm.trans invalid, same.nblocks idx⟩

theorem SameUse.sizes (same : rsc.SameUse next) (sizes : rsc.Sizes known) : next.Sizes known := by
  intro idx fork valid
  rw [same.nblocks, same.same.rnode]
  rw [same.same.valid] at valid
  exact sizes idx fork valid

theorem touch_sameUse (rsc : RelSizeCache) (idx : Nat) : rsc.SameUse (rsc.touch idx) := by
  unfold touch
  split
  · exact SameUse.setUsecount rsc idx _
  · exact SameUse.refl rsc

theorem sweepHand_sameUse (rsc : RelSizeCache) : rsc.SameUse rsc.sweepHand.2 := by
  have same := SameUse.setUsecount rsc (rsc.nextSweep % rsc.sharedRelations)
    ((rsc.entries (rsc.nextSweep % rsc.sharedRelations)).usecount - 1)
  exact { same with same := ⟨same.same.pool, same.same.mappings, same.same.valid, same.same.rnode⟩ }

theorem Sizes.setNblocks (sizes : rsc.Sizes known) (matched : rsc.Matched)
    (mapped : rsc.mappings rnode = some idx) (sameNode : entry.rnode = (rsc.entries idx).rnode)
    (written : entry.nblocks = update (rsc.entries idx).nblocks fork nblocks)
    (others : ∀ other otherFork size, (other = rnode → otherFork ≠ fork) →
      known other otherFork size → knownAfter other otherFork size)
    (stored : knownAfter rnode fork nblocks) : (rsc.setEntry idx entry).Sizes knownAfter := by
  have found := matched.mapped rnode idx mapped
  intro other otherFork valid
  by_cases here : other = idx
  · rw [here, setEntry_self, sameNode, written, found.2.2]
    rw [update_apply]
    split_ifs with sameFork
    · rw [sameFork]
      exact .inr stored
    · have either := sizes idx otherFork found.2.1
      rw [found.2.2] at either
      exact either.imp id (others rnode otherFork _ fun _ => sameFork)
  · rw [setEntry_other rsc entry here] at valid ⊢
    have distinct : (rsc.entries other).rnode ≠ rnode := fun same =>
      here (matched.index_unique mapped valid same)
    exact (sizes other otherFork valid).imp id
      (others _ otherFork _ fun same => absurd same distinct)

theorem updateEntry_same (rsc : RelSizeCache) (isExtend : Bool) :
    rsc.SameRelations (rsc.updateEntry idx fork nblocks isExtend) := by
  have updated := (rsc.entries idx).update_same fork nblocks isExtend
  have first :
    rsc.SameRelations (rsc.setEntry idx ((rsc.entries idx).update fork nblocks isExtend)) :=
    SameRelations.setEntry updated.2.1 updated.1
  exact first.trans (touch_sameUse _ idx).same

theorem Evolves.trans (first : rsc.Evolves next) (second : next.SameUse last) :
    rsc.Evolves last where
  pool := second.same.pool.trans first.pool
  entry := by
    intro idx
    have before := first.entry idx
    constructor
    · rw [second.generation]
      exact before.grows
    · rw [second.generation, second.same.valid, second.same.rnode]
      exact before.valid
    · rw [second.generation, second.same.valid, second.nblocks]
      exact before.invalid

theorem updateEntry_evolves (matched : rsc.Matched) (mapped : rsc.mappings rnode = some idx)
    (isExtend : Bool) : rsc.Evolves (rsc.updateEntry idx fork nblocks isExtend) := by
  have valid := (matched.mapped rnode idx mapped).2.1
  have updated := (rsc.entries idx).update_same fork nblocks isExtend
  have first : rsc.Evolves (rsc.setEntry idx ((rsc.entries idx).update fork nblocks isExtend)) :=
    Evolves.setEntry (.of_valid updated.2.2 updated.1 valid (updated.2.1.trans valid))
  exact first.trans (touch_sameUse _ idx)

theorem setEntry_dirty (keeps : (rsc.entries idx).dirty fork = true → entry.dirty fork = true)
    (dirty : (rsc.entries other).dirty fork = true) :
    ((rsc.setEntry idx entry).entries other).dirty fork = true := by
  by_cases here : other = idx
  · rw [here, setEntry_self]
    rw [here] at dirty
    exact keeps dirty
  · rw [setEntry_other rsc entry here]
    exact dirty

theorem updateEntry_dirty (rsc : RelSizeCache) (isExtend : Bool) {otherFork : ForkNumber}
    (dirty : (rsc.entries other).dirty otherFork = true) :
    ((rsc.updateEntry idx fork nblocks isExtend).entries other).dirty otherFork = true := by
  unfold updateEntry
  rw [(touch_sameUse _ idx).dirty]
  exact setEntry_dirty (SharedRelation.update_dirty _ isExtend) dirty

theorem updateEntry_extend_dirty (rsc : RelSizeCache) :
    ((rsc.updateEntry idx fork nblocks true).entries idx).dirty fork = true := by
  unfold updateEntry
  rw [(touch_sameUse _ idx).dirty, setEntry_self]
  simp [SharedRelation.update, SharedRelation.setDirty]

section
variable (sizes : rsc.Sizes known) (matched : rsc.Matched) (mapped : rsc.mappings rnode = some idx)
include sizes matched mapped

theorem Sizes.updateEntry_extend
    (others : ∀ other otherFork size, (other = rnode → otherFork ≠ fork) →
      known other otherFork size → knownAfter other otherFork size)
    (stored : knownAfter rnode fork nblocks) :
    (rsc.updateEntry idx fork nblocks true).Sizes knownAfter :=
  (touch_sameUse _ idx).sizes (sizes.setNblocks matched mapped rfl rfl others stored)

theorem Sizes.updateEntry_lookup
    (implies : ∀ rnode fork nblocks, known rnode fork nblocks → knownAfter rnode fork nblocks)
    (stored : (rsc.entries idx).dirty fork = false → knownAfter rnode fork nblocks) :
    (rsc.updateEntry idx fork nblocks false).Sizes knownAfter := by
  apply (touch_sameUse _ idx).sizes
  unfold SharedRelation.update
  rw [if_neg Bool.false_ne_true]
  split
  · next dirty =>
    have unchanged : rsc.setEntry idx (rsc.entries idx) = rsc := by
      simp only [setEntry, update_eq_self]
    rw [unchanged]
    exact sizes.mono implies
  · next clean =>
    exact sizes.setNblocks matched mapped rfl rfl (fun _ _ _ _ => implies _ _ _)
      (stored (Bool.eq_false_iff.mpr clean))

end

theorem updateIfExistsAndGreaterThan_cases (rsc : RelSizeCache) (rnode : RelFileNode)
    (fork : ForkNumber) (nblocks : Nat) :
    rsc.cachesLess rnode fork nblocks = false ∧ rsc.updateIfExistsAndGreaterThan rnode fork
      nblocks = rsc ∨ ∃ idx, rsc.mappings rnode = some idx ∧ (rsc.entries idx).nblocks fork <
        nblocks ∧ rsc.cachesLess rnode fork nblocks = true ∧
        rsc.updateIfExistsAndGreaterThan rnode fork nblocks =
          rsc.setEntry idx (((rsc.entries idx).setNblocks fork nblocks).setDirty fork) := by
  unfold updateIfExistsAndGreaterThan cachesLess
  cases mapped : rsc.mappings rnode with
  | none => exact .inl ⟨rfl, rfl⟩
  | some idx =>
    by_cases less : (rsc.entries idx).nblocks fork < nblocks
    · simp only [if_pos less]
      exact .inr ⟨idx, rfl, less, decide_eq_true less, rfl⟩
    · simp only [if_neg less]
      exact .inl ⟨decide_eq_false less, trivial⟩

theorem Matched.raise (matched : rsc.Matched) (rnode : RelFileNode) (fork : ForkNumber)
    (nblocks : Nat) : (rsc.updateIfExistsAndGreaterThan rnode fork nblocks).Matched := by
  rcases rsc.updateIfExistsAndGreaterThan_cases rnode fork nblocks with ⟨_, equal⟩ | ⟨idx, _, _,
    _, equal⟩
  · rw [equal]
    exact matched
  · rw [equal]
    have same : rsc.SameRelations
        (rsc.setEntry idx (((rsc.entries idx).setNblocks fork nblocks).setDirty fork)) :=
      SameRelations.setEntry rfl rfl
    exact same.matched matched

theorem Evolves.with_mappings {mappings : RelFileNode → Option Nat} (evolves : rsc.Evolves next) :
    rsc.Evolves { next with mappings := mappings } :=
  ⟨evolves.pool, evolves.entry⟩

theorem evict_evolves (rsc : RelSizeCache) (idx : Nat) (rnode : RelFileNode) :
    rsc.Evolves (rsc.evict idx rnode) :=
  (Evolves.setEntry (SharedRelation.Evolves.of_lt (Nat.lt_succ_self _))).with_mappings

theorem dropEntry_evolves (rsc : RelSizeCache) (rnode : RelFileNode) :
    rsc.Evolves (rsc.dropEntry rnode) := by
  unfold dropEntry
  split
  · exact ⟨rfl, fun idx => SharedRelation.Evolves.refl _⟩
  · next idx mapped =>
    have dropped : (rsc.entries idx).Evolves { (rsc.entries idx).forget with
        valid := false, usecount := 0 } :=
      ⟨Nat.le_refl _, nofun, fun _ _ => .inr rfl⟩
    exact (Evolves.setEntry dropped).with_mappings

theorem enter_evolves (idx : Nat) (rnode : RelFileNode)
    (unused : (rsc.entries idx).valid = false) : rsc.Evolves (rsc.enter idx rnode) := by
  unfold enter
  split
  · exact Evolves.setEntry ⟨Nat.le_refl _, nofun, fun _ _ => .inl ⟨unused, rfl⟩⟩
  · exact (Evolves.setEntry (SharedRelation.Evolves.of_lt (Nat.lt_succ_self _))).with_mappings

theorem promote_evolves (rsc : RelSizeCache) : rsc.Evolves rsc.promote where
  pool := rfl
  entry := by
    intro _
    unfold promote
    dsimp only
    split
    · exact SharedRelation.Evolves.of_lt (Nat.lt_succ_self _)
    · exact SharedRelation.Evolves.refl _

section
variable (matched : rsc.Matched)
include matched

theorem Matched.remove (mapped : rsc.mappings rnode = some idx) (invalid : entry.valid = false) :
    { rsc.setEntry idx entry with mappings := update rsc.mappings rnode none }.Matched where
  mapped := by
    intro other found mappedOther
    dsimp only at mappedOther ⊢
    have distinct : other ≠ rnode := by
      intro same
      rw [same, update_self] at mappedOther
      contradiction
    rw [update_of_ne distinct] at mappedOther
    have before := matched.mapped other found mappedOther
    have elsewhere : found ≠ idx := by
      intro same
      rw [same, (matched.mapped rnode idx mapped).2.2] at before
      exact distinct before.2.2.symm
    rw [setEntry_other rsc entry elsewhere]
    exact before
  valid := by
    intro found valid
    dsimp only at valid ⊢
    have elsewhere : found ≠ idx := by
      intro same
      rw [same, setEntry_self, invalid] at valid
      contradiction
    rw [setEntry_other rsc entry elsewhere] at valid ⊢
    have distinct : (rsc.entries found).rnode ≠ rnode := fun same =>
      elsewhere (matched.index_unique mapped valid same)
    rw [update_of_ne distinct]
    exact matched.valid found valid

theorem Matched.evict (mapped : rsc.mappings rnode = some idx) : (rsc.evict idx rnode).Matched :=
  matched.remove mapped rfl

theorem Matched.dropEntry (rnode : RelFileNode) : (rsc.dropEntry rnode).Matched := by
  unfold RelSizeCache.dropEntry
  split
  · exact matched
  · next idx mapped => exact matched.remove mapped rfl

theorem Matched.enter (rnode : RelFileNode) (inPool : idx < rsc.sharedRelations)
    (unused : (rsc.entries idx).valid = false) : (rsc.enter idx rnode).Matched := by
  unfold RelSizeCache.enter
  split
  · have same : rsc.SameRelations
        (rsc.setEntry idx { rsc.entries idx with valid := false, dirty := fun _ => false }) :=
      SameRelations.setEntry unused.symm rfl
    exact same.matched matched
  next absent =>
  -- No relation is mapped to the unused entry, and the new one was not mapped.
  have elsewhere : ∀ other found, rsc.mappings other = some found → found ≠ idx := by
    intro other found mapped same
    have before := (matched.mapped other found mapped).2.1
    rw [same, unused] at before
    contradiction
  constructor
  · intro other found mapped
    dsimp only at mapped ⊢
    rw [update_apply] at mapped
    split_ifs at mapped with same
    · rw [← Option.some.inj mapped, setEntry_self, same]
      exact ⟨inPool, rfl, rfl⟩
    · rw [setEntry_other rsc _ (elsewhere other found mapped)]
      exact matched.mapped other found mapped
  · intro found valid
    dsimp only at valid ⊢
    by_cases here : found = idx
    · rw [here, setEntry_self, update_self]
    rw [setEntry_other rsc _ here] at valid ⊢
    have before := matched.valid found valid
    have distinct : (rsc.entries found).rnode ≠ rnode := by
      intro same
      rw [same, absent] at before
      contradiction
    rw [update_of_ne distinct]
    exact before

end

theorem Matched.promote (bounded : ∀ idx, (rsc.entries idx).valid = true →
    idx < rsc.sharedRelations) : rsc.promote.Matched where
  mapped := fun _ _ mapped => nomatch mapped
  valid := by
    intro idx valid
    unfold RelSizeCache.promote at valid
    dsimp only at valid
    split at valid
    · contradiction
    · next outside => exact absurd (bounded idx valid) outside

section
variable (sizes : rsc.Sizes known)
include sizes

theorem Sizes.setEntry (empty : entry.valid = true → entry.nblocks = fun _ => invalidBlockNumber) :
    (rsc.setEntry idx entry).Sizes known := by
  intro other fork valid
  by_cases here : other = idx
  · rw [here, setEntry_self] at valid ⊢
    rw [empty valid]
    exact .inl rfl
  · rw [setEntry_other rsc entry here] at valid ⊢
    exact sizes other fork valid

theorem Sizes.evict (idx : Nat) (rnode : RelFileNode) : (rsc.evict idx rnode).Sizes known :=
  sizes.setEntry nofun

theorem Sizes.dropEntry (rnode : RelFileNode) : (rsc.dropEntry rnode).Sizes known := by
  unfold RelSizeCache.dropEntry
  split
  · exact sizes
  · exact sizes.setEntry nofun

theorem Sizes.enter (idx : Nat) (rnode : RelFileNode) : (rsc.enter idx rnode).Sizes known := by
  unfold RelSizeCache.enter
  split
  · exact sizes.setEntry nofun
  · exact sizes.setEntry fun _ => rfl

theorem Sizes.promote : rsc.promote.Sizes known := by
  intro idx fork valid
  unfold RelSizeCache.promote at valid ⊢
  dsimp only at valid ⊢
  split at valid
  · contradiction
  · next outside =>
    rw [if_neg outside]
    exact sizes idx fork valid

end

theorem evict_mappings (idx : Nat) {other : RelFileNode} (distinct : other ≠ rnode) :
    (rsc.evict idx rnode).mappings other = rsc.mappings other := by
  exact update_of_ne distinct ..

theorem dropEntry_mappings {other : RelFileNode} (distinct : other ≠ rnode) :
    (rsc.dropEntry rnode).mappings other = rsc.mappings other := by
  unfold dropEntry
  split
  · rfl
  · exact update_of_ne distinct ..

theorem enter_mappings (idx : Nat) {other : RelFileNode} (distinct : other ≠ rnode) :
    (rsc.enter idx rnode).mappings other = rsc.mappings other := by
  unfold enter
  split
  · rfl
  · exact update_of_ne distinct ..

theorem enter_other (rnode : RelFileNode) (distinct : other ≠ idx) :
    (rsc.enter idx rnode).entries other = rsc.entries other := by
  unfold enter
  split
  · exact setEntry_other rsc _ distinct
  · exact setEntry_other rsc _ distinct

theorem dropEntry_dirty (rnode : RelFileNode) (dirty : (rsc.entries other).dirty fork = true) :
    ((rsc.dropEntry rnode).entries other).dirty fork = true := by
  unfold dropEntry
  split
  · exact dirty
  · exact setEntry_dirty id dirty

end RelSizeCache

end PolarDB.Rsc.Pool
