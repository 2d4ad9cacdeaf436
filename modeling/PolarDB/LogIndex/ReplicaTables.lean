import PolarDB.LogIndex.PageIterExact

/-!
# Tables of a replica that the primary has saved

`log_index_update_replica_table_state` of `polar_logindex.c`. A replica adds to its
memory tables as the primary does and learns the last table the primary saved from the
meta file. It walks the ring backwards from the slot of that table, drops the bloom
pages of saved tables and marks these as flushed. The walk ends at the first slot that
is not inactive, so it does nothing when the replica still adds to that table.
-/

namespace PolarDB.LogIndex

open Function

variable {Tag : Type}

/-- The memory tables, and the bloom pages given to `polar_slru_invalid_page`. -/
structure ReplicaTables (Tag : Type) where
  memTable : Nat → LogMemTable Tag
  invalidPages : List Nat

/-- Inactive, and not newer than the last table the primary saved. -/
def Outdated (maxSavedTid : Nat) (table : LogMemTable Tag) : Prop :=
  table.state = .inactive ∧ table.data.idxTableId ≤ maxSavedTid
  deriving Decidable

/-- The body of the loop under the lock of the table. -/
def flushOutdated (maxSavedTid : Nat) (tables : ReplicaTables Tag) (mid : Nat) :
    ReplicaTables Tag :=
  if Outdated maxSavedTid (tables.memTable mid) then
    ⟨update tables.memTable mid (setState (tables.memTable mid) .flushed),
      bloomPageNo (tables.memTable mid).data.idxTableId :: tables.invalidPages⟩
  else tables

/-- The loop, which the test against its first slot ends after one turn of the ring. -/
def updateTables (cfg : Config Tag) (maxSavedTid startMid : Nat) : Nat → Nat → ReplicaTables Tag →
    ReplicaTables Tag
  | 0, _, tables => tables
  | rounds + 1, mid, tables =>
    if (tables.memTable mid).state = .inactive then
      let flushed := flushOutdated maxSavedTid tables mid
      if prevSlot cfg mid = startMid then flushed
      else updateTables cfg maxSavedTid startMid rounds (prevSlot cfg mid) flushed
    else tables

/-- `log_index_update_replica_table_state`. -/
def logIndexUpdateReplicaTableState (cfg : Config Tag) (memTable : Nat → LogMemTable Tag)
    (maxSavedTid : Nat) : ReplicaTables Tag :=
  if maxSavedTid = 0 then ⟨memTable, []⟩
  else
    let startMid := slotOf cfg maxSavedTid
    updateTables cfg maxSavedTid startMid cfg.memTblSize startMid ⟨memTable, []⟩

/-- A walk of at most `rounds` slots back from `mid` gets to `slot` over inactive slots only. -/
def Reaches (cfg : Config Tag) (memTable : Nat → LogMemTable Tag) (rounds mid slot : Nat) : Prop :=
  ∃ count < rounds, (prevSlot cfg)^[count] mid = slot ∧
    ∀ i ≤ count, (memTable ((prevSlot cfg)^[i] mid)).state = .inactive

/-- What the update is for: every outdated table is flushed and its bloom page dropped,
newer tables and the active one stay as they are. -/
structure TablesUpdated (cfg : Config Tag) (maxSavedTid : Nat) (before : Nat → LogMemTable Tag)
    (after : ReplicaTables Tag) : Prop where
  flushed : ∀ slot < cfg.memTblSize, Outdated maxSavedTid (before slot) →
    (after.memTable slot).state = .flushed ∧ bloomPageNo (before slot).data.idxTableId ∈
    after.invalidPages
  kept : ∀ slot, maxSavedTid < (before slot).data.idxTableId ∨ (before slot).state = .active →
    after.memTable slot = before slot

section Walk
variable {cfg : Config Tag} {maxSavedTid startMid mid rounds : Nat} {tables : ReplicaTables Tag}

theorem iterate_prev_slot (inside : mid < cfg.memTblSize) {count : Nat}
    (bounded : count ≤ cfg.memTblSize) : (prevSlot cfg)^[count] mid = if count ≤ mid then mid -
    count else mid + cfg.memTblSize - count := by
  induction count with
  | zero => simp
  | succ count ih =>
    rw [iterate_succ_apply', ih (by omega), prevSlot]
    split_ifs <;> omega

theorem prev_slot_lt (inside : mid < cfg.memTblSize) : prevSlot cfg mid < cfg.memTblSize := by
  rw [prevSlot]
  split_ifs <;> omega

theorem reaches_succ {memTable flushed : Nat → LogMemTable Tag} {slot : Nat}
    (inactive : (memTable mid).state = .inactive)
    (same : ∀ count < rounds, flushed ((prevSlot cfg)^[count + 1] mid) = memTable
      ((prevSlot cfg)^[count + 1] mid)) :
    Reaches cfg memTable (rounds + 1) mid slot ↔ slot = mid ∨
    Reaches cfg flushed rounds (prevSlot cfg mid) slot := by
  constructor
  · rintro ⟨_ | count, within, rfl, back⟩
    · exact .inl rfl
    · refine .inr ⟨count, by omega, rfl, fun i le => ?_⟩
      rw [← iterate_succ_apply, same i (by omega)]
      exact back (i + 1) (by omega)
  · rintro (rfl | ⟨count, within, rfl, back⟩)
    · exact ⟨0, by omega, rfl, fun i le => by rwa [Nat.le_zero.mp le]⟩
    · refine ⟨count + 1, by omega, rfl, ?_⟩
      rintro (_ | i) le
      · exact inactive
      · rw [← same i (by omega)]
        exact back i (by omega)

theorem flush_outdated_spec (slot : Nat) : (flushOutdated maxSavedTid tables mid).memTable slot =
    if slot = mid ∧ Outdated maxSavedTid (tables.memTable slot) then setState
    (tables.memTable slot) .flushed else tables.memTable slot := by
  by_cases here : slot = mid
  · subst here
    by_cases outdated : Outdated maxSavedTid (tables.memTable slot) <;>
      simp [flushOutdated, outdated]
  · by_cases outdated : Outdated maxSavedTid (tables.memTable mid) <;>
      simp [flushOutdated, outdated, here]

/-- What the loop leaves: the outdated tables it reaches are flushed, all others stay. -/
structure RingWalked (cfg : Config Tag) (maxSavedTid rounds mid : Nat)
    (before after : ReplicaTables Tag) : Prop where
  reached : ∀ slot, Reaches cfg before.memTable rounds mid slot →
    Outdated maxSavedTid (before.memTable slot) →
    (after.memTable slot).state = .flushed ∧ bloomPageNo (before.memTable slot).data.idxTableId ∈
    after.invalidPages
  kept : ∀ slot, ¬(Reaches cfg before.memTable rounds mid slot ∧
    Outdated maxSavedTid (before.memTable slot)) → after.memTable slot = before.memTable slot
  pages : before.invalidPages ⊆ after.invalidPages

theorem RingWalked.cons {after : ReplicaTables Tag} (inside : mid < cfg.memTblSize)
    (bounded : rounds < cfg.memTblSize) (inactive : (tables.memTable mid).state = .inactive)
    (walked : RingWalked cfg maxSavedTid rounds (prevSlot cfg mid)
      (flushOutdated maxSavedTid tables mid) after) :
    RingWalked cfg maxSavedTid (rounds + 1) mid tables after := by
  -- the walk does not meet its first slot again within one turn
  have apart : ∀ count < rounds, (prevSlot cfg)^[count + 1] mid ≠ mid := by
    intro count within
    rw [iterate_prev_slot inside (by omega)]
    split_ifs <;> omega
  have other {slot : Nat} (ne : slot ≠ mid) :
      (flushOutdated maxSavedTid tables mid).memTable slot = tables.memTable slot := by
    rw [flush_outdated_spec, if_neg fun here => ne here.1]
  have reaches {slot : Nat} : Reaches cfg tables.memTable (rounds + 1) mid slot ↔ _ :=
    reaches_succ inactive fun count within => other (apart count within)
  have here : after.memTable mid = (flushOutdated maxSavedTid tables mid).memTable mid :=
    walked.kept mid fun ⟨⟨count, within, back, _⟩, _⟩ => apart count within back
  refine ⟨fun slot reached outdated => ?_, fun slot missed => ?_, ?_⟩
  · by_cases isMid : slot = mid
    · subst isMid
      rw [here, flush_outdated_spec, if_pos ⟨rfl, outdated⟩]
      exact ⟨rfl, walked.pages (by simp [flushOutdated, outdated])⟩
    · have reached := (reaches.mp reached).resolve_left isMid
      rw [← other isMid] at outdated ⊢
      exact walked.reached slot reached outdated
  · by_cases isMid : slot = mid
    · subst isMid
      rw [here, flush_outdated_spec, if_neg fun outdated => missed ⟨reaches.mpr (.inl rfl),
        outdated.2⟩]
    · rw [← other isMid]
      refine walked.kept slot fun ⟨reached, outdated⟩ => missed ⟨reaches.mpr (.inr reached), ?_⟩
      rwa [other isMid] at outdated
  · refine fun page known => walked.pages ?_
    unfold flushOutdated
    split <;> simp [known]

theorem RingWalked.refl (ended : rounds = 0 ∨ (tables.memTable mid).state ≠ .inactive) :
    RingWalked cfg maxSavedTid rounds mid tables tables := by
  refine ⟨fun slot ⟨count, within, _, back⟩ => ?_, fun _ _ => rfl, List.Subset.refl _⟩
  rcases ended with rfl | ended
  · omega
  · exact (ended (back 0 (Nat.zero_le _))).elim

theorem update_tables_walked (inside : mid < cfg.memTblSize) (bounded : rounds ≤ cfg.memTblSize)
    (ring : (prevSlot cfg)^[rounds] mid = startMid) :
    RingWalked cfg maxSavedTid rounds mid tables
    (updateTables cfg maxSavedTid startMid rounds mid tables) := by
  induction rounds generalizing mid tables with
  | zero => exact .refl (.inl rfl)
  | succ rounds ih =>
    rw [updateTables]
    split_ifs with inactive back
    · -- the walk is back at its first slot in its last round only
      have last : rounds = 0 := by
        by_contra more
        rw [iterate_succ_apply, back] at ring
        rw [← back, iterate_prev_slot (prev_slot_lt inside) (by omega)] at ring
        split_ifs at ring <;> omega
      subst last
      exact .cons inside bounded inactive (.refl (.inl rfl))
    · exact .cons inside bounded inactive (ih (prev_slot_lt inside) (by omega) ring)
    · exact .refl (.inr inactive)

theorem RingWalked.updated_iff {memTable : Nat → LogMemTable Tag} {after : ReplicaTables Tag}
    (walked : RingWalked cfg maxSavedTid rounds mid ⟨memTable, []⟩ after) :
    TablesUpdated cfg maxSavedTid memTable after ↔
      ∀ slot < cfg.memTblSize, Outdated maxSavedTid (memTable slot) →
      Reaches cfg memTable rounds mid slot := by
  refine ⟨fun updated slot inside outdated => ?_, fun all => ⟨fun slot inside outdated => ?_,
    fun slot other => ?_⟩⟩
  · by_contra missed
    have flushed := (updated.flushed slot inside outdated).1
    rw [walked.kept slot fun both => missed both.1, outdated.1] at flushed
    cases flushed
  · exact walked.reached slot (all slot inside outdated) outdated
  · refine walked.kept slot fun ⟨_, inactive, older⟩ => ?_
    rcases other with newer | active
    · exact (older.trans_lt newer).false
    · cases inactive.symm.trans active

end Walk

theorem replica_table_state_updated_iff (cfg : Config Tag) (memTable : Nat → LogMemTable Tag)
    (maxSavedTid : Nat) :
    TablesUpdated cfg maxSavedTid memTable
        (logIndexUpdateReplicaTableState cfg memTable maxSavedTid) ↔
      ∀ slot < cfg.memTblSize, Outdated maxSavedTid (memTable slot) → maxSavedTid ≠ 0 ∧
        Reaches cfg memTable cfg.memTblSize (slotOf cfg maxSavedTid) slot := by
  unfold logIndexUpdateReplicaTableState
  split_ifs with none
  · have walked : RingWalked cfg maxSavedTid 0 0 ⟨memTable, []⟩ ⟨memTable, []⟩ := .refl (.inl rfl)
    simpa [Reaches, none] using walked.updated_iff
  · have start := slot_of_lt cfg maxSavedTid
    have ring : (prevSlot cfg)^[cfg.memTblSize] (slotOf cfg maxSavedTid) =
      slotOf cfg maxSavedTid := by
      rw [iterate_prev_slot start le_rfl]
      split_ifs <;> omega
    simpa only [ne_eq, none, not_false_eq_true, true_and] using
      (update_tables_walked start le_rfl ring).updated_iff

/-- Three records that each open a table of the smallest ring; the primary has saved the
third table while the replica still adds to it. -/
theorem inactive_tables_missed : ∃ st : RunState Nat, Run smallConfig .start st ∧
    ¬TablesUpdated smallConfig 3 st.snap.memTable
    (logIndexUpdateReplicaTableState smallConfig st.snap.memTable 3) := by
  have start : Run smallConfig .start .start := .refl
  have waits :=
    start.tail (.add _ ⟨1, 2 ^ 32, 0⟩ _ _ rfl ⟨by decide, by decide, by decide, by decide⟩ rfl)
  have first := waits.tail (.resume _ _ false _ _ rfl rfl)
  have waits := first.tail
    (.add _ ⟨1, 2 ^ 33, 2 ^ 32⟩ _ _ rfl ⟨by decide, by decide, by decide, by decide⟩ rfl)
  have second := waits.tail (.resume _ _ false _ _ rfl rfl)
  have waits := second.tail
    (.add _ ⟨1, 2 ^ 34, 2 ^ 33⟩ _ _ rfl ⟨by decide, by decide, by decide, by decide⟩ rfl)
  have third := waits.tail (.resume _ _ false _ _ rfl rfl)
  refine ⟨_, third, fun updated => ?_⟩
  cases (updated.flushed 0 (by decide) ⟨rfl, by decide⟩).1

end PolarDB.LogIndex
