import PolarDB.RingBuf.RunExact

/-!
# Waiting for free space

`polar_ringbuf_free_up` moves the read position of the ring to the least cursor and
evicts weak references that hold it back, round by round. It never gets beyond the
foremost cursor, and it waits for more free bytes than the guard of the reservation
asks for.
-/

namespace PolarDB.RingBuf

open Function

/-- The loop of `polar_ringbuf_free_up`, if it returns within `rounds` rounds. -/
def freeUp (len : Nat) : Nat → Ringbuf → Option Ringbuf
  | 0, _ => none
  | rounds + 1, rbuf =>
    match freeUpRound rbuf len with
    | (after, true) => some after
    | (after, false) => freeUp len rounds after

/-- The free size with the read position of a slot for that of the ring. -/
def freeBehind (rbuf : Ringbuf) (slot : Nat) : Int :=
  freeSize { rbuf with pread := (rbuf.slot slot).pread }

/-- The read position of the ring or of a reference leaves more than `len` bytes. -/
def Obtainable (rbuf : Ringbuf) (len : Nat) : Prop :=
  freeSize rbuf > len ∨ ∃ slot, rbuf.occupied slot = true ∧ freeBehind rbuf slot > len

def Consumed (rbuf : Ringbuf) : Prop :=
  ∀ slot, rbuf.occupied slot = true → (rbuf.slot slot).strong = true →
  (rbuf.slot slot).pread = rbuf.pwrite

/-- The loop returns, and then the guard of the reservation holds. -/
def Returns (len : Nat) (rbuf : Ringbuf) : Prop :=
  ∃ rounds after, freeUp len rounds rbuf = some after ∧ freeSize after ≥ len

/-- The read position of the ring is that of the least reference. -/
def Unmoved (rbuf : Ringbuf) : Prop :=
  ∀ best, leastVisitSlot rbuf (fun _ => true) = some best → rbuf.minVisit = (rbuf.slot best).visit

variable {rbuf : Ringbuf} {st : RunState} {least len : Nat}

/-- What a round leaves: the same ring, the ring with the read position of a slot, or without a
slot. -/
theorem free_up_round_cases (rbuf : Ringbuf) (len : Nat) :
    sizeT (freeSize rbuf) > len ∧ freeUpRound rbuf len = (rbuf, true) ∨
      ¬ sizeT (freeSize rbuf) > len ∧
        ((∃ best, leastVisitSlot rbuf (fun _ => true) = some best ∧
          rbuf.minVisit ≠ (rbuf.slot best).visit ∧
          freeUpRound rbuf len =
            ({ rbuf with minVisit := (rbuf.slot best).visit, pread := (rbuf.slot best).pread },
              false)) ∨
          Unmoved rbuf ∧ freeUpRound rbuf len = ((evictRef rbuf).1, false)) := by
  unfold Unmoved
  unfold freeUpRound
  split_ifs with enough
  · exact .inl ⟨enough, rfl⟩
  refine .inr ⟨enough, ?_⟩
  unfold updatePread
  cases found : leastVisitSlot rbuf fun _ => true with
  | none => exact .inr ⟨nofun, rfl⟩
  | some best =>
    by_cases moves : rbuf.minVisit ≠ (rbuf.slot best).visit
    · exact .inl ⟨best, rfl, moves, by simp [moves]⟩
    · refine .inr ⟨?_, by simp [moves]⟩
      rintro _ ⟨⟩
      exact not_not.mp moves

theorem clear_slot_other {slot index : Nat} (apart : slot ≠ index) :
    (clearSlot rbuf index).occupied slot = rbuf.occupied slot ∧
      freeBehind (clearSlot rbuf index) slot = freeBehind rbuf slot := by
  simp [freeBehind, freeSize, clearSlot, update_of_ne apart]

theorem obtainable_of_clear {index : Nat} (later : Obtainable (clearSlot rbuf index) len) :
    Obtainable rbuf len := by
  rcases later with enough | ⟨slot, occupied, enough⟩
  · exact .inl enough
  · have apart : slot ≠ index := by
      rintro rfl
      simp [clearSlot] at occupied
    rw [(clear_slot_other apart).1] at occupied
    rw [(clear_slot_other apart).2] at enough
    exact .inr ⟨slot, occupied, enough⟩

theorem obtainable_of_evict (later : Obtainable (evictRef rbuf).1 len) : Obtainable rbuf len := by
  unfold evictRef at later
  split at later
  · exact later
  · split_ifs at later
    · exact obtainable_of_clear later
    · exact later

variable (rep : Rep st least)
include rep

/-- The slots at the least visit counter stand at the read position of the ring. -/
theorem Rep.pread_of_visit {slot : Nat} (occupied : st.rbuf.occupied slot = true)
    (visit : (st.rbuf.slot slot).visit ≤ st.rbuf.minVisit) :
    (st.rbuf.slot slot).pread = st.rbuf.pread := by
  obtain ⟨idx, _, before⟩ := rep.cursors.before slot occupied
  rw [before.visit, rep.cursors.minVisit] at visit
  have same : idx = least := by omega
  rw [before.pread, rep.cursors.pread, same]

variable (positive : 0 < st.rbuf.size)
include positive

theorem Rep.free_size_bounds : 0 ≤ freeSize st.rbuf ∧ freeSize st.rbuf < st.rbuf.size := by
  have whole := rep.free_size
  obtain ⟨_, empty | _⟩ := rep.used
  · rw [empty, pos_nil, pos_nil] at whole
    omega
  · omega

theorem Rep.enough_iff (machine : st.rbuf.size < 2 ^ 63) : sizeT (freeSize st.rbuf) > len ↔
    freeSize st.rbuf > len := by
  have bounds := rep.free_size_bounds positive
  unfold sizeT
  omega

/-- A round that moves nothing evicts a weak reference at the read position. -/
theorem Rep.evicts (unmoved : Unmoved st.rbuf) (consumed : Consumed st.rbuf)
    (short : ¬ freeSize st.rbuf > len) (obtainable : Obtainable st.rbuf len) :
    ∃ index, st.rbuf.occupied index = true ∧ (evictRef st.rbuf).1 = clearSlot st.rbuf index ∧
      Obtainable (clearSlot st.rbuf index) len := by
  obtain ⟨slot, occupied, enough⟩ := obtainable.resolve_left short
  have listed := mem_occupied_slots rep.cursors
  have least := least_visit_slot st.rbuf
  cases found : leastVisitSlot st.rbuf fun _ => true with
  | none =>
    rw [found] at least
    exact absurd ((listed slot).mpr occupied) (by rw [least]; exact List.not_mem_nil)
  | some best =>
    rw [found] at least
    have bestOccupied := (listed best).mp least.1
    have visit := unmoved best found
    have atRead := rep.pread_of_visit bestOccupied visit.ge
    -- a strong reference here has read everything, and then no cursor leaves more bytes
    have weak : (st.rbuf.slot best).strong = false := by
      by_contra strong
      have read := consumed best bestOccupied (by simpa using strong)
      obtain ⟨idx, -, before⟩ := rep.cursors.before slot occupied
      have small := Nat.mod_lt (pos st.packets idx) positive
      rw [← before.pread] at small
      unfold freeBehind freeSize at enough
      unfold freeSize at short
      dsimp only at enough short
      split_ifs at enough short <;> omega
    have bestWeak : best ∈ (occupiedSlots st.rbuf).filter fun slot =>
      !(st.rbuf.slot slot).strong := by
      simp [least.1, weak]
    have eligible := least_visit_eligible st.rbuf fun slot => !slot.strong
    unfold evictRef
    cases victim : leastVisitSlot st.rbuf fun slot => !slot.strong with
    | none =>
      rw [victim] at eligible
      rw [eligible] at bestWeak
      cases bestWeak
    | some index =>
      rw [victim] at eligible
      have inside := (List.mem_filter.mp eligible.1).1
      have low := eligible.2 best bestWeak
      have indexRead := rep.pread_of_visit ((listed index).mp inside) (low.trans visit.ge)
      refine ⟨index, (listed index).mp inside, by simp [indexRead], .inr ⟨slot, ?_⟩⟩
      have apart : slot ≠ index := by
        rintro rfl
        rw [freeBehind, indexRead] at enough
        exact short enough
      rw [(clear_slot_other apart).1, (clear_slot_other apart).2]
      exact ⟨occupied, enough⟩

omit rep positive

theorem occupied_clear_lt {index : Nat} (occupied : index ∈ occupiedSlots rbuf) :
    (occupiedSlots (clearSlot rbuf index)).length < (occupiedSlots rbuf).length := by
  have fewer : (occupiedSlots (clearSlot rbuf index)).Sublist (occupiedSlots rbuf) := by
    apply List.monotone_filter_right
    intro slot used
    by_cases same : slot = index
    · simp [clearSlot, same] at used
    · simpa [clearSlot, update_of_ne same] using used
  refine lt_of_le_of_ne fewer.length_le fun same => ?_
  rw [← fewer.eq_of_length same] at occupied
  simp [occupiedSlots, clearSlot] at occupied

theorem returns_later {next : Ringbuf} (round : freeUpRound rbuf len = (next, false))
    (later : Returns len next) : Returns len rbuf := by
  obtain ⟨rounds, after, called, guard⟩ := later
  refine ⟨rounds + 1, after, ?_, guard⟩
  rw [freeUp, round]
  exact called

section
variable (rep : Rep st least) (positive : 0 < st.rbuf.size) (machine : st.rbuf.size < 2 ^ 63)
include rep positive machine

theorem Rep.obtainable_of_returns {rounds : Nat} {after : Ringbuf}
    (called : freeUp len rounds st.rbuf = some after) : Obtainable st.rbuf len := by
  induction rounds generalizing st least with
  | zero => cases called
  | succ _ known =>
    obtain ⟨_, next⟩ := rep.free_up len
    rw [freeUp] at called
    rcases free_up_round_cases st.rbuf len with ⟨enough, round⟩ | ⟨-,
      ⟨best, found, -, round⟩ | ⟨-, round⟩⟩
    · exact .inl ((rep.enough_iff positive machine).mp enough)
    · rw [round] at called next
      rcases known next positive machine called with enough | ⟨slot, occupied, enough⟩
      · have least := least_visit_slot st.rbuf
        rw [found] at least
        exact .inr ⟨best, (mem_occupied_slots rep.cursors best).mp least.1, enough⟩
      · exact .inr ⟨slot, occupied, enough⟩
    · rw [round] at called next
      have size : (evictRef st.rbuf).1.size = st.rbuf.size := by
        unfold evictRef
        split
        · rfl
        · split_ifs <;> rfl
      have nextPositive : 0 < (evictRef st.rbuf).1.size := by rwa [size]
      have nextMachine : (evictRef st.rbuf).1.size < 2 ^ 63 := by rwa [size]
      have later := known next nextPositive nextMachine called
      exact obtainable_of_evict later

/-- A ring whose read position is that of the least cursor. -/
theorem Rep.returns_unmoved (unmoved : Unmoved st.rbuf) (consumed : Consumed st.rbuf)
    (obtainable : Obtainable st.rbuf len)
    (fewer : ∀ index, st.rbuf.occupied index = true → Obtainable (clearSlot st.rbuf index) len →
      Returns len (clearSlot st.rbuf index)) : Returns len st.rbuf := by
  have enoughIff : sizeT (freeSize st.rbuf) > len ↔ freeSize st.rbuf > len :=
    rep.enough_iff positive machine
  rcases free_up_round_cases st.rbuf len with ⟨enough, round⟩ | ⟨short,
    ⟨best, found, moves, -⟩ | ⟨-, round⟩⟩
  · refine ⟨1, st.rbuf, ?_, Int.le_of_lt (enoughIff.mp enough)⟩
    rw [freeUp, round]
  · exact absurd (unmoved best found) moves
  · rw [enoughIff] at short
    obtain ⟨index, occupied, isClear, remains⟩ :=
      rep.evicts positive unmoved consumed short obtainable
    rw [isClear] at round
    exact returns_later round (fewer index occupied remains)

end

theorem Consumed.clear (consumed : Consumed rbuf) (index : Nat) :
    Consumed (clearSlot rbuf index) := by
  intro slot used strong
  have apart : slot ≠ index := by
    rintro rfl
    simp [clearSlot] at used
  simp only [clearSlot, update_of_ne apart] at used strong ⊢
  exact consumed slot used strong

theorem Rep.returns (rep : Rep st least) (positive : 0 < st.rbuf.size)
    (machine : st.rbuf.size < 2 ^ 63) (consumed : Consumed st.rbuf)
    (obtainable : Obtainable st.rbuf len) : Returns len st.rbuf := by
  -- by induction on the number of references; a round that moves is followed by one that does not
  induction isCount : (occupiedSlots st.rbuf).length using Nat.strong_induction_on generalizing st
    least with
  | h _ known =>
    by_cases unmoved : Unmoved st.rbuf
    · refine rep.returns_unmoved positive machine unmoved consumed obtainable
        fun index occupied remains => ?_
      have less := occupied_clear_lt ((mem_occupied_slots rep.cursors index).mpr occupied)
      exact known _ (isCount ▸ less) (rep.clear_slot index) positive machine (consumed.clear index)
        remains rfl
    rcases free_up_round_cases st.rbuf len with ⟨enough, round⟩ | ⟨short,
      ⟨_, found, _, round⟩ | ⟨same, -⟩⟩
    · refine ⟨1, st.rbuf, ?_, Int.le_of_lt ((rep.enough_iff positive machine).mp enough)⟩
      rw [freeUp, round]
    · obtain ⟨_, next⟩ := rep.free_up len
      rw [round] at next
      rw [rep.enough_iff positive machine] at short
      apply returns_later round
      refine next.returns_unmoved positive machine ?_ consumed
        (.inr (obtainable.resolve_left short))
        fun index occupied remains => ?_
      · intro _ isLeast
        cases found.symm.trans isLeast
        rfl
      · have less := occupied_clear_lt ((mem_occupied_slots rep.cursors index).mpr occupied)
        exact known _ (isCount ▸ less) (next.clear_slot index) positive machine
          (consumed.clear index) remains rfl
    · exact absurd same unmoved

/-- After every run, when the strong references have read everything, the loop returns exactly if
the read position of the ring or of a reference leaves more than the wanted bytes. -/
theorem free_up_returns_iff (memory : Ringbuf) (size : Nat)
    (run : Run (RunState.start memory size) st)
    (machine : st.rbuf.size < 2 ^ 63) (fits : len ≤ (st.rbuf.size : Int) - 1)
    (consumed : Consumed st.rbuf) : Returns len st.rbuf ↔ Obtainable st.rbuf len := by
  obtain ⟨_, rep⟩ := rep_of_run run
  have positive : 0 < st.rbuf.size := by omega
  constructor
  · rintro ⟨_, _, called, -⟩
    exact rep.obtainable_of_returns positive machine called
  · exact rep.returns positive machine consumed

/-- A packet of 25 bytes that the only reference, a strong one, has read. -/
theorem read_packet_run : ∃ st, Run (.start zeroMemory 32) st ∧ st.rbuf.size = 32 ∧
    freeSize st.rbuf = 6 ∧ Consumed st.rbuf ∧ st.rbuf.occupied 0 = true ∧
    ∀ slot, st.rbuf.occupied slot = true → freeBehind st.rbuf slot = 31 := by
  have referred : Run (.start zeroMemory 32) _ := .single (.newRef _ true _ _ rfl)
  have reserved := referred.tail (.reserve _ 20 (by decide) (by decide))
  have lengthSet := reserved.tail (.setLength _ 0 _ rfl (not_ready_of_free rfl))
  have ready := lengthSet.tail
    (.setFlag _ 0 _ (pktWalMeta ||| pktReady) rfl (not_ready_of_free rfl) fun _ => rfl)
  have read := ready.tail (.updateRef _ 1 _ rfl rfl ⟨by decide, by decide⟩)
  have only : ∀ slot, update (fun _ : Nat => false) 0 true slot = true → slot = 0 := by
    intro slot used
    by_contra other
    rw [update_of_ne other] at used
    cases used
  refine ⟨_, read, rfl, rfl, ?_, rfl, ?_⟩
  · intro slot used _
    rw [only slot used]
    rfl
  · intro slot used
    rw [only slot used]
    rfl

theorem read_packet_freed : ∃ st, Run (RunState.start zeroMemory 32) st ∧ freeSize st.rbuf = 6 ∧
    Returns 20 st.rbuf := by
  obtain ⟨st, run, size, free, consumed, occupied, behind⟩ := read_packet_run
  have obtainable : Obtainable st.rbuf 20 := .inr ⟨0, occupied, by rw [behind 0 occupied]; decide⟩
  refine ⟨st, run, free, (free_up_returns_iff zeroMemory 32 run ?_ ?_ consumed).mpr obtainable⟩
  · rw [size]
    decide
  · rw [size]
    decide

/-- The loop does not return without a reference, and not for the whole ring of 31 bytes behind a
strong reference that has read everything. -/
theorem space_never_freed :
    (∃ st, Run (RunState.start zeroMemory 32) st ∧ st.rbuf.size = 32 ∧
      (∀ slot, st.rbuf.occupied slot = false) ∧ ¬ Returns 25 st.rbuf) ∧
    ∃ st, Run (RunState.start zeroMemory 32) st ∧ st.rbuf.size = 32 ∧ Consumed st.rbuf ∧
      freeSize st.rbuf < 31 ∧ ¬ Returns 31 st.rbuf := by
  constructor
  · have reserved : Run (.start zeroMemory 32) _ := .single (.reserve _ 2 (by decide) (by decide))
    refine ⟨_, reserved, rfl, fun _ => rfl, ?_⟩
    rintro ⟨rounds, after, called, -⟩
    obtain ⟨least, rep⟩ := rep_of_run reserved
    rcases rep.obtainable_of_returns (by decide) (by decide) called with enough | ⟨slot,
      occupied, -⟩
    · cases enough
    · cases occupied
  · obtain ⟨st, run, size, _, consumed, occupied, behind⟩ := read_packet_run
    refine ⟨st, run, size, consumed, by omega, ?_⟩
    rintro ⟨_, _, called, -⟩
    obtain ⟨_, rep⟩ := rep_of_run run
    rcases rep.obtainable_of_returns (by omega) (by omega) called with enough | ⟨slot,
      occupied, enough⟩
    · omega
    · rw [behind slot occupied] at enough
      omega

end PolarDB.RingBuf
