import PolarDB.RingBuf.RunRep

/-!
# The steps keep the invariant

First the calls of a writer on a packet, then the moves of the cursors.
-/

namespace PolarDB.RingBuf

open Function List Lib.Bytes Lib.Circular Lib.Offsets Lib.Snoc

section Packets
variable {size place : Nat} {data : Nat → UInt8} {packet : Packet}

theorem Holds.pkt_len {rbuf : Ringbuf} (holds : Holds rbuf.size rbuf.data place packet)
    (large : 4 ≤ rbuf.size) (set : packet.lenSet = true) :
    pktLen rbuf (place % rbuf.size) = packet.len := by
  rw [pkt_len_eq_load large, load_shift, holds.length set]
  exact le_nat_le_bytes 4 packet.len holds.small

theorem store_outside {shift len address : Nat} {cells : List UInt8}
    (within : shift + cells.length ≤ len + 5)
    (outside : ∀ index < pktSize len, (place + index) % size ≠ address) :
    store size data (place + shift) cells address = data address := by
  apply store_other
  intro index inside
  rw [add_assoc]
  apply outside
  rw [pktSize, pktHdrSize]
  omega

theorem Holds.store_length (flag : data (place % size) = packet.flag)
    (written : ∀ idx byte, packet.written idx = some byte →
      idx < packet.len ∧ data ((place + pktHdrSize + idx) % size) = byte)
    (small : packet.len < 2 ^ 32) (fits : packet.len + 5 ≤ size) :
    Holds size (store size data (place + 1) (leBytes 4 packet.len)) place packet.setLength := by
  constructor
  · apply Eq.trans _ flag
    apply store_other
    intro index within
    rw [length_le_bytes] at within
    exact (mod_ne_of_lt (by omega) (by omega)).symm
  · intro _
    change load size (store size data (place + 1 + 0) _) _ 4 = leBytes 4 packet.len
    rw [load_store_within (by rw [length_le_bytes]) (by omega), length_le_bytes]
    simp
  · intro index byte there
    obtain ⟨within, value⟩ := written index byte there
    refine ⟨within, ?_⟩
    rw [store_other, value]
    intro _ inLength
    rw [length_le_bytes] at inLength
    rw [pktHdrSize]
    exact mod_ne_of_lt (by omega) (by omega)
  · intro _
    rfl
  · exact small

variable (holds : Holds size data place packet) (fits : packet.len + 5 ≤ size)
include holds fits

theorem Holds.store_flag {flag : UInt8}
    (complete : (packet.setFlag flag).ready → packet.lenSet = true) :
    Holds size (update data (place % size) flag) place (packet.setFlag flag) := by
  constructor
  · exact update_self _ _ _
  · intro set
    apply Eq.trans _ (holds.length set)
    apply load_congr
    intro index within
    apply update_of_ne
    exact (mod_ne_of_lt (by omega) (by omega)).symm
  · intro index byte written
    obtain ⟨within, value⟩ := holds.written index byte written
    refine ⟨within, ?_⟩
    rw [update_of_ne, value]
    rw [pktHdrSize]
    exact (mod_ne_of_lt (by omega) (by omega)).symm
  · exact complete
  · exact holds.small

theorem Holds.store_data {buf : List UInt8} {offset : Nat}
    (inside : offset + buf.length ≤ packet.len) :
    Holds size (store size data (place + pktHdrSize + offset) buf) place
    (packet.write offset buf) := by
  constructor
  · apply Eq.trans _ holds.flag
    apply store_other
    intro index within
    rw [pktHdrSize]
    exact (mod_ne_of_lt (by omega) (by omega)).symm
  · intro set
    apply Eq.trans _ (holds.length set)
    apply load_store_other
    left
    rw [pktHdrSize]
    omega
  · intro index byte found
    change (if offset ≤ index ∧ index < offset + buf.length then buf[index - offset]?
      else packet.written index) = some byte at found
    change index < packet.len ∧ _
    split_ifs at found with covered
    · obtain ⟨within, value⟩ := List.getElem?_eq_some_iff.mp found
      have position : place + pktHdrSize + index = place + pktHdrSize + offset +
        (index - offset) := by omega
      rw [position, store_get buf _ _ within (by omega)]
      exact ⟨by omega, value⟩
    · obtain ⟨within, value⟩ := holds.written index byte found
      refine ⟨within, ?_⟩
      rw [store_other, value]
      intro position _
      by_cases order : index < offset + position
      · exact (mod_ne_of_lt (by omega) (by omega)).symm
      · exact mod_ne_of_lt (by omega) (by omega)
  · exact holds.complete
  · exact holds.small

end Packets

section Writer
variable {st : RunState} {least : Nat} {rbuf : Ringbuf} {packet : Packet} {place : Nat}

theorem Rep.fits (rep : Rep st least) (found : st.packets[place]? = some packet)
    (live : least ≤ place) : pktSize packet.len < st.rbuf.size := by
  obtain ⟨_, _⟩ := rep.stored.live_room found live
  omega

theorem Rep.pending_holds (rep : Rep st least) (found : st.packets[place]? = some packet)
    (pending : ¬ packet.ready) : Holds st.rbuf.size st.rbuf.data (pos st.packets place) packet ∧
    packet.len + 5 < st.rbuf.size := by
  have live := rep.stored.live_of_pending found pending
  exact ⟨rep.stored.holds place packet found live, rep.fits found live⟩

def InPacket (st : RunState) (place : Nat) (packet : Packet) (address : Nat) : Prop :=
  ∃ index < pktSize packet.len, (pos st.packets place + index) % st.rbuf.size = address

variable {address : Nat} {flag : UInt8}

section
variable (rep : Rep st least) (found : st.packets[place]? = some packet)
include rep found

theorem Rep.set_length_data (pending : ¬ packet.ready) :
      (setPktLength st.rbuf packet.idx packet.len).data = store st.rbuf.size st.rbuf.data
      (pos st.packets place + 1) (leBytes 4 packet.len) := by
  have fits := (rep.pending_holds found pending).2
  rw [set_pkt_length_data (by omega), rep.stored.placed place packet found, store_shift]

theorem Rep.set_length_outside (pending : ¬ packet.ready)
    (outside : ∀ index < pktSize packet.len, (pos st.packets place + index) % st.rbuf.size ≠
      address) : (setPktLength st.rbuf packet.idx packet.len).data address =
    st.rbuf.data address := by
  rw [rep.set_length_data found pending]
  exact store_outside (by rw [length_le_bytes]; omega) outside

theorem Rep.set_length (pending : ¬ packet.ready) :
    Rep (st.setPacket (setPktLength st.rbuf packet.idx packet.len) place packet.setLength)
    least := by
  obtain ⟨holds, fits⟩ := rep.pending_holds found pending
  apply rep.touch packet.setLength (setPktLength st.rbuf packet.idx packet.len).data found
    pending rfl rfl
  · exact fun _ => rep.set_length_outside found pending
  · rw [rep.set_length_data found pending]
    exact .store_length holds.flag holds.written holds.small fits.le

theorem Rep.set_flag_data : (setPktFlag st.rbuf packet.idx flag).data =
      update st.rbuf.data (pos st.packets place % st.rbuf.size) flag := by
  rw [← rep.stored.placed place packet found]
  exact copy_in_flag flag

theorem Rep.set_flag_outside
    (outside : ∀ index < pktSize packet.len, (pos st.packets place + index) % st.rbuf.size ≠
      address) : (setPktFlag st.rbuf packet.idx flag).data address = st.rbuf.data address := by
  rw [rep.set_flag_data found, update_of_ne]
  exact (outside 0 (pkt_size_pos _)).symm

theorem Rep.set_flag (pending : ¬ packet.ready)
    (complete : (packet.setFlag flag).ready → packet.lenSet = true) :
    Rep (st.setPacket (setPktFlag st.rbuf packet.idx flag) place (packet.setFlag flag)) least := by
  obtain ⟨holds, fits⟩ := rep.pending_holds found pending
  apply rep.touch (packet.setFlag flag) (setPktFlag st.rbuf packet.idx flag).data found
    pending rfl rfl
  · exact fun _ => rep.set_flag_outside found
  · rw [rep.set_flag_data found]
    exact holds.store_flag fits.le complete

end

variable {buf : List UInt8} {offset : Int}

theorem write_accepted {idx len : Nat} (length : pktLen rbuf idx = len)
    (fits : pktSize len ≤ rbuf.size) (small : len < 2 ^ 32)
    (int : -2 ^ 31 ≤ offset ∧ offset < 2 ^ 31) (inMemory : buf.length < 2 ^ 63)
    (accepted : (pktWrite rbuf idx offset buf).2 ≠ -1) : offset.toNat + buf.length ≤ len ∧
        (pktWrite rbuf idx offset buf).1 =
        { rbuf with data := store rbuf.size rbuf.data (idx + pktHdrSize + offset.toNat) buf } := by
  have within : ¬ pktWrite rbuf idx offset buf = (rbuf, -1) := fun same =>
    accepted (congrArg Prod.snd same)
  rw [pkt_write_refused_iff length small (by omega) (by omega)] at within
  obtain ⟨start, rfl⟩ := Int.eq_ofNat_of_zero_le (show 0 ≤ offset by omega)
  rw [pkt_write_eq_store length fits (by omega) (by omega), Int.toNat_natCast]
  exact ⟨by omega, rfl⟩

theorem write_refused {idx : Nat}
    (refused : (pktWrite rbuf idx offset buf).2 = -1) :
    (pktWrite rbuf idx offset buf).1 = rbuf := by
  unfold pktWrite at refused ⊢
  dsimp only at refused ⊢
  split_ifs at refused ⊢
  rfl

variable (rep : Rep st least)
  (found : st.packets[place]? = some packet) (pending : ¬ packet.ready)
  (lenSet : packet.lenSet = true)
  (int : -2 ^ 31 ≤ offset ∧ offset < 2 ^ 31) (inMemory : buf.length < 2 ^ 63)
  (accepted : (pktWrite st.rbuf packet.idx offset buf).2 ≠ -1)
include rep found pending lenSet int inMemory accepted

theorem Rep.write_data : offset.toNat + buf.length ≤ packet.len ∧
      (pktWrite st.rbuf packet.idx offset buf).1 = { st.rbuf with
        data := store st.rbuf.size st.rbuf.data (pos st.packets place + pktHdrSize + offset.toNat)
          buf } := by
  obtain ⟨holds, fits⟩ := rep.pending_holds found pending
  have length : pktLen st.rbuf packet.idx = packet.len := by
    rw [rep.stored.placed place packet found]
    exact holds.pkt_len (by omega) lenSet
  obtain ⟨inside, written⟩ := write_accepted length fits.le holds.small int inMemory accepted
  refine ⟨inside, ?_⟩
  rw [written, rep.stored.placed place packet found, add_assoc, store_shift, add_assoc]

theorem Rep.write_outside
    (outside :
      ∀ index < pktSize packet.len, (pos st.packets place + index) % st.rbuf.size ≠ address) :
    (pktWrite st.rbuf packet.idx offset buf).1.data address = st.rbuf.data address := by
  obtain ⟨inside, written⟩ := rep.write_data found pending lenSet int inMemory accepted
  rw [written, add_assoc]
  exact store_outside (by rw [pktHdrSize]; omega) outside

theorem Rep.write :
    Rep (st.setPacket (pktWrite st.rbuf packet.idx offset buf).1 place
      (packet.write offset.toNat buf)) least := by
  obtain ⟨holds, fits⟩ := rep.pending_holds found pending
  obtain ⟨inside, written⟩ := rep.write_data found pending lenSet int inMemory accepted
  rw [written]
  refine rep.touch (packet.write offset.toNat buf) _ found pending rfl rfl ?_
    (holds.store_data fits.le inside)
  intro address outside
  have kept := rep.write_outside found pending lenSet int inMemory accepted outside
  rwa [written] at kept

end Writer

section Cursor
variable {st : RunState} {least : Nat} {rbuf : Ringbuf}
variable {holder : Holder} {packets : List Packet} {ref : Ref} {after : Ringbuf}

theorem ref_match_iff : refMatch rbuf ref = true ↔ ref.slot < maxSlot ∧
    (rbuf.slot ref.slot).refNum = ref.refNum := by
  rw [refMatch, Bool.and_eq_true, decide_eq_true_iff, beq_iff_eq]

theorem Held.slot {base number : Nat} (held : Held rbuf base packets number holder)
    (after : Ringbuf) (known : rbuf.refNum ≤ after.refNum)
    (same : (after.slot holder.ref.slot).refNum = number →
      (rbuf.slot holder.ref.slot).refNum = number ∧
      (after.slot holder.ref.slot).visit = (rbuf.slot holder.ref.slot).visit) :
    Held after base packets number holder := by
  refine ⟨held.refNum, held.positive, held.known.trans known, ?_⟩
  intro matched
  obtain ⟨inside, number'⟩ := ref_match_iff.mp matched
  rw [held.refNum] at number'
  obtain ⟨old, visit⟩ := same number'
  have tracks := held.tracks (ref_match_iff.mpr ⟨inside, by rw [old, held.refNum]⟩)
  constructor
  · rw [visit]
    exact tracks.start_le
  · rw [visit]
    exact tracks.taken

theorem Held.set_slot {base number index : Nat} {slot : Slot}
    (held : Held rbuf base packets number holder) (slots : after.slot = update rbuf.slot index slot)
    (known : rbuf.refNum ≤ after.refNum)
    (same : slot.refNum = number → (rbuf.slot index).refNum = number ∧
      slot.visit = (rbuf.slot index).visit) : Held after base packets number holder := by
  apply held.slot after known
  rw [slots, update_apply]
  split_ifs with here
  · rw [here]
    exact same
  · exact fun same => ⟨same, rfl⟩

theorem Cursors.set_slot {base index refNum : Nat} {used : Bool} {slot : Slot}
    (cursors : Cursors rbuf base packets least) (known : rbuf.refNum ≤ refNum)
    (occupied : used = true → index < maxSlot ∧ (0 < slot.refNum ∧ slot.refNum ≤ refNum) ∧
      ∃ idx, least ≤ idx ∧ Before rbuf.size base packets slot idx)
    (free : used = false → slot.refNum = 0) :
    Cursors { rbuf with
        occupied := update rbuf.occupied index used, slot := update rbuf.slot index slot, refNum }
      base packets least := by
  have whole : ∀ other, (update rbuf.occupied index used other = true → other < maxSlot ∧
      (0 < (update rbuf.slot index slot other).refNum ∧
        (update rbuf.slot index slot other).refNum ≤ refNum) ∧
        ∃ idx, least ≤ idx ∧
        Before rbuf.size base packets (update rbuf.slot index slot other) idx) ∧
      (update rbuf.occupied index used other = false →
        (update rbuf.slot index slot other).refNum = 0) := by
    intro other
    by_cases here : other = index
    · rw [here, update_self, update_self]
      exact ⟨occupied, free⟩
    · rw [update_of_ne here, update_of_ne here]
      refine ⟨fun taken => ?_, cursors.free other⟩
      have number := cursors.number other taken
      exact ⟨cursors.below other taken, ⟨number.1, number.2.trans known⟩,
        cursors.before other taken⟩
  exact ⟨cursors.minVisit, cursors.pread, fun other taken => ((whole other).1 taken).1,
    fun other taken => ((whole other).1 taken).2.1, fun other taken => ((whole other).1 taken).2.2,
    fun other => (whole other).2⟩

theorem Cursors.replace_slot {base index : Nat} {slot : Slot}
    (cursors : Cursors rbuf base packets least) (number : slot.refNum = (rbuf.slot index).refNum)
      (before : rbuf.occupied index = true → ∃ idx,
        least ≤ idx ∧ Before rbuf.size base packets slot idx) :
    Cursors { rbuf with slot := update rbuf.slot index slot } base packets least := by
  have changed := @Cursors.set_slot _ rbuf _ _ index _ (rbuf.occupied index) slot cursors le_rfl
  rw [update_eq_self, number] at changed
  exact changed (fun taken => ⟨cursors.below _ taken, cursors.number _ taken, before taken⟩)
    (cursors.free _)

theorem Rep.clear_slot (rep : Rep st least) (index : Nat) :
    Rep { st with rbuf := clearSlot st.rbuf index } least := by
  refine ⟨rep.stored.congr rfl rfl rfl, rep.cursors.set_slot le_rfl nofun fun _ => rfl, ?_⟩
  intro number holder found
  have held := rep.held number holder found
  exact held.set_slot rfl le_rfl fun zero => absurd zero held.positive.ne

theorem Rep.set_strong (rep : Rep st least) (ref : Ref) (strong : Bool) :
    Rep { st with rbuf := (setStrong st.rbuf ref strong).1 } least := by
  unfold setStrong
  split_ifs
  · refine ⟨rep.stored.congr rfl rfl rfl, ?_, ?_⟩
    · refine rep.cursors.replace_slot ?_ ?_
      · rfl
      intro taken
      obtain ⟨index, order, before⟩ := rep.cursors.before _ taken
      exact ⟨index, order, before.visit, before.pread, before.within, before.passed⟩
    · exact fun number holder found => (rep.held number holder found).set_slot rfl le_rfl
        fun same => ⟨same, rfl⟩
  · exact rep

/-- `least` is a slot with the least visit counter among `done`. -/
def LeastOf (rbuf : Ringbuf) (done : List Nat) : Option Nat → Prop
  | none => done = []
  | some best => best ∈ done ∧ ∀ index ∈ done, (rbuf.slot best).visit ≤ (rbuf.slot index).visit

theorem least_of_step {done : List Nat} {best : Option Nat} (found : LeastOf rbuf done best)
    (index : Nat) : LeastOf rbuf (done ++ [index])
    (leastVisitStep rbuf (fun _ => true) best index) := by
  cases best with
  | none =>
    rw [found]
    exact ⟨mem_singleton_self _, fun other mem => by rw [mem_singleton.mp mem]⟩
  | some =>
    obtain ⟨mem, minimal⟩ := found
    unfold leastVisitStep
    dsimp only
    split_ifs with better
    · rw [Bool.true_and, decide_eq_true_iff] at better
      refine ⟨mem_concat_self, forall_mem_snoc.mpr ⟨?_, le_rfl⟩⟩
      intro other old
      have low := minimal other old
      omega
    · rw [Bool.true_and, decide_eq_true_iff] at better
      exact ⟨mem_append_left _ mem, forall_mem_snoc.mpr ⟨minimal, by omega⟩⟩

theorem least_of_foldl (list : List Nat) : ∀ (done : List Nat) (best : Option Nat),
    LeastOf rbuf done best → LeastOf rbuf (done ++ list)
    (list.foldl (leastVisitStep rbuf fun _ => true) best) := by
  induction list with
  | nil =>
    intro done best found
    rwa [append_nil]
  | cons index _ ih =>
    intro done _ found
    have next := ih (done ++ [index]) _ (least_of_step found index)
    rwa [append_assoc, singleton_append] at next

theorem least_visit_slot (rbuf : Ringbuf) :
    LeastOf rbuf (occupiedSlots rbuf) (leastVisitSlot rbuf fun _ => true) :=
    least_of_foldl _ [] none rfl

theorem least_visit_eligible (rbuf : Ringbuf) (eligible : Slot → Bool) :
    LeastOf rbuf ((occupiedSlots rbuf).filter fun slot => eligible (rbuf.slot slot))
    (leastVisitSlot rbuf eligible) := by
  have whole := @least_of_foldl rbuf
    ((occupiedSlots rbuf).filter fun slot => eligible (rbuf.slot slot)) [] none rfl
  rw [foldl_filter] at whole
  have same : leastVisitStep rbuf eligible = fun least index =>
      if eligible (rbuf.slot index) then leastVisitStep rbuf (fun _ => true) least index
        else least := by
    funext least index
    cases pick : eligible (rbuf.slot index) <;> simp [leastVisitStep, pick]
  rw [leastVisitSlot, same]
  exact whole

theorem mem_occupied_slots {base : Nat} (cursors : Cursors rbuf base packets least)
    (slot : Nat) : slot ∈ occupiedSlots rbuf ↔ rbuf.occupied slot = true := by
  rw [occupiedSlots, mem_filter, mem_range]
  constructor
  · exact And.right
  · intro occupied
    have below := cursors.below slot occupied
    rw [maxSlot] at below
    exact ⟨by omega, occupied⟩

theorem Rep.update_pread (rep : Rep st least) :
    ∃ further, Rep { st with rbuf := (updatePread st.rbuf).1 } further := by
  have cursors := rep.cursors
  have spec := least_visit_slot st.rbuf
  unfold updatePread
  cases found : leastVisitSlot st.rbuf fun _ => true with
  | none => exact ⟨least, rep⟩
  | some best =>
    rw [found] at spec
    obtain ⟨mem, minimal⟩ := spec
    obtain ⟨index, order, before⟩ := cursors.before best ((mem_occupied_slots cursors best).mp mem)
    dsimp only
    split_ifs with moves
    · refine ⟨index, ?_, ?_, ?_⟩
      · exact (rep.stored.advance order before.within before.passed).congr rfl rfl rfl
      · refine { cursors with minVisit := ?_, pread := ?_, before := ?_ }
        · exact before.visit
        · exact before.pread
        · intro slot occupied
          obtain ⟨place, -, there⟩ := cursors.before slot occupied
          have low := minimal slot ((mem_occupied_slots cursors slot).mpr occupied)
          rw [before.visit, there.visit] at low
          exact ⟨place, by omega, there⟩
      · intro number holder held
        apply Held.slot (rep.held number holder held)
        · exact le_rfl
        · intro same
          exact ⟨same, rfl⟩
    · exact ⟨least, rep⟩

theorem Rep.evict_ref (rep : Rep st least) :
    Rep { st with rbuf := (evictRef st.rbuf).1 } least := by
  unfold evictRef
  cases leastVisitSlot st.rbuf fun slot => !slot.strong with
  | none => exact rep
  | some index =>
    dsimp only
    split_ifs
    · exact rep.clear_slot index
    · exact rep

theorem Rep.free_up (rep : Rep st least) (len : Nat) :
    ∃ further, Rep { st with rbuf := (freeUpRound st.rbuf len).1 } further := by
  obtain ⟨further, moved⟩ := rep.update_pread
  unfold freeUpRound
  split_ifs with enough
  · exact ⟨least, rep⟩
  · dsimp only
    split_ifs
    · exact ⟨further, moved⟩
    · exact ⟨further, moved.evict_ref⟩

theorem new_ref_eq {strong : Bool} (created : newRef rbuf strong = some (after, ref)) :
      ∃ index, index < maxSlot ∧ after = { rbuf with
        occupied := update rbuf.occupied index true
        slot := update rbuf.slot index
          { strong, pread := rbuf.pread, visit := rbuf.minVisit, refNum := rbuf.refNum + 1 }
        refNum := rbuf.refNum + 1 } ∧
      ref = { attached := true, refNum := rbuf.refNum + 1, slot := index, strong } := by
  unfold newRef at created
  dsimp only at created
  split_ifs at created with room
  obtain ⟨rfl, rfl⟩ := Prod.mk.inj (Option.some.inj created)
  exact ⟨_, by omega, rfl, rfl⟩

theorem Rep.new_ref (rep : Rep st least) {strong : Bool}
    (created : newRef st.rbuf strong = some (after, ref)) :
    Rep (st.setHolder after { ref, start := st.rbuf.minVisit - st.base, taken := [] }) least := by
  obtain ⟨index, inside, rfl, rfl⟩ := new_ref_eq created
  have cursors := rep.cursors
  have fresh : Before st.rbuf.size st.base st.packets
      { strong, pread := st.rbuf.pread, visit := st.rbuf.minVisit,
        refNum := st.rbuf.refNum + 1 } least :=
    ⟨cursors.minVisit, cursors.pread, rep.stored.least_le, rep.stored.passed⟩
  refine ⟨rep.stored.congr rfl rfl rfl, ?_, ?_⟩
  · exact cursors.set_slot (Nat.le_succ _) (fun _ => ⟨inside, ⟨Nat.succ_pos _, le_rfl⟩, least,
      le_rfl, fresh⟩) nofun
  · intro number holder found
    change update st.holders (st.rbuf.refNum + 1) (some _) number = some holder at found
    rw [update_apply] at found
    split_ifs at found with new
    · obtain rfl := Option.some.inj found
      refine ⟨new.symm, by omega, by rw [new]; exact le_rfl, ?_⟩
      intro _
      constructor
      · change st.base + (st.rbuf.minVisit - st.base) ≤ (update st.rbuf.slot index _ index).visit
        rw [update_self, cursors.minVisit, Nat.add_sub_cancel_left]
      · change List.Forall₂ Observes [] ((st.packets.take
          ((update st.rbuf.slot index _ index).visit - st.base)).drop (st.rbuf.minVisit - st.base))
        rw [update_self, drop_eq_nil_of_le (length_take_le _ _)]
        exact List.Forall₂.nil
    · exact (rep.held number holder found).set_slot rfl (Nat.le_succ _) fun same =>
        absurd same.symm new

variable {number : Nat} (rep : Rep st least) (held : st.holders number = some holder)
include rep held

theorem Rep.rehold (attached : Bool) :
    Rep (st.setHolder st.rbuf { holder with ref := { holder.ref with attached } }) least := by
  refine ⟨rep.stored, rep.cursors, ?_⟩
  intro other holder' found
  have known := rep.held number holder held
  change update st.holders holder.ref.refNum (some _) other = some holder' at found
  rw [update_apply] at found
  split_ifs at found with here
  · obtain rfl := Option.some.inj found
    rw [known.refNum] at here
    subst here
    refine { known with tracks := ?_ }
    intro matched
    obtain ⟨start_le, taken⟩ := known.tracks matched
    exact ⟨start_le, taken⟩
  · exact rep.held other holder' found

theorem Rep.release_ref : ∃ further, Rep (st.setHolder (releaseRef st.rbuf holder.ref).1
      { holder with ref := (releaseRef st.rbuf holder.ref).2 }) further := by
  unfold releaseRef
  split_ifs with detached matched
  · exact ⟨least, rep.rehold held holder.ref.attached⟩
  · obtain ⟨further, moved⟩ := (rep.clear_slot holder.ref.slot).update_pread
    exact ⟨further, moved.rehold held false⟩
  · exact ⟨least, rep.rehold held false⟩

end Cursor

end PolarDB.RingBuf
