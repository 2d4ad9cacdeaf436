import PolarDB.Lib.Snoc
import PolarDB.RingBuf.Run

/-!
# The invariant of a run

Packets have absolute positions: the sums of the sizes of the packets before them. The ring
holds the packets from the least one on, all within one round, and every visit counter is the
number of packets before a cursor. A step either touches the bytes of one packet that is not
ready, appends a packet behind the last one, or moves a cursor over ready packets.
-/

namespace PolarDB.RingBuf

open List Lib.Bytes Lib.Circular Lib.Offsets Lib.Snoc

def Packet.size (packet : Packet) : Nat := pktSize packet.len

def pos (packets : List Packet) (idx : Nat) : Nat := offset Packet.size packets idx

structure Holds (size : Nat) (data : Nat → UInt8) (place : Nat) (packet : Packet) : Prop where
  flag : data (place % size) = packet.flag
  length : packet.lenSet = true → load size data (place + 1) 4 = leBytes 4 packet.len
  written : ∀ idx byte, packet.written idx = some byte →
    idx < packet.len ∧ data ((place + pktHdrSize + idx) % size) = byte
  complete : packet.ready → packet.lenSet = true
  small : packet.len < 2 ^ 32

def Passed (packets : List Packet) (idx : Nat) : Prop :=
  ∀ earlier packet, packets[earlier]? = some packet → earlier < idx → packet.ready

structure Stored (rbuf : Ringbuf) (packets : List Packet) (least : Nat) : Prop where
  least_le : least ≤ packets.length
  pwrite : rbuf.pwrite = pos packets packets.length % rbuf.size
  room : packets ≠ [] → pos packets packets.length < pos packets least + rbuf.size
  placed : ∀ idx packet, packets[idx]? = some packet → packet.idx = pos packets idx % rbuf.size
  passed : Passed packets least
  holds : ∀ idx packet, packets[idx]? = some packet → least ≤ idx →
    Holds rbuf.size rbuf.data (pos packets idx) packet

structure Before (size base : Nat) (packets : List Packet) (slot : Slot) (idx : Nat) : Prop where
  visit : slot.visit = base + idx
  pread : slot.pread = pos packets idx % size
  within : idx ≤ packets.length
  passed : Passed packets idx

structure Cursors (rbuf : Ringbuf) (base : Nat) (packets : List Packet) (least : Nat) : Prop where
  minVisit : rbuf.minVisit = base + least
  pread : rbuf.pread = pos packets least % rbuf.size
  below : ∀ slot, rbuf.occupied slot = true → slot < maxSlot
  number : ∀ slot, rbuf.occupied slot = true → 0 < (rbuf.slot slot).refNum ∧
    (rbuf.slot slot).refNum ≤ rbuf.refNum
  before : ∀ slot, rbuf.occupied slot = true → ∃ idx, least ≤ idx ∧ Before rbuf.size base packets
    (rbuf.slot slot) idx
  free : ∀ slot, rbuf.occupied slot = false → (rbuf.slot slot).refNum = 0

/-- A reader got the packet: its type, and a byte for every byte of its data, with those that
were written. -/
structure Observes (observed : UInt8 × List UInt8) (packet : Packet) : Prop where
  type : observed.1 = packet.flag &&& pktTypeMask
  length : observed.2.length = packet.len
  data : ∀ idx byte, packet.written idx = some byte → observed.2[idx]? = some byte

/-- The reference has read the packets from its start up to its cursor. -/
structure Tracks (rbuf : Ringbuf) (base : Nat) (packets : List Packet) (holder : Holder) :
    Prop where
  start_le : base + holder.start ≤ (rbuf.slot holder.ref.slot).visit
  taken : List.Forall₂ Observes holder.taken
    ((packets.take ((rbuf.slot holder.ref.slot).visit - base)).drop holder.start)

structure Held (rbuf : Ringbuf) (base : Nat) (packets : List Packet) (number : Nat)
    (holder : Holder) : Prop where
  refNum : holder.ref.refNum = number
  positive : 0 < number
  known : number ≤ rbuf.refNum
  tracks : refMatch rbuf holder.ref = true → Tracks rbuf base packets holder

structure Rep (st : RunState) (least : Nat) : Prop where
  stored : Stored st.rbuf st.packets least
  cursors : Cursors st.rbuf st.base st.packets least
  held : ∀ number holder, st.holders number = some holder →
    Held st.rbuf st.base st.packets number holder

section Positions
variable {packets : List Packet} {rbuf : Ringbuf} {least : Nat}
variable {packet : Packet} {idx : Nat}

theorem pos_succ (found : packets[idx]? = some packet) :
    pos packets (idx + 1) = pos packets idx + pktSize packet.len := offset_succ found

theorem pos_mono {first last : Nat} (order : first ≤ last) : pos packets first ≤ pos packets last :=
  offset_mono order

theorem pos_add_le {idx last : Nat} (found : packets[idx]? = some packet)
    (later : idx < last) : pos packets idx + pktSize packet.len ≤ pos packets last :=
    offset_add_le found later

theorem pos_append (within : idx ≤ packets.length) (more : List Packet) :
    pos (packets ++ more) idx = pos packets idx := offset_append within more

theorem pos_set {place : Nat} {packet other : Packet} (found : packets[place]? = some packet)
    (same : other.len = packet.len) (idx : Nat) : pos (packets.set place other) idx =
    pos packets idx := by
  apply offset_set found
  rw [Packet.size, Packet.size, same]

section
variable (stored : Stored rbuf packets least)
include stored

theorem Stored.live_room (found : packets[idx]? = some packet) (live : least ≤ idx) :
    pos packets least ≤ pos packets idx ∧ pos packets idx + pktSize packet.len < pos packets least +
    rbuf.size := by
  have within : idx < packets.length := (List.getElem?_eq_some_iff.mp found).1
  have nonempty : packets ≠ [] := ne_nil_of_length_pos (by omega)
  have last := pos_add_le found within
  have room := stored.room nonempty
  exact ⟨pos_mono live, by omega⟩

theorem Stored.apart {first second : Nat} {one other : Packet}
    (foundOne : packets[first]? = some one) (foundOther : packets[second]? = some other)
    (liveOne : least ≤ first) (liveOther : least ≤ second) (apart : first ≠ second)
    {idx index' : Nat} (within : idx < pktSize one.len) (within' : index' < pktSize other.len) :
    (pos packets first + idx) % rbuf.size ≠ (pos packets second + index') % rbuf.size := by
  obtain ⟨_, _⟩ := stored.live_room foundOne liveOne
  obtain ⟨_, _⟩ := stored.live_room foundOther liveOther
  by_cases order : first < second
  · have separate := pos_add_le foundOne order
    exact mod_ne_of_lt (by omega) (by omega)
  · have separate := pos_add_le foundOther (show second < first by omega)
    exact (mod_ne_of_lt (by omega) (by omega)).symm

theorem Stored.live_of_pending (found : packets[idx]? = some packet) (pending : ¬ packet.ready) :
    least ≤ idx := by
  by_contra early
  exact pending (stored.passed idx packet found (by omega))

end

theorem pkt_size_pos (len : Nat) : 0 < pktSize len := by
  rw [pktSize, pktHdrSize]
  omega

end Positions

section Frame
variable {packets : List Packet} {rbuf : Ringbuf} {least base : Nat}

theorem Holds.congr {size place : Nat} {data after : Nat → UInt8} {packet : Packet}
    (holds : Holds size data place packet)
    (same : ∀ idx < pktSize packet.len,
      after ((place + idx) % size) = data ((place + idx) % size)) :
    Holds size after place packet := by
  rw [pktSize, pktHdrSize] at same
  constructor
  · have first := same 0 (by omega)
    rw [add_zero] at first
    rw [first]
    exact holds.flag
  · intro set
    rw [← holds.length set]
    apply load_congr
    intro idx within
    have later := same (1 + idx) (by omega)
    rwa [← add_assoc] at later
  · intro idx byte found
    obtain ⟨within, value⟩ := holds.written idx byte found
    refine ⟨within, ?_⟩
    have later := same (pktHdrSize + idx) (by rw [pktHdrSize]; omega)
    rw [← add_assoc] at later
    rw [later, value]
  · exact holds.complete
  · exact holds.small

theorem Stored.congr (stored : Stored rbuf packets least) {after : Ringbuf}
    (size : after.size = rbuf.size) (pwrite : after.pwrite = rbuf.pwrite)
    (data : after.data = rbuf.data) : Stored after packets least := by
  constructor
  · exact stored.least_le
  · rw [pwrite, size]
    exact stored.pwrite
  · rw [size]
    exact stored.room
  · rw [size]
    exact stored.placed
  · exact stored.passed
  · intro idx packet found live
    rw [size, data]
    exact stored.holds idx packet found live

theorem Stored.advance (stored : Stored rbuf packets least) {further : Nat}
    (order : least ≤ further) (within : further ≤ packets.length)
    (passed : Passed packets further) : Stored rbuf packets further := by
  constructor
  · exact within
  · exact stored.pwrite
  · intro nonempty
    have room := stored.room nonempty
    have later : pos packets least ≤ pos packets further := pos_mono order
    omega
  · exact stored.placed
  · exact passed
  · intro idx packet found live
    exact stored.holds idx packet found (order.trans live)

end Frame

section Touch
variable {st : RunState} {least : Nat}

theorem passed_set {packets : List Packet} {idx place : Nat} {packet other : Packet}
    (passed : Passed packets idx) (found : packets[place]? = some packet)
    (pending : ¬ packet.ready) : idx ≤ place ∧ Passed (packets.set place other) idx := by
  have order : idx ≤ place := by
    by_contra early
    exact pending (passed place packet found (by omega))
  refine ⟨order, ?_⟩
  intro earlier packet' found' before
  rw [List.getElem?_set_ne (by omega)] at found'
  exact passed earlier packet' found' before

theorem Before.set {size base : Nat} {packets : List Packet} {slot : Slot} {idx place : Nat}
    {packet other : Packet} (before : Before size base packets slot idx)
    (found : packets[place]? = some packet) (pending : ¬ packet.ready)
    (same : other.len = packet.len) : Before size base (packets.set place other) slot idx := by
  constructor
  · exact before.visit
  · rw [pos_set found same]
    exact before.pread
  · rw [length_set]
    exact before.within
  · exact (passed_set before.passed found pending).2

theorem Stored.touch {rbuf : Ringbuf} {packets : List Packet} (stored : Stored rbuf packets least)
    {place : Nat} {packet other : Packet} {data : Nat → UInt8}
    (found : packets[place]? = some packet) (pending : ¬ packet.ready)
    (sameLen : other.len = packet.len) (sameIdx : other.idx = packet.idx)
    (outside : ∀ address,
      (∀ idx < pktSize packet.len, (pos packets place + idx) % rbuf.size ≠ address) →
      data address = rbuf.data address) (inside : Holds rbuf.size data (pos packets place) other) :
    Stored { rbuf with data } (packets.set place other) least := by
  have live := stored.live_of_pending found pending
  have within := (List.getElem?_eq_some_iff.mp found).1
  constructor
  · rw [length_set]
    exact stored.least_le
  · rw [length_set, pos_set found sameLen]
    exact stored.pwrite
  · rw [length_set, pos_set found sameLen, pos_set found sameLen]
    intro _
    exact stored.room (ne_nil_of_length_pos (by omega))
  · intro idx packet' found'
    rw [pos_set found sameLen]
    by_cases here : place = idx
    · subst here
      rw [List.getElem?_set_self within] at found'
      rw [← Option.some.inj found', sameIdx]
      exact stored.placed place packet found
    · rw [List.getElem?_set_ne here] at found'
      exact stored.placed idx packet' found'
  · exact (passed_set stored.passed found pending).2
  · intro idx packet' found' live'
    rw [pos_set found sameLen]
    by_cases here : place = idx
    · subst here
      rw [List.getElem?_set_self within] at found'
      rw [← Option.some.inj found']
      exact inside
    · rw [List.getElem?_set_ne here] at found'
      apply (stored.holds idx packet' found' live').congr
      intro _ inPacket
      apply outside
      intro _ inPacket'
      exact stored.apart found found' live live' here inPacket' inPacket

theorem Cursors.before_of_match {rbuf : Ringbuf} {base : Nat} {packets : List Packet}
    (cursors : Cursors rbuf base packets least) {ref : Ref} (positive : 0 < ref.refNum)
    (matched : refMatch rbuf ref = true) :
    rbuf.occupied ref.slot = true ∧ ∃ idx, least ≤ idx ∧
    Before rbuf.size base packets (rbuf.slot ref.slot) idx := by
  have same : (rbuf.slot ref.slot).refNum = ref.refNum := by
    rw [refMatch, Bool.and_eq_true, beq_iff_eq] at matched
    exact matched.2
  have occupied : rbuf.occupied ref.slot = true := by
    by_contra unoccupied
    have zero := cursors.free ref.slot (Bool.not_eq_true _ ▸ unoccupied)
    omega
  exact ⟨occupied, cursors.before ref.slot occupied⟩

theorem Held.packets {rbuf : Ringbuf} {base : Nat} {packets : List Packet} {number : Nat}
    {holder : Holder} (held : Held rbuf base packets number holder)
    (cursors : Cursors rbuf base packets least) (after : Ringbuf)
    (packets' : List Packet) (slot : after.slot = rbuf.slot) (refNum : after.refNum = rbuf.refNum)
    (same : ∀ idx, Passed packets idx → idx ≤ packets.length →
      packets'.take idx = packets.take idx) : Held after base packets' number holder := by
  have matches' : refMatch after holder.ref = refMatch rbuf holder.ref := by
    rw [refMatch, refMatch, slot]
  refine ⟨held.refNum, held.positive, by rw [refNum]; exact held.known, ?_⟩
  intro matched
  rw [matches'] at matched
  obtain ⟨-, idx, -, before⟩ :=
    cursors.before_of_match (by rw [held.refNum]; exact held.positive) matched
  have tracks := held.tracks matched
  have count : (rbuf.slot holder.ref.slot).visit - base = idx := by
    rw [before.visit]
    omega
  constructor
  · rw [slot]
    exact tracks.start_le
  · rw [slot, count, same idx before.passed before.within, ← count]
    exact tracks.taken

theorem Rep.touch (rep : Rep st least) {place : Nat} {packet : Packet} (other : Packet)
    (data : Nat → UInt8) (found : st.packets[place]? = some packet) (pending : ¬ packet.ready)
    (sameLen : other.len = packet.len) (sameIdx : other.idx = packet.idx)
    (outside : ∀ address,
      (∀ idx < pktSize packet.len, (pos st.packets place + idx) % st.rbuf.size ≠ address) →
      data address = st.rbuf.data address)
    (inside : Holds st.rbuf.size data (pos st.packets place) other) :
    Rep (st.setPacket { st.rbuf with data } place other) least := by
  have cursors := rep.cursors
  constructor
  · exact rep.stored.touch found pending sameLen sameIdx outside inside
  · refine { cursors with pread := ?_, before := ?_ }
    · change st.rbuf.pread = pos (st.packets.set place other) least % _
      rw [pos_set found sameLen]
      exact cursors.pread
    · intro slot occupied
      obtain ⟨idx, order, before⟩ := cursors.before slot occupied
      exact ⟨idx, order, before.set found pending sameLen⟩
  · intro number holder held
    apply (rep.held number holder held).packets cursors { st.rbuf with data } _ rfl rfl
    intro _ passed _
    exact take_set_of_le (@passed_set _ _ _ _ other passed found pending).1

end Touch

section Reserve
variable {st : RunState} {least : Nat}

theorem mod_cases {first last size : Nat} (order : first ≤ last) (near : last < first + size) :
    last % size = first % size + (last - first) ∨ last % size + size = first % size +
    (last - first) := by
  have positive : 0 < size := by omega
  have small : first % size < size := Nat.mod_lt _ positive
  have sum : last % size = (first % size + (last - first)) % size := by
    rw [Nat.mod_add_mod, Nat.add_sub_cancel' order]
  by_cases wraps : first % size + (last - first) < size
  · left
    rw [sum, Nat.mod_eq_of_lt wraps]
  · right
    rw [sum, Nat.mod_eq_sub_mod (by omega), Nat.mod_eq_of_lt (by omega)]
    omega

theorem Rep.used (rep : Rep st least) : pos st.packets least ≤ pos st.packets st.packets.length ∧
        (st.packets = [] ∨ pos st.packets st.packets.length < pos st.packets least +
          st.rbuf.size) := by
  refine ⟨pos_mono rep.stored.least_le, ?_⟩
  by_cases empty : st.packets = []
  · exact .inl empty
  · exact .inr (rep.stored.room empty)

theorem pos_nil (idx : Nat) : pos [] idx = 0 := by
  rw [pos, offset, take_nil]
  rfl

/-- The free size is what a round leaves beside the packets in the ring. -/
theorem Rep.free_size (rep : Rep st least) : freeSize st.rbuf + 1 =
      (st.rbuf.size : Int) - (pos st.packets st.packets.length - pos st.packets least : Nat) := by
  obtain ⟨order, empty | near⟩ := rep.used
  · have read := rep.cursors.pread
    have write := rep.stored.pwrite
    rw [empty, pos_nil] at read write
    rw [empty, pos_nil, pos_nil, freeSize, read, write]
    simp
  · have read := rep.cursors.pread
    have write := rep.stored.pwrite
    rw [freeSize, read, write]
    obtain same | wrapped := mod_cases order near
    · rw [if_pos (by omega)]
      omega
    · rw [if_neg (by omega)]
      omega

theorem passed_snoc {packets : List Packet} {idx : Nat} (passed : Passed packets idx)
    (within : idx ≤ packets.length) (last : Packet) : Passed (packets ++ [last]) idx := by
  intro earlier packet found before
  obtain ⟨old, -⟩ | ⟨_, -⟩ := getElem_snoc found
  · exact passed earlier packet old before
  · omega

theorem Stored.reserve {rbuf : Ringbuf} {packets : List Packet} (stored : Stored rbuf packets least)
    {len : Nat} (small : len < 2 ^ 32)
    (room : pos packets packets.length + pktSize len < pos packets least + rbuf.size) :
    Stored (pktReserve rbuf (pktSize len)).1 (packets ++ [Packet.reserved rbuf.pwrite len])
    least := by
  have least_le := stored.least_le
  have total : pos (packets ++ [Packet.reserved rbuf.pwrite len]) (packets.length + 1) =
      pos packets packets.length + pktSize len := offset_snoc _
  constructor
  · rw [length_append]
    omega
  · change (rbuf.pwrite + pktSize len) % rbuf.size = _
    rw [length_append, length_singleton, total, stored.pwrite, Nat.mod_add_mod]
    rfl
  · intro _
    rw [length_append, length_singleton, total, pos_append least_le]
    exact room
  · intro idx packet found
    obtain ⟨old, within⟩ | ⟨here, new⟩ := getElem_snoc found
    · rw [pos_append within.le]
      exact stored.placed idx packet old
    · rw [here, new, pos_append le_rfl]
      exact stored.pwrite
  · exact passed_snoc stored.passed least_le _
  · intro idx packet found live
    obtain ⟨old, within⟩ | ⟨here, new⟩ := getElem_snoc found
    · rw [pos_append within.le]
      apply (stored.holds idx packet old live).congr
      intro _ _
      change copyIn rbuf.data rbuf.pwrite [pktFree] _ = _
      have before := pos_add_le old within
      have low : pos packets least ≤ pos packets idx := pos_mono live
      rw [copy_in_flag, Function.update_of_ne]
      rw [stored.pwrite]
      exact mod_ne_of_lt (by omega) (by omega)
    · rw [here, new, pos_append le_rfl]
      constructor
      · change copyIn rbuf.data rbuf.pwrite [pktFree] (pos packets packets.length % rbuf.size) =
          pktFree
        rw [copy_in_flag, ← stored.pwrite, Function.update_self]
      · exact nofun
      · exact nofun
      · intro ready
        exact absurd ready (by decide : ¬ pktFree &&& pktStateMask = pktReady)
      · exact small

theorem Rep.reserve (rep : Rep st least) {len : Nat} (small : len < 2 ^ 32)
    (room : (pktSize len : Int) ≤ freeSize st.rbuf) :
    Rep { st with
      rbuf := (pktReserve st.rbuf (pktSize len)).1
      packets := st.packets ++ [Packet.reserved (pktReserve st.rbuf (pktSize len)).2 len] }
        least := by
  have free := rep.free_size
  have cursors := rep.cursors
  constructor
  · exact rep.stored.reserve small (by omega)
  · refine { cursors with pread := ?_, before := ?_ }
    · rw [pos_append rep.stored.least_le]
      exact cursors.pread
    · intro slot occupied
      obtain ⟨idx, reached, before⟩ := cursors.before slot occupied
      refine ⟨idx, reached, before.visit, ?_, ?_, ?_⟩
      · rw [pos_append before.within]
        exact before.pread
      · rw [length_append]
        exact Nat.le_add_right_of_le before.within
      · exact passed_snoc before.passed before.within _
  · intro number holder held
    apply (rep.held number holder held).packets cursors (pktReserve st.rbuf (pktSize len)).1
      (st.packets ++ [Packet.reserved (pktReserve st.rbuf (pktSize len)).2 len]) rfl rfl
    intro _ _ within
    exact take_append_of_le_length within

end Reserve

end PolarDB.RingBuf
