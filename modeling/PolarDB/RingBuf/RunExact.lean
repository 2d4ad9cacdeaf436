import PolarDB.RingBuf.RunStep

/-!
# What a valid reference observes

A valid reference stands before a packet of the run. What it may read is exactly the packets
from there to the last one, and the packets it has read are those between its start and its
cursor, with the bytes that were written to them.
-/

namespace PolarDB.RingBuf

open Function Lib.Bytes Lib.Circular Lib.Offsets

section Reader
variable {st : RunState} {least idx : Nat} {ref : Ref} {packet : Packet}

theorem Holds.load_written {size place offset count : Nat} {data : Nat → UInt8}
    (holds : Holds size data place packet) {byteIndex : Nat} {byte : UInt8}
    (within : byteIndex < count) (written : packet.written (offset + byteIndex) = some byte) :
    (load size data (place + pktHdrSize + offset) count)[byteIndex]? = some byte := by
  have inside : byteIndex < (load size data (place + pktHdrSize + offset) count).length := by
    rwa [length_load]
  rw [List.getElem?_eq_getElem inside, getElem_load, add_assoc (place + pktHdrSize)]
  rw [(holds.written _ _ written).2]

variable (rep : Rep st least) (order : least ≤ idx)
  (before : Before st.rbuf.size st.base st.packets (st.rbuf.slot ref.slot) idx)
include rep order before

theorem Rep.avail :
    avail st.rbuf ref = (pos st.packets st.packets.length - pos st.packets idx : Nat) := by
  have later : pos st.packets idx ≤ pos st.packets st.packets.length := pos_mono before.within
  have low : pos st.packets least ≤ pos st.packets idx := pos_mono order
  have write := rep.stored.pwrite
  rw [RingBuf.avail, write, before.pread]
  obtain ⟨-, empty | _⟩ := rep.used
  · rw [empty, pos_nil, pos_nil]
    simp
  · obtain same | wrapped := mod_cases later (show _ < pos st.packets idx + st.rbuf.size by omega)
    · rw [if_neg (by omega)]
      omega
    · rw [if_pos (by omega)]
      omega

theorem Rep.next_exists : 0 < RingBuf.avail st.rbuf ref ↔ idx < st.packets.length := by
  rw [rep.avail order before]
  constructor
  · intro something
    by_contra none
    have last : idx = st.packets.length := by
      have within := before.within
      omega
    rw [last, Nat.sub_self] at something
    exact absurd something (Int.lt_irrefl _)
  · intro within
    have size := pkt_size_pos (st.packets[idx]).len
    have step := pos_add_le (List.getElem?_eq_getElem within) within
    omega

variable (found : st.packets[idx]? = some packet)
include found

theorem Rep.pread_len (set : packet.lenSet = true) : pktLen st.rbuf (st.rbuf.slot ref.slot).pread =
    packet.len := by
  have fits := rep.fits found order
  rw [pktSize, pktHdrSize] at fits
  rw [before.pread]
  exact (rep.stored.holds idx packet found order).pkt_len (by omega) set

theorem Rep.next_ready_pkt : (st.rbuf.data (st.rbuf.slot ref.slot).pread = packet.flag) ∧
      (packet.ready → nextReadyPkt st.rbuf ref = (packet.flag &&& pktTypeMask, packet.len)) ∧
      (¬ packet.ready → nextReadyPkt st.rbuf ref = (pktInvalidType, 0)) := by
  have holds := rep.stored.holds idx packet found order
  have flag : st.rbuf.data (st.rbuf.slot ref.slot).pread = packet.flag := by
    rw [before.pread, holds.flag]
  refine ⟨flag, ?_, ?_⟩
  · intro ready
    unfold nextReadyPkt
    dsimp only
    rw [flag, rep.pread_len order before found (holds.complete ready)]
    exact if_neg (not_not.mpr ready)
  · intro pending
    unfold nextReadyPkt
    dsimp only
    rw [flag]
    exact if_pos pending

theorem Rep.read_next_pkt (set : packet.lenSet = true) {offset want : Nat}
    (int : offset < 2 ^ 31) (inMemory : want < 2 ^ 63) :
    (packet.len ≤ offset → readNextPkt st.rbuf ref offset want = (-1, [])) ∧
      (offset < packet.len → readNextPkt st.rbuf ref offset want =
          (((min want (packet.len - offset) : Nat) : Int),
            load st.rbuf.size st.rbuf.data (pos st.packets idx + pktHdrSize + offset)
            (min want (packet.len - offset)))) := by
  have fits := rep.fits found order
  rw [pktSize, pktHdrSize] at fits
  have length := rep.pread_len order before found set
  constructor
  · intro behind
    exact read_next_pkt_refused length (by omega) (rep.stored.holds idx packet found order).small
      (by omega)
  · intro inside
    rw [read_next_pkt_eq_load length (by rw [pktSize, pktHdrSize]; omega) inside (by omega),
      before.pread, add_assoc, load_shift, ← add_assoc]

theorem Rep.next_pkt (ready : packet.ready) : Observes (nextPkt st.rbuf ref) packet := by
  have holds := rep.stored.holds idx packet found order
  have small := holds.small
  obtain ⟨-, whenReady, -⟩ := rep.next_ready_pkt order before found
  obtain ⟨empty, bytes⟩ := rep.read_next_pkt order before found (holds.complete ready)
    (show 0 < 2 ^ 31 by decide) (show packet.len < 2 ^ 63 by omega)
  unfold nextPkt
  rw [whenReady ready]
  by_cases none : packet.len = 0
  · have read := empty (by omega)
    rw [Nat.cast_zero] at read
    rw [read]
    refine ⟨rfl, none.symm, ?_⟩
    intro byteIndex byte written
    have within := (holds.written byteIndex byte written).1
    omega
  · have read := bytes (by omega)
    rw [Nat.cast_zero, Nat.sub_zero, min_self] at read
    rw [read]
    refine ⟨rfl, length_load _ _, ?_⟩
    intro byteIndex byte written
    apply holds.load_written (holds.written byteIndex byte written).1
    rwa [zero_add]

end Reader

section Advance
variable {st : RunState} {least : Nat}

theorem taken_snoc {packets : List Packet} {taken : List (UInt8 × List UInt8)} {start idx : Nat}
    {packet : Packet} {observed : UInt8 × List UInt8} (order : start ≤ idx)
    (found : packets[idx]? = some packet)
    (old : List.Forall₂ Observes taken ((packets.take idx).drop start))
    (new : Observes observed packet) : List.Forall₂ Observes (taken ++ [observed])
    ((packets.take (idx + 1)).drop start) := by
  have within : idx < packets.length := (List.getElem?_eq_some_iff.mp found).1
  have long : start ≤ (packets.take idx).length := by
    rw [List.length_take]
    omega
  rw [List.take_add_one, found, Option.toList_some, List.drop_append_of_le_length long]
  exact List.rel_append old (List.Forall₂.cons new List.Forall₂.nil)

theorem Rep.cursor (rep : Rep st least) {number : Nat} {holder : Holder}
    (held : st.holders number = some holder) (valid : validRef st.rbuf holder.ref = true) :
    st.rbuf.occupied holder.ref.slot = true ∧ refMatch st.rbuf holder.ref = true ∧
        ∃ idx, least ≤ idx ∧ Before st.rbuf.size st.base st.packets (st.rbuf.slot holder.ref.slot)
        idx := by
  have known := rep.held number holder held
  rw [validRef, Bool.and_eq_true] at valid
  obtain ⟨occupied, before⟩ :=
    rep.cursors.before_of_match (by rw [known.refNum]; exact known.positive) valid.2
  exact ⟨occupied, valid.2, before⟩

theorem Rep.update_ref_slot (rep : Rep st least) {ref : Ref} {idx : Nat} {packet : Packet}
    (order : least ≤ idx)
    (before : Before st.rbuf.size st.base st.packets (st.rbuf.slot ref.slot) idx)
    (found : st.packets[idx]? = some packet) (ready : packet.ready) :
    Before st.rbuf.size st.base st.packets ((updateRef st.rbuf ref).slot ref.slot) (idx + 1) := by
  have length :=
    rep.pread_len order before found ((rep.stored.holds idx packet found order).complete ready)
  have slot : (updateRef st.rbuf ref).slot ref.slot = { st.rbuf.slot ref.slot with
      pread := ((st.rbuf.slot ref.slot).pread + pktHdrSize + packet.len) % st.rbuf.size
      visit := (st.rbuf.slot ref.slot).visit + 1 } := by
    rw [← length]
    exact update_self _ _ _
  rw [slot]
  constructor
  · change (st.rbuf.slot ref.slot).visit + 1 = st.base + (idx + 1)
    rw [before.visit, add_assoc]
  · rw [before.pread, pos_succ found, add_assoc, Nat.mod_add_mod, pktSize, add_comm pktHdrSize]
  · exact (List.getElem?_eq_some_iff.mp found).1
  · intro earlier other known _
    by_cases here : earlier = idx
    · rw [here, found] at known
      rw [← Option.some.inj known]
      exact ready
    · exact before.passed earlier other known (by omega)

theorem Rep.update_ref (rep : Rep st least) {number : Nat} {holder : Holder}
    (held : st.holders number = some holder) (valid : validRef st.rbuf holder.ref = true)
    (ready : NextReady st.rbuf holder.ref) :
    Rep (st.setHolder (updateRef st.rbuf holder.ref)
      { holder with taken := holder.taken ++ [nextPkt st.rbuf holder.ref] }) least := by
  obtain ⟨occupied, matched, idx, order, before⟩ := rep.cursor held valid
  have known := rep.held number holder held
  have within := (rep.next_exists order before).mp ready.1
  have found : st.packets[idx]? = some st.packets[idx] := List.getElem?_eq_getElem within
  obtain ⟨flag, -, -⟩ := rep.next_ready_pkt order before found
  have isReady : (st.packets[idx]).ready := by
    have bit := ready.2
    rwa [flag] at bit
  have moved := rep.update_ref_slot order before found isReady
  have sameNumber : ((updateRef st.rbuf holder.ref).slot holder.ref.slot).refNum =
      (st.rbuf.slot holder.ref.slot).refNum := by
    change (update st.rbuf.slot holder.ref.slot _ holder.ref.slot).refNum = _
    rw [update_self]
  have slots : (updateRef st.rbuf holder.ref).slot = update st.rbuf.slot holder.ref.slot
      ((updateRef st.rbuf holder.ref).slot holder.ref.slot) := by
    simp only [updateRef, update_self]
  refine ⟨rep.stored.congr rfl rfl rfl, ?_, ?_⟩
  · have changed := rep.cursors.replace_slot sameNumber fun _ => ⟨idx + 1, by omega, moved⟩
    rwa [← slots] at changed
  · intro other holder' found'
    change update st.holders holder.ref.refNum (some _) other = some holder' at found'
    rw [update_apply] at found'
    split_ifs at found' with here
    · obtain rfl := Option.some.inj found'
      rw [known.refNum] at here
      subst here
      refine { known with tracks := ?_ }
      intro _
      obtain ⟨start_le, taken⟩ := known.tracks matched
      have visit := moved.visit
      rw [before.visit] at start_le taken
      constructor
      · change st.base + holder.start ≤ ((updateRef st.rbuf holder.ref).slot holder.ref.slot).visit
        omega
      · change List.Forall₂ Observes (holder.taken ++ [nextPkt st.rbuf holder.ref])
          ((st.packets.take
            (((updateRef st.rbuf holder.ref).slot holder.ref.slot).visit - st.base)).drop
            holder.start)
        rw [Nat.add_sub_cancel_left] at taken
        rw [visit, Nat.add_sub_cancel_left]
        exact taken_snoc (by omega) found taken (rep.next_pkt order before found isReady)
    · rw [known.refNum] at here
      apply (rep.held other holder' found').set_slot slots le_rfl
      rw [sameNumber, (ref_match_iff.mp matched).2, known.refNum]
      exact fun same => absurd same.symm here

end Advance

section Runs
variable {st next : RunState} {least : Nat}

theorem rep_start (memory : Ringbuf) (size : Nat) : Rep (.start memory size) 0 := by
  constructor
  · constructor
    · exact le_rfl
    · exact (Nat.zero_mod size).symm
    · intro nonempty
      exact absurd rfl nonempty
    · exact nofun
    · exact nofun
    · exact nofun
  · constructor
    · rfl
    · exact (Nat.zero_mod size).symm
    · exact nofun
    · exact nofun
    · exact nofun
    · intro _ _
      rfl
  · exact nofun

theorem Rep.step (rep : Rep st least) (step : Step st next) : ∃ further, Rep next further := by
  cases step with
  | reserve len small room => exact ⟨least, rep.reserve small room⟩
  | setLength idx packet found pending => exact ⟨least, rep.set_length found pending⟩
  | write idx packet offset buf found pending lenSet int inMemory accepted =>
    exact ⟨least, rep.write found pending lenSet int inMemory accepted⟩
  | writeRefused idx packet _ _ found pending _ refused =>
    rw [write_refused refused]
    exact ⟨least, rep⟩
  | setFlag _ _ _ found pending complete => exact ⟨least, rep.set_flag found pending complete⟩
  | newRef _ _ _ created => exact ⟨least, rep.new_ref created⟩
  | releaseRef number holder held => exact rep.release_ref held
  | getRef number holder held attached => exact ⟨least, rep.set_strong holder.ref true⟩
  | clearRef number holder held => exact ⟨least, rep.set_strong holder.ref false⟩
  | updateRef _ _ held valid ready => exact ⟨least, rep.update_ref held valid ready⟩
  | updateKeepData => exact rep.update_pread
  | freeUp len => exact rep.free_up len

theorem rep_of_run {memory : Ringbuf} {size : Nat} (run : Run (.start memory size) st) :
    ∃ least, Rep st least := by
  induction run with
  | refl => exact ⟨0, rep_start memory size⟩
  | tail _ step ih =>
    obtain ⟨_, rep⟩ := ih
    exact rep.step step

end Runs

section Bytes
variable {st next : RunState} {least : Nat}

section
variable (rbuf : Ringbuf)
include rbuf

theorem update_pread_data : (updatePread rbuf).1.data = rbuf.data := by
  unfold updatePread
  split
  · rfl
  · split_ifs <;> rfl

theorem evict_ref_data : (evictRef rbuf).1.data = rbuf.data := by
  unfold evictRef
  split
  · rfl
  · split_ifs <;> rfl

theorem free_up_data (len : Nat) : (freeUpRound rbuf len).1.data = rbuf.data := by
  unfold freeUpRound
  split_ifs
  · rfl
  · dsimp only
    split_ifs
    · exact update_pread_data rbuf
    · rw [evict_ref_data, update_pread_data]

theorem release_ref_data (ref : Ref) : (releaseRef rbuf ref).1.data = rbuf.data := by
  unfold releaseRef
  split_ifs
  · rfl
  · exact update_pread_data _
  · rfl

theorem set_strong_data (ref : Ref) (strong : Bool) : (setStrong rbuf ref strong).1.data =
    rbuf.data := by
  unfold setStrong
  split_ifs <;> rfl

end

/-- The address holds a byte between the ring's read position and its write position. -/
def InUse (st : RunState) (least address : Nat) : Prop :=
  ∃ position, pos st.packets least ≤ position ∧ position < pos st.packets st.packets.length ∧
    position % st.rbuf.size = address

/-- The step works on a packet that is not ready and that holds the address. -/
def OwnPacket (st next : RunState) (address : Nat) : Prop :=
  ∃ place packet other, st.packets[place]? = some packet ∧ ¬ packet.ready ∧
    next = st.setPacket next.rbuf place other ∧ InPacket st place packet address

/-- A byte in use changes only by a call on the packet that it belongs to. -/
theorem Rep.kept (rep : Rep st least) (step : Step st next) {address : Nat}
    (used : InUse st least address) : next.rbuf.data address = st.rbuf.data address ∨
    OwnPacket st next address := by
  cases step with
  | reserve len =>
    left
    obtain ⟨_, _, high, same⟩ := used
    have around := rep.stored.room (by rintro empty; rw [empty, pos_nil] at high; omega)
    change copyIn st.rbuf.data st.rbuf.pwrite [pktFree] address = _
    rw [copy_in_flag, update_of_ne]
    rw [← same, rep.stored.pwrite]
    exact mod_ne_of_lt high (by omega)
  | setLength idx packet found pending =>
    by_cases own : InPacket st idx packet address
    · exact .inr ⟨idx, packet, _, found, pending, rfl, own⟩
    · exact .inl (rep.set_length_outside found pending fun index within same => own ⟨index,
        within, same⟩)
  | write idx packet offset buf found pending lenSet int inMemory accepted =>
    by_cases own : InPacket st idx packet address
    · exact .inr ⟨idx, packet, _, found, pending, rfl, own⟩
    · exact .inl (rep.write_outside found pending lenSet int inMemory accepted
        fun index within same => own ⟨index, within, same⟩)
  | writeRefused idx packet _ _ found pending _ refused =>
    left
    rw [write_refused refused]
  | setFlag idx packet _ found pending =>
    by_cases own : InPacket st idx packet address
    · exact .inr ⟨idx, packet, _, found, pending, rfl, own⟩
    · exact .inl (rep.set_flag_outside found fun index within same => own ⟨index, within, same⟩)
  | newRef _ _ _ created =>
    obtain ⟨_, -, rfl, -⟩ := new_ref_eq created
    exact .inl rfl
  | releaseRef number holder held => exact .inl (congrFun (release_ref_data _ _) address)
  | getRef | clearRef => exact .inl (congrFun (set_strong_data _ _ _) address)
  | updateRef => exact .inl rfl
  | updateKeepData => exact .inl (congrFun (update_pread_data _) address)
  | freeUp => exact .inl (congrFun (free_up_data _ _) address)

end Bytes

section Safety

/-- What a reference that stands before the packet `idx` observes through the calls of a
reader, and what it has read so far. -/
structure Observation (st : RunState) (holder : Holder) (idx : Nat) : Prop where
  within : idx ≤ st.packets.length
  pread : (st.rbuf.slot holder.ref.slot).pread = pos st.packets idx % st.rbuf.size
  start_le : holder.start ≤ idx
  taken : List.Forall₂ Observes holder.taken ((st.packets.take idx).drop holder.start)
  avail : avail st.rbuf holder.ref = (pos st.packets st.packets.length - pos st.packets idx : Nat)
  more : 0 < RingBuf.avail st.rbuf holder.ref ↔ idx < st.packets.length
  ready : ∀ packet, st.packets[idx]? = some packet → packet.ready →
    nextReadyPkt st.rbuf holder.ref = (packet.flag &&& pktTypeMask, packet.len) ∧
      Observes (nextPkt st.rbuf holder.ref) packet ∧
      ((updateRef st.rbuf holder.ref).slot holder.ref.slot).pread = pos st.packets (idx + 1) %
      st.rbuf.size
  pending : ∀ packet, st.packets[idx]? = some packet → ¬ packet.ready →
    nextReadyPkt st.rbuf holder.ref = (pktInvalidType, 0)
  read : ∀ packet (offset want : Nat), st.packets[idx]? = some packet → packet.lenSet = true →
    offset < 2 ^ 31 → want < 2 ^ 63 → offset < packet.len →
    ∃ bytes : List UInt8, readNextPkt st.rbuf holder.ref offset want =
      ((bytes.length : Int), bytes) ∧ bytes.length = min want (packet.len - offset) ∧
      ∀ byteIndex byte, byteIndex < bytes.length → packet.written (offset + byteIndex) = some byte →
        bytes[byteIndex]? = some byte
  refused : ∀ packet (offset want : Nat), st.packets[idx]? = some packet → packet.lenSet = true →
    offset < 2 ^ 31 → want < 2 ^ 63 → packet.len ≤ offset →
    readNextPkt st.rbuf holder.ref offset want = (-1, [])

/-- The read position of the ring: no cursor is behind it, and the write position does not
come around to it. -/
structure LeastRead (st : RunState) (least : Nat) : Prop where
  pread : st.rbuf.pread = pos st.packets least % st.rbuf.size
  minVisit : st.rbuf.minVisit = st.base + least
  pwrite : st.rbuf.pwrite = pos st.packets st.packets.length % st.rbuf.size
  round : st.packets = [] ∨ pos st.packets st.packets.length < pos st.packets least + st.rbuf.size
  slots : ∀ slot, st.rbuf.occupied slot = true → st.rbuf.minVisit ≤ (st.rbuf.slot slot).visit ∧
    (st.rbuf.slot slot).pread = pos st.packets ((st.rbuf.slot slot).visit - st.base) % st.rbuf.size

variable {st : RunState} {least : Nat}

theorem Rep.observation (rep : Rep st least) {number : Nat} {holder : Holder}
    (held : st.holders number = some holder) (valid : validRef st.rbuf holder.ref = true) :
    ∃ idx, least ≤ idx ∧ Observation st holder idx := by
  obtain ⟨-, matched, idx, order, before⟩ := rep.cursor held valid
  obtain ⟨start_le, taken⟩ := (rep.held number holder held).tracks matched
  rw [before.visit] at start_le taken
  rw [Nat.add_sub_cancel_left] at taken
  refine ⟨idx, order, ?_⟩
  constructor
  · exact before.within
  · exact before.pread
  · omega
  · exact taken
  · exact rep.avail order before
  · exact rep.next_exists order before
  · intro packet found ready
    exact ⟨(rep.next_ready_pkt order before found).2.1 ready, rep.next_pkt order before found ready,
      (rep.update_ref_slot order before found ready).pread⟩
  · intro packet found pending
    exact (rep.next_ready_pkt order before found).2.2 pending
  · intro packet offset want found set int inMemory inside
    refine ⟨load st.rbuf.size st.rbuf.data (pos st.packets idx + pktHdrSize + offset)
      (min want (packet.len - offset)), ?_, length_load _ _, ?_⟩
    · rw [length_load]
      exact (rep.read_next_pkt order before found set int inMemory).2 inside
    · intro _ _ within written
      rw [length_load] at within
      exact (rep.stored.holds idx packet found order).load_written within written
  · intro _ _ _ found set int inMemory behind
    exact (rep.read_next_pkt order before found set int inMemory).1 behind

theorem Rep.least_read (rep : Rep st least) : LeastRead st least := by
  constructor
  · exact rep.cursors.pread
  · exact rep.cursors.minVisit
  · exact rep.stored.pwrite
  · exact rep.used.2
  · intro slot occupied
    obtain ⟨_, _, before⟩ := rep.cursors.before slot occupied
    rw [rep.cursors.minVisit, before.visit, Nat.add_sub_cancel_left]
    exact ⟨by omega, before.pread⟩

/-- In every state of every run, each valid reference observes exactly the packets reserved
after its start, the bytes in use change only by calls on their own packet, and the write
position never passes the read position of the ring. -/
theorem ring_run_safe (memory : Ringbuf) (size : Nat) {st : RunState}
    (run : Run (RunState.start memory size) st) : ∃ least, LeastRead st least ∧
      (∀ number holder, st.holders number = some holder → validRef st.rbuf holder.ref = true →
        ∃ idx, least ≤ idx ∧ Observation st holder idx) ∧
      ∀ next, Step st next → ∀ address, InUse st least address →
        next.rbuf.data address = st.rbuf.data address ∨ OwnPacket st next address := by
  obtain ⟨least, rep⟩ := rep_of_run run
  refine ⟨least, rep.least_read, ?_, ?_⟩
  · intro _ _ held valid
    exact rep.observation held valid
  · intro _ step _ used
    exact rep.kept step used

def zeroMemory : Ringbuf :=
  { pread := 0, pwrite := 0, refNum := 0, occupied := fun _ => false, slot := fun _ => Slot.zero,
    minVisit := 0, size := 0, data := fun _ => 0 }

theorem not_ready_of_free {packet : Packet} (free : packet.flag = pktFree) : ¬ packet.ready := by
  intro ready
  rw [Packet.ready, free] at ready
  cases ready

theorem one_packet_run : ∃ st, Run (.start zeroMemory 32) st ∧ st.packets.length = 1 ∧
    ∃ holder, st.holders 1 = some holder ∧ validRef st.rbuf holder.ref = true := by
  have reserved : Run (.start zeroMemory 32) _ :=
    .single (.reserve (.start zeroMemory 32) 2 (by decide) (by decide))
  have lengthSet : Run (.start zeroMemory 32) _ :=
    reserved.tail (.setLength _ 0 _ rfl (not_ready_of_free rfl))
  have written : Run (.start zeroMemory 32) _ :=
    lengthSet.tail (.write _ 0 _ 0 [7, 8] rfl (not_ready_of_free rfl) rfl
      (by decide) (by decide) (by decide))
  have ready : Run (.start zeroMemory 32) _ :=
    written.tail (.setFlag _ 0 _ (pktWalMeta ||| pktReady) rfl (not_ready_of_free rfl) fun _ => rfl)
  have held : Run (.start zeroMemory 32) _ := ready.tail (.newRef _ true _ _ rfl)
  exact ⟨_, held, rfl, _, rfl, rfl⟩

/-- The reference of that run stands before its packet. -/
theorem ring_run_safe_one_packet : ∃ st least holder idx, Run (RunState.start zeroMemory 32) st ∧
    st.packets.length = 1 ∧ LeastRead st least ∧ st.holders 1 = some holder ∧
    Observation st holder idx ∧ least ≤ idx ∧
    ∀ next, Step st next → ∀ address, InUse st least address →
      next.rbuf.data address = st.rbuf.data address ∨ OwnPacket st next address := by
  obtain ⟨st, run, count, holder, held, valid⟩ := one_packet_run
  obtain ⟨least, leastRead, observes, kept⟩ := ring_run_safe zeroMemory 32 run
  obtain ⟨idx, behind, observation⟩ := observes 1 holder held valid
  exact ⟨st, least, holder, idx, run, count, leastRead, held, observation, behind, kept⟩

end Safety

end PolarDB.RingBuf
