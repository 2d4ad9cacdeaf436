import PolarDB.RingBuf.RunExact

/-!
# Access to the bytes of a packet

A packet gets its length, its data in parts and its flag, and is then read through a
reference that stands at it. Lengths are `size_t` values and offsets `int` values: the sum of
the two can wrap, and a call is then neither clipped nor refused.
-/

namespace PolarDB.RingBuf

open Function List Lib.Bytes Lib.Circular

/-- The writes of the parts of `bytes` given by their offsets and lengths. -/
def writeParts (rbuf : Ringbuf) (idx : Nat) (bytes : List UInt8) (parts : List (Nat × Nat)) :
    Ringbuf :=
  parts.foldl (fun rbuf part => (pktWrite rbuf idx part.1 ((bytes.drop part.1).take part.2)).1) rbuf

/-- The packet at `idx` gets its length, its data part by part and its flag. -/
def writePacket (rbuf : Ringbuf) (idx : Nat) (flag : UInt8) (bytes : List UInt8)
    (parts : List (Nat × Nat)) : Ringbuf :=
  setPktFlag (writeParts (setPktLength rbuf idx bytes.length) idx bytes parts) idx flag

/-- Every position of the data is in one of the parts, and no part goes beyond the data. -/
structure Parts (parts : List (Nat × Nat)) (len : Nat) : Prop where
  inside : ∀ part ∈ parts, part.1 + part.2 ≤ len
  covered : ∀ index < len, ∃ part ∈ parts, part.1 ≤ index ∧ index < part.1 + part.2

/-- What a read of `want` bytes from `offset` on is to return: the bytes up to the end of the
packet. -/
def clipped (bytes : List UInt8) (offset : Int) (want : Nat) : Int × List UInt8 :=
  if 0 ≤ offset ∧ offset < bytes.length then
    ((min want (bytes.length - offset.toNat) : Nat), (bytes.drop offset.toNat).take want)
  else (-1, [])

/-- The sum of an offset inside the packet and a length wraps. -/
def Wraps (len : Nat) (offset : Int) (count : Nat) : Prop := 0 ≤ offset ∧ offset < len ∧
    2 ^ 64 ≤ offset + count
deriving Decidable

section
variable {rbuf : Ringbuf} {idx : Nat} {bytes : List UInt8}

/-- The packet in a memory while its data is written, `done` being the positions written so far. -/
structure Filling (rbuf : Ringbuf) (idx : Nat) (bytes : List UInt8) (done : Nat → Prop)
    (data : Nat → UInt8) (packet : Packet) : Prop where
  holds : Holds rbuf.size data idx packet
  len : packet.len = bytes.length
  lenSet : packet.lenSet = true
  written : ∀ index, done index → packet.written index = bytes[index]?
  outside : ∀ address, (∀ index < pktSize bytes.length, (idx + index) % rbuf.size ≠ address) →
    data address = rbuf.data address

variable (fits : bytes.length + 5 ≤ rbuf.size)
include fits

theorem filling_set_pkt_length (idx : Nat) (small : bytes.length < 2 ^ 32) :
    ∃ packet, Filling rbuf idx bytes (fun _ => False)
    (setPktLength rbuf idx bytes.length).data packet := by
  rw [set_pkt_length_data (by omega)]
  let packet : Packet :=
    { Packet.reserved idx bytes.length with flag := rbuf.data (idx % rbuf.size) }
  have stored := @Holds.store_length rbuf.size idx rbuf.data packet rfl nofun small fits
  refine ⟨packet.setLength, stored, rfl, rfl, nofun, ?_⟩
  intro address
  exact store_outside (by rw [length_le_bytes]; omega)

theorem read_next_pkt_clipped_iff {ref : Ref} {offset : Int} {want : Nat}
    (length : pktLen rbuf idx = bytes.length) (data : payload rbuf idx bytes.length = bytes)
    (reader : (rbuf.slot ref.slot).pread = idx) (int : -2 ^ 31 ≤ offset ∧ offset < 2 ^ 31)
    (sized : want < 2 ^ 64) : readNextPkt rbuf ref offset want = clipped bytes offset want ↔
    ¬ Wraps bytes.length offset want := by
  have small : bytes.length < 2 ^ 32 := by
    rw [← length]
    exact pkt_len_lt (by omega)
  rw [← reader] at length data
  by_cases inside : 0 ≤ offset ∧ offset < bytes.length
  · obtain ⟨start, rfl⟩ := Int.eq_ofNat_of_zero_le inside.1
    have before : start < bytes.length := by omega
    rw [clipped, if_pos inside, Wraps]
    by_cases wraps : 2 ^ 64 ≤ start + want
    · apply iff_of_false _ (by omega)
      intro same
      have count := congrArg Prod.fst same
      rw [read_next_pkt_wraps length small before wraps sized] at count
      dsimp only at count
      omega
    · apply iff_of_true _ (by omega)
      rw [read_next_pkt_eq_load length fits before (by omega),
        load_part (show start + _ ≤ bytes.length by omega)]
      change (_, ((payload rbuf _ _).drop _).take _) = _
      rw [data, ← length_drop, ← take_eq_take_min, length_drop, Int.toNat_natCast]
  · rw [clipped, if_neg inside, read_next_pkt_refused length int small (by omega)]
    exact iff_of_true rfl fun wraps => inside ⟨wraps.1, wraps.2.1⟩

variable (position : idx < rbuf.size)
include position

theorem Filling.pkt_len {data : Nat → UInt8} {done : Nat → Prop} {packet : Packet}
    (filling : Filling rbuf idx bytes done data packet) :
    pktLen { rbuf with data } idx = bytes.length := by
  have holds : Holds ({ rbuf with data } : Ringbuf).size data idx packet := filling.holds
  have length := holds.pkt_len (show 4 ≤ rbuf.size by omega) filling.lenSet
  rwa [Nat.mod_eq_of_lt position, filling.len] at length

theorem Filling.write {data : Nat → UInt8} {done : Nat → Prop} {packet : Packet}
    (filling : Filling rbuf idx bytes done data packet) {offset count : Nat}
    (part : offset + count ≤ bytes.length) : ∃ after packet',
      (pktWrite { rbuf with data } idx offset ((bytes.drop offset).take count)).1 =
      { rbuf with data := after } ∧
        Filling rbuf idx bytes (fun index => done index ∨ offset ≤ index ∧ index < offset + count)
        after packet' := by
  have length := filling.pkt_len fits position
  have small := filling.holds.small
  have long : ((bytes.drop offset).take count).length = count := by
    rw [length_take, length_drop]
    omega
  rw [filling.len] at small
  by_cases before : offset < bytes.length
  · rw [pkt_write_eq_store length fits before (by omega)]
    refine ⟨_, _, rfl,
      filling.holds.store_data (by rw [filling.len]; exact fits) (by rw [filling.len]; omega),
      filling.len, filling.lenSet, ?_, ?_⟩
    · intro index reached
      simp only [Packet.write, long]
      split_ifs with here
      · rw [getElem?_take_of_lt (by omega), getElem?_drop, Nat.add_sub_cancel' here.1]
      · exact filling.written index (reached.resolve_right here)
    · intro address outside
      rw [add_assoc]
      exact (store_outside (by rw [pktHdrSize]; omega) outside).trans
        (filling.outside address outside)
  · -- only an empty part can start at the end of the data
    have refused : pktWrite { rbuf with data } idx offset ((bytes.drop offset).take count) =
      (_, -1) :=
      (pkt_write_refused_iff length small (by omega) (by omega)).mpr (.inr (.inl (by omega)))
    refine ⟨data, packet, congrArg Prod.fst refused, { filling with written := ?_ }⟩
    intro index reached
    exact filling.written index (reached.resolve_right (by omega))

theorem Filling.write_parts (parts : List (Nat × Nat)) :
    ∀ (done : Nat → Prop) (data : Nat → UInt8) (packet : Packet),
    Filling rbuf idx bytes done data packet → (∀ part ∈ parts, part.1 + part.2 ≤ bytes.length) →
    ∃ after packet', writeParts { rbuf with data } idx bytes parts = { rbuf with data := after } ∧
      Filling rbuf idx bytes
        (fun index => done index ∨ ∃ part ∈ parts, part.1 ≤ index ∧ index < part.1 + part.2) after
        packet' := by
  induction parts with
  | nil =>
    intro done data packet filling _
    refine ⟨data, packet, rfl, ?_⟩
    simpa using filling
  | cons part parts ih =>
    intro done data packet filling inside
    obtain ⟨first, rest⟩ := forall_mem_cons.mp inside
    obtain ⟨middle, packet', wrote, next⟩ := filling.write fits position first
    obtain ⟨after, last, run, filled⟩ := ih _ middle packet' next rest
    refine ⟨after, last, ?_, ?_⟩
    · rw [writeParts, foldl_cons, wrote]
      exact run
    · simpa only [exists_mem_cons_iff, or_assoc] using filled

theorem write_packet_stored (flag : UInt8) (small : bytes.length < 2 ^ 32)
    {parts : List (Nat × Nat)} (whole : Parts parts bytes.length) :
    ∃ data, writePacket rbuf idx flag bytes parts = { rbuf with data } ∧
      (pktLen { rbuf with data } idx = bytes.length ∧ data idx = flag) ∧
      payload { rbuf with data } idx bytes.length = bytes ∧
        ∀ address, (∀ index < pktSize bytes.length, (idx + index) % rbuf.size ≠ address) →
        data address = rbuf.data address := by
  obtain ⟨_, opened⟩ := filling_set_pkt_length fits idx small
  obtain ⟨data, packet, run, filled⟩ := Filling.write_parts fits position parts _ _ _ opened
    whole.inside
  have stored : Filling rbuf idx bytes (· < bytes.length) (update data (idx % rbuf.size) flag)
    (packet.setFlag flag) := by
    refine ⟨filled.holds.store_flag (by rw [filled.len]; exact fits) fun _ => filled.lenSet,
      filled.len, filled.lenSet, ?_, ?_⟩
    · exact fun index within => filled.written index (.inr (whole.covered index within))
    · intro address outside
      have apart := outside 0 (pkt_size_pos _)
      rw [add_zero] at apart
      rw [update_of_ne apart.symm, filled.outside address outside]
  have flagged : writePacket rbuf idx flag bytes parts =
    { rbuf with data := update data (idx % rbuf.size) flag } := by
    rw [Nat.mod_eq_of_lt position]
    apply Eq.trans (congrArg (setPktFlag · idx flag) run)
    exact congrArg (fun data => { rbuf with data }) (copy_in_flag flag)
  refine ⟨_, flagged, ⟨stored.pkt_len fits position, ?_⟩, ?_, stored.outside⟩
  · have set := stored.holds.flag
    rwa [Nat.mod_eq_of_lt position] at set ⊢
  · apply ext_getElem (length_load _ _)
    intro index _ within
    have value := stored.written index within
    rw [getElem?_eq_getElem within] at value
    exact (getElem_load _).trans (stored.holds.written index _ value).2

/-- The packet with `flag` and `bytes` at `idx` of `now`, a ring that was `rbuf` before: what is
stored, what a reference at the packet reads, and that no write goes beyond its end. -/
structure PacketExact (rbuf now : Ringbuf) (idx : Nat) (flag : UInt8) (bytes : List UInt8)
    (ref : Ref) (reads : List (Int × Nat)) (writes : List (Int × List UInt8)) : Prop where
  length : pktLen now idx = bytes.length
  flag : now.data idx = flag
  outside : ∀ address, (∀ index < pktSize bytes.length, (idx + index) % rbuf.size ≠ address) →
    now.data address = rbuf.data address
  read : ∀ read ∈ reads, readNextPkt now ref read.1 read.2 = clipped bytes read.1 read.2
  refused : ∀ write ∈ writes, write.1 < 0 ∨ bytes.length < write.1 + write.2.length →
    ∀ ring, pktLen ring idx = bytes.length → pktWrite ring idx write.1 write.2 = (ring, -1)

/-- A packet that is written part by part, wherever it wraps, is read back exactly, by every
sequence of reads and with every other byte of the ring kept, unless the sum of an offset inside
the packet and the length of a call wraps. -/
theorem packet_access_exact_iff {flag : UInt8} {parts : List (Nat × Nat)} {ref : Ref}
    {reads : List (Int × Nat)} {writes : List (Int × List UInt8)} (small : bytes.length < 2 ^ 32)
    (whole : Parts parts bytes.length) (reader : (rbuf.slot ref.slot).pread = idx)
    (readable : ∀ read ∈ reads, (-2 ^ 31 ≤ read.1 ∧ read.1 < 2 ^ 31) ∧ read.2 < 2 ^ 64)
    (writable :
      ∀ write ∈ writes, (-2 ^ 31 ≤ write.1 ∧ write.1 < 2 ^ 31) ∧ write.2.length < 2 ^ 64) :
    PacketExact rbuf (writePacket rbuf idx flag bytes parts) idx flag bytes ref reads writes ↔
      (∀ read ∈ reads, ¬ Wraps bytes.length read.1 read.2) ∧
      ∀ write ∈ writes, ¬ Wraps bytes.length write.1 write.2.length := by
  obtain ⟨data, written, ⟨length, flagged⟩, stored, outside⟩ :=
    write_packet_stored fits position flag small whole
  have room : bytes.length + 5 ≤ ({ rbuf with data } : Ringbuf).size := fits
  have exactly (read) (mem : read ∈ reads) :=
    read_next_pkt_clipped_iff room length stored reader (readable read mem).1 (readable read mem).2
  rw [written]
  constructor
  · intro holds
    refine ⟨fun read mem => (exactly read mem).mp (holds.read read mem), ?_⟩
    rintro write mem ⟨start, before, wrapped⟩
    obtain ⟨int, sized⟩ := writable write mem
    have refused := holds.refused write mem (by omega) _ length
    rw [pkt_write_refused_iff length small (by omega) sized] at refused
    omega
  · rintro ⟨readsFit, writesFit⟩
    refine ⟨length, flagged, outside, fun read mem => (exactly read mem).mpr (readsFit read mem),
      ?_⟩
    intro write mem exceeds ring sameLength
    obtain ⟨int, sized⟩ := writable write mem
    have fit := writesFit write mem
    rw [Wraps] at fit
    rw [pkt_write_refused_iff sameLength small (by omega) sized]
    omega

end

/-- A ring of 8 bytes whose memory is zero, with a reference that stands at 6. -/
def smallRing : Ringbuf :=
  { pread := 6, pwrite := 6, refNum := 1, occupied := fun slot => slot == 0,
    slot := fun _ => { strong := true, pread := 6, visit := 0, refNum := 1 }, minVisit := 0, size :=
    8, data := fun _ => 0 }

def smallRef : Ref := { attached := true, refNum := 1, slot := 0, strong := true }

theorem wrapped_packet_exact :
    PacketExact smallRing (writePacket smallRing 6 0x11 [7, 9] [(1, 1), (0, 1)]) 6 0x11 [7, 9]
      smallRef [(0, 2), (1, 5), (-1, 1)] [(1, [3, 4])] :=
  (packet_access_exact_iff (by decide) (by decide) (by decide) ⟨by decide, by decide⟩ rfl
    (by decide) (by decide)).mpr ⟨by decide, by decide⟩

/-- The sum 1 + (2^64 - 1) is 0 in a `size_t`: the read is not clipped. -/
theorem read_not_clipped : ¬ PacketExact smallRing (writePacket smallRing 6 0x11 [7, 9] [(0, 2)]) 6
      0x11 [7, 9] smallRef [(1, 2 ^ 64 - 1)] [] := by
  intro stored
  have count := congrArg Prod.fst (stored.read _ (mem_singleton_self _))
  cases count

end PolarDB.RingBuf
