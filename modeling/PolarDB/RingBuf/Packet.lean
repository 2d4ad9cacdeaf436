import PolarDB.RingBuf.Ring

/-!
# The bytes of one packet

What the packet operations of the ring do to the data of a packet whose length is set,
wherever in the ring the packet starts and wherever it wraps.
-/

namespace PolarDB.RingBuf

open Function List Lib.Bytes Lib.Circular

/-- The first `len` bytes of the data of the packet at `idx`. -/
def payload (rbuf : Ringbuf) (idx len : Nat) : List UInt8 :=
  load rbuf.size rbuf.data (idx + pktHdrSize) len

/-- The ring after `bytes` were put at the front of the data of the packet at `idx`. -/
def putPayload (rbuf : Ringbuf) (idx : Nat) (bytes : List UInt8) : Ringbuf :=
  { rbuf with data := store rbuf.size rbuf.data (idx + pktHdrSize) bytes }

section Length
variable {rbuf : Ringbuf} {idx : Nat}

theorem pkt_len_eq_load (large : 4 ≤ rbuf.size) :
    pktLen rbuf idx = leNat (load rbuf.size rbuf.data (idx + 1) 4) := by
  rw [pktLen, split_out_eq_load (Nat.mod_lt _ (by omega)) large, load_mod]

theorem pkt_len_lt (large : 4 ≤ rbuf.size) : pktLen rbuf idx < 2 ^ 32 := by
  have bound := le_nat_lt (load rbuf.size rbuf.data (idx + 1) 4)
  rw [length_load] at bound
  rw [pkt_len_eq_load large]
  exact bound

theorem pkt_len_put_payload {bytes : List UInt8} (fits : pktSize bytes.length ≤ rbuf.size) :
    pktLen (putPayload rbuf idx bytes) idx = pktLen rbuf idx := by
  rw [pktSize, pktHdrSize] at fits
  have large : 4 ≤ (putPayload rbuf idx bytes).size := by
    change 4 ≤ rbuf.size
    omega
  rw [pkt_len_eq_load large, pkt_len_eq_load (show 4 ≤ rbuf.size by omega)]
  apply congrArg leNat
  apply load_store_other
  left
  change idx + 1 + 4 ≤ idx + 5 ∧ idx + 5 + bytes.length ≤ idx + 1 + rbuf.size
  omega

end Length

section Write
variable {rbuf : Ringbuf} {idx len : Nat}

theorem put_payload_append {first second : List UInt8}
    (fits : pktSize (first.length + second.length) ≤ rbuf.size) :
    putPayload rbuf idx (first ++ second) = { rbuf with
      data := store rbuf.size (putPayload rbuf idx first).data (idx + pktHdrSize + first.length)
        second } := by
  rw [pktSize] at fits
  rw [putPayload, store_append first second _ (by omega)]
  rfl

theorem pkt_write_eq_store {offset : Nat} {buf : List UInt8} (length : pktLen rbuf idx = len)
    (fits : pktSize len ≤ rbuf.size) (before : offset < len) (within : offset + buf.length ≤ len) :
    pktWrite rbuf idx offset buf = ({ rbuf with
        data := store rbuf.size rbuf.data (idx + pktHdrSize + offset) buf },
        (buf.length : Int)) := by
  have width : pktHdrSize = 5 := rfl
  rw [pktSize] at fits
  have small : len < 2 ^ 32 := by
    rw [← length]
    exact pkt_len_lt (by omega)
  have start : sizeT offset = offset := size_t_nat (by omega)
  have ending : sizeT ((offset : Int) + buf.length) = offset + buf.length := by
    rw [← Nat.cast_add, size_t_nat (by omega)]
  have accepted : ¬ (sizeT offset ≥ len ∨ sizeT ((offset : Int) + buf.length) > len) := by
    omega
  simp only [pktWrite, length]
  rw [if_neg accepted, start, split_in_eq_store (Nat.mod_lt _ (by omega)) (by omega), store_mod]

theorem pkt_write_refused_iff {offset : Int} {buf : List UInt8} (length : pktLen rbuf idx = len)
    (small : len < 2 ^ 32) (int : -2 ^ 31 ≤ offset ∧ offset < 2 ^ 32)
    (sized : buf.length < 2 ^ 64) : pktWrite rbuf idx offset buf = (rbuf, -1) ↔
      offset < 0 ∨ len ≤ offset ∨ len < offset + buf.length ∧ offset + buf.length < 2 ^ 64 := by
  have refused : sizeT offset ≥ len ∨ sizeT (offset + buf.length) > len ↔
      offset < 0 ∨ len ≤ offset ∨ len < offset + buf.length ∧ offset + buf.length < 2 ^ 64 := by
    unfold sizeT
    omega
  rw [← refused]
  simp only [pktWrite, length]
  split_ifs with exceeds
  · exact iff_of_true rfl exceeds
  · apply iff_of_false _ exceeds
    intro same
    have result := congrArg Prod.snd same
    dsimp only at result
    omega

theorem pkt_write_next {done buf : List UInt8} (length : pktLen rbuf idx = len)
    (fits : pktSize len ≤ rbuf.size) (before : done.length < len)
    (within : done.length + buf.length ≤ len) :
      pktWrite (putPayload rbuf idx done) idx done.length buf =
      (putPayload rbuf idx (done ++ buf), (buf.length : Int)) := by
  have room := fits
  rw [pktSize] at room
  have kept : pktLen (putPayload rbuf idx done) idx = len := by
    rw [pkt_len_put_payload (by rw [pktSize]; omega), length]
  rw [put_payload_append (by rw [pktSize]; omega), pkt_write_eq_store kept fits before within]
  rfl

theorem payload_put_payload {bytes : List UInt8} (fits : pktSize bytes.length ≤ rbuf.size) :
    payload (putPayload rbuf idx bytes) idx bytes.length = bytes := by
  rw [pktSize] at fits
  have loaded : load rbuf.size (store rbuf.size rbuf.data (idx + pktHdrSize + 0) bytes)
    (idx + pktHdrSize)
      bytes.length = _ := load_store_within (show 0 + bytes.length ≤ bytes.length by omega)
      (by omega)
  rw [take_zero, nil_append, Nat.zero_add, drop_eq_nil_of_le (by rw [length_load]),
    append_nil] at loaded
  exact loaded

theorem put_payload_other {bytes : List UInt8} {address : Nat}
    (outside : ∀ index < bytes.length, (idx + pktHdrSize + index) % rbuf.size ≠ address) :
    (putPayload rbuf idx bytes).data address = rbuf.data address :=
  store_other bytes _ outside

end Write

section Read
variable {rbuf : Ringbuf} {ref : Ref} {len want : Nat}
  (length : pktLen rbuf (rbuf.slot ref.slot).pread = len)
include length

theorem read_next_pkt_refused {offset : Int} (int : -2 ^ 31 ≤ offset ∧ offset < 2 ^ 31)
    (small : len < 2 ^ 32) (missed : offset < 0 ∨ len ≤ offset) :
    readNextPkt rbuf ref offset want = (-1, []) := by
  have behind : sizeT offset ≥ len := by
    unfold sizeT
    omega
  simp only [readNextPkt, length]
  rw [if_pos behind]

theorem read_next_pkt_eq_load {offset : Nat} (fits : pktSize len ≤ rbuf.size)
    (before : offset < len) (noWrap : offset + want < 2 ^ 64) :
    readNextPkt rbuf ref offset want = (((min want (len - offset) : Nat) : Int),
      load rbuf.size rbuf.data ((rbuf.slot ref.slot).pread + pktHdrSize + offset)
      (min want (len - offset))) := by
  rw [pktSize] at fits
  have start : sizeT (offset : Int) = offset := size_t_nat (by omega)
  have last : sizeT ((offset : Int) + (want : Nat)) = offset + want := by
    exact size_t_nat noWrap
  have count : (if offset + want > len then len - offset else want) = min want (len - offset) := by
    split_ifs <;> omega
  simp only [readNextPkt, length]
  rw [start, last, if_neg (show ¬ offset ≥ len by omega), count,
    split_out_eq_load (Nat.mod_lt _ (by omega)) (by omega), load_mod]

theorem read_next_pkt_wraps {offset : Nat} (small : len < 2 ^ 32) (before : offset < len)
    (wraps : 2 ^ 64 ≤ offset + want) (sized : want < 2 ^ 64) :
    (readNextPkt rbuf ref offset want).1 = want := by
  have start : sizeT (offset : Int) = offset := size_t_nat (by omega)
  have last : ¬ sizeT ((offset : Int) + (want : Nat)) > len := by
    unfold sizeT
    omega
  simp only [readNextPkt, length]
  rw [start, if_neg (show ¬ offset ≥ len by omega), if_neg last]

end Read

section Header
variable {rbuf : Ringbuf} {idx : Nat}

theorem copy_in_flag (flag : UInt8) : copyIn rbuf.data idx [flag] = update rbuf.data idx flag := by
  funext address
  rw [update_apply]
  split_ifs with here
  · rw [here, copy_in_get le_rfl (by simp)]
    simp
  · rw [copy_in_other]
    rw [length_singleton]
    omega

theorem load_set_pkt_flag {flag : UInt8} {start count : Nat} (inside : idx < rbuf.size)
    (behind : 0 < start) (fits : start + count ≤ rbuf.size) :
      load rbuf.size (setPktFlag rbuf idx flag).data (idx + start) count = load rbuf.size rbuf.data
      (idx + start) count := by
  apply load_congr
  intro index _
  change copyIn rbuf.data idx [flag] _ = _
  rw [copy_in_flag, update_of_ne]
  have apart : idx % rbuf.size ≠ (idx + start + index) % rbuf.size :=
    mod_ne_of_lt (by omega) (by omega)
  rw [Nat.mod_eq_of_lt inside] at apart
  exact apart.symm

theorem payload_set_pkt_flag {flag : UInt8} {len : Nat} (inside : idx < rbuf.size)
    (fits : pktSize len ≤ rbuf.size) : payload (setPktFlag rbuf idx flag) idx len = payload rbuf idx
    len := by
  rw [pktSize] at fits
  exact load_set_pkt_flag inside (by decide) (by omega)

theorem pkt_len_set_pkt_flag {flag : UInt8} (inside : idx < rbuf.size)
    (large : pktHdrSize ≤ rbuf.size) : pktLen (setPktFlag rbuf idx flag) idx = pktLen rbuf idx := by
  rw [pktHdrSize] at large
  have wide : 4 ≤ (setPktFlag rbuf idx flag).size := by
    change 4 ≤ rbuf.size
    omega
  rw [pkt_len_eq_load wide, pkt_len_eq_load (show 4 ≤ rbuf.size by omega)]
  exact congrArg leNat (load_set_pkt_flag inside Nat.one_pos (by omega))

theorem set_pkt_length_data (large : 4 ≤ rbuf.size) (len : Nat) :
    (setPktLength rbuf idx len).data = store rbuf.size rbuf.data (idx + 1) (leBytes 4 len) := by
  have inside : (idx + 1) % rbuf.size < rbuf.size := Nat.mod_lt _ (by omega)
  change splitIn rbuf.size rbuf.data ((idx + 1) % rbuf.size) (leBytes 4 len) = _
  rw [split_in_eq_store inside (by rw [length_le_bytes]; exact large), store_mod]

theorem pkt_len_set_pkt_length (large : 4 ≤ rbuf.size) {len : Nat} (small : len < 2 ^ 32) :
    pktLen (setPktLength rbuf idx len) idx = len := by
  have kept : load rbuf.size (store rbuf.size rbuf.data (idx + 1 + 0) (leBytes 4 len))
    (idx + 1) 4 = _ :=
    load_store_within (show 0 + (leBytes 4 len).length ≤ 4 by rw [length_le_bytes]) large
  rw [take_zero, nil_append, drop_eq_nil_of_le (by simp), append_nil] at kept
  rw [pkt_len_eq_load (show 4 ≤ (setPktLength rbuf idx len).size from large),
    set_pkt_length_data large]
  change leNat (load rbuf.size (store rbuf.size rbuf.data (idx + 1) (leBytes 4 len)) (idx + 1) 4) =
    len
  rw [show idx + 1 = idx + 1 + 0 from rfl, kept, le_nat_le_bytes 4 len small]

theorem free_size_lt (read : rbuf.pread < rbuf.size) (write : rbuf.pwrite < rbuf.size) :
    sizeT (freeSize rbuf) < rbuf.size := by
  unfold freeSize sizeT
  dsimp only
  split_ifs <;> omega

end Header

end PolarDB.RingBuf
