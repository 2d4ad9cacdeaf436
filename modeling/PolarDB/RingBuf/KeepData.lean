import PolarDB.Lib.Runs
import PolarDB.RingBuf.RunExact

/-!
# The reference that keeps data in the queue

`polar_ringbuf_ref_keep_data` moves its reference as long as more than a part of the
ring is behind it. It takes the length of each packet as it stands in the ring and
looks at no flag, so that the packet has to be ready by then. The reference is strong
and only its own process uses it, so that it stays valid.
-/

namespace PolarDB.RingBuf

inductive KeepEvent where
  | call
  | keepData (number : Nat)

/-- The calls of the others, and one round of the loop of `polar_ringbuf_ref_keep_data`. -/
inductive KeepStep (keepSize : Nat) : KeepEvent → RunState → RunState → Prop
  | call {st next : RunState} (step : Step st next) : KeepStep keepSize .call st next
  | keepData (st : RunState) (number : Nat) (holder : Holder)
      (held : st.holders number = some holder)
      (valid : validRef st.rbuf holder.ref = true) (more : avail st.rbuf holder.ref > keepSize) :
      KeepStep keepSize (.keepData number) st (st.setHolder (updateRef st.rbuf holder.ref)
        { holder with taken := holder.taken ++ [nextPkt st.rbuf holder.ref] })

/-- The reference that is moved stands on a ready packet. -/
def OnReady : KeepEvent → RunState → Prop
  | .call, _ => True
  | .keepData number, st => ∀ holder, st.holders number = some holder →
    st.rbuf.data (st.rbuf.slot holder.ref.slot).pread &&& pktStateMask = pktReady

/-- The reference stands at the start of a packet or at the write position, and the next round
moves it over that packet, whose length is set. -/
structure Aligned (keepSize : Nat) (st : RunState) (ref : Ref) (idx : Nat) : Prop where
  within : idx ≤ st.packets.length
  start : ∀ packet, st.packets[idx]? = some packet → (st.rbuf.slot ref.slot).pread = packet.idx
  last : idx = st.packets.length → (st.rbuf.slot ref.slot).pread = st.rbuf.pwrite
  moves : avail st.rbuf ref > keepSize → st.rbuf.data (st.rbuf.slot ref.slot).pread &&&
    pktStateMask = pktReady →
    ∃ packet, st.packets[idx]? = some packet ∧ packet.lenSet = true ∧
    ((updateRef st.rbuf ref).slot ref.slot).pread =
        ((st.rbuf.slot ref.slot).pread + (pktHdrSize + packet.len)) % st.rbuf.size

variable {keepSize : Nat} {st next : RunState} {least : Nat}

theorem Rep.aligned (rep : Rep st least) {number : Nat} {holder : Holder}
    (held : st.holders number = some holder) (valid : validRef st.rbuf holder.ref = true) :
    ∃ idx, Aligned keepSize st holder.ref idx := by
  obtain ⟨-, -, idx, order, before⟩ := rep.cursor held valid
  refine ⟨idx, before.within, ?_, ?_, ?_⟩
  · intro packet found
    rw [before.pread, rep.stored.placed idx packet found]
  · intro isLast
    rw [before.pread, rep.stored.pwrite, isLast]
  · intro _ flag
    have within : idx < st.packets.length := (rep.next_exists order before).mp (by omega)
    have found := List.getElem?_eq_getElem within
    have ready : (st.packets[idx]).ready := by
      rwa [(rep.next_ready_pkt order before found).1] at flag
    refine ⟨_, found, (rep.stored.holds idx _ found order).complete ready, ?_⟩
    rw [(rep.update_ref_slot order before found ready).pread, before.pread, pos_succ found,
      Nat.mod_add_mod, pktSize, Nat.add_comm pktHdrSize]

theorem Rep.keep_step {event : KeepEvent} (rep : Rep st least)
    (step : KeepStep keepSize event st next) (met : OnReady event st) :
    ∃ further, Rep next further := by
  cases step with
  | call step => exact rep.step step
  | keepData _ _ holder held valid =>
    exact ⟨least, rep.update_ref held valid ⟨by omega, met holder held⟩⟩

/-- As long as the keep-data reference is moved over ready packets only, it stands on the start of
a packet or at the write position, in every reached state. -/
theorem keep_data_aligned (memory : Ringbuf) (size keepSize : Nat)
    (run : Lib.Runs.Run (KeepStep keepSize) OnReady (RunState.start memory size) st)
    {number : Nat} {holder : Holder} (held : st.holders number = some holder)
    (valid : validRef st.rbuf holder.ref = true) : ∃ idx, Aligned keepSize st holder.ref idx := by
  have known : ∃ least, Rep st least := by
    apply run.invariant _ ⟨0, rep_start memory size⟩
    rintro event before after ⟨least, rep⟩ step met
    exact rep.keep_step step met
  obtain ⟨_, rep⟩ := known
  exact rep.aligned held valid

/-- The reference passes a packet of 25 bytes that is ready. -/
theorem ready_packet_passed : ∃ st holder idx,
    Lib.Runs.Run (KeepStep 19) OnReady (RunState.start zeroMemory 32) st ∧
    st.holders 1 = some holder ∧ (st.rbuf.slot holder.ref.slot).pread = 25 ∧
    Aligned 19 st holder.ref idx := by
  have started : Lib.Runs.Run (KeepStep 19) OnReady (.start zeroMemory 32) _ := .refl
  have referred := started.snoc (.call (.newRef _ true _ _ rfl))
  have reserved := referred.snoc (.call (.reserve _ 20 (by decide) (by decide)))
  have lengthSet := reserved.snoc (.call (.setLength _ 0 _ rfl (not_ready_of_free rfl)))
  have ready := lengthSet.snoc
    (.call (.setFlag _ 0 _ (pktWalMeta ||| pktReady) rfl (not_ready_of_free rfl) fun _ => rfl))
  have kept := ready.tail (.keepData _ 1 _ rfl rfl (by decide)) (by
    rintro holder ⟨⟩
    decide)
  obtain ⟨idx, aligned⟩ := @keep_data_aligned _ zeroMemory 32 19 kept 1 _ rfl rfl
  exact ⟨_, _, idx, kept, rfl, rfl, aligned⟩

/-- The length of the packet at 0 is not set yet: the reference moves to 5, inside the packet, and
not to the write position 25. -/
theorem reserved_packet_entered : ∃ st next holder,
    Lib.Runs.Run (KeepStep 19) (fun _ _ => True) (RunState.start zeroMemory 32) st ∧
    KeepStep 19 (.keepData 1) st next ∧ next.holders 1 = some holder ∧
    st.packets.map Packet.lenSet = [false] ∧ next.packets.map Packet.idx = [0] ∧
    next.rbuf.pwrite = 25 ∧ (next.rbuf.slot holder.ref.slot).pread = 5 := by
  have started : Lib.Runs.Run (KeepStep 19) (fun _ _ => True) (.start zeroMemory 32) _ := .refl
  have referred := started.snoc (.call (.newRef _ true _ _ rfl))
  have reserved := referred.snoc (.call (.reserve _ 20 (by decide) (by decide)))
  exact ⟨_, _, _, reserved, .keepData _ 1 _ rfl rfl (by decide), rfl, rfl, rfl, rfl, rfl⟩

end PolarDB.RingBuf
