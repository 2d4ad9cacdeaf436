import PolarDB.Lib.Offsets
import PolarDB.RingBuf.Packet

/-!
# Runs of the ring buffer

A run starts from an initialised ring and interleaves the calls of writers and readers, each
call being one step. Beside the ring a run records what happened: the packets in the order of
their reservation with the bytes written to them, and for every reference where it started
and what it has read. None of the calls looks at this record.
-/

namespace PolarDB.RingBuf

open Lib.Bytes Lib.Circular Lib.Offsets

/-- A reserved packet: its position, its data length, and what was put into it since. -/
structure Packet where
  idx : Nat
  len : Nat
  flag : UInt8
  lenSet : Bool
  written : Nat → Option UInt8

def Packet.ready (packet : Packet) : Prop := packet.flag &&& pktStateMask = pktReady

def Packet.reserved (idx len : Nat) : Packet :=
  { idx, len, flag := pktFree, lenSet := false, written := fun _ => none }

def Packet.setLength (packet : Packet) : Packet := { packet with lenSet := true }

def Packet.setFlag (packet : Packet) (flag : UInt8) : Packet := { packet with flag }

def Packet.write (packet : Packet) (offset : Nat) (buf : List UInt8) : Packet :=
  { packet with written := fun index =>
      if offset ≤ index ∧ index < offset + buf.length then buf[index - offset]?
        else packet.written index }

/-- A reference with the number of packets before its start and the packets it has read. -/
structure Holder where
  ref : Ref
  start : Nat
  taken : List (UInt8 × List UInt8)

structure RunState where
  rbuf : Ringbuf
  /-- The visit counter of the first packet. -/
  base : Nat
  packets : List Packet
  /-- The references by their identity numbers. -/
  holders : Nat → Option Holder

def RunState.start (memory : Ringbuf) (size : Nat) : RunState :=
  { rbuf := init memory size, base := memory.minVisit, packets := [], holders := fun _ => none }

def RunState.setPacket (st : RunState) (rbuf : Ringbuf) (index : Nat) (packet : Packet) :
    RunState :=
  { st with rbuf, packets := st.packets.set index packet }

def RunState.setHolder (st : RunState) (rbuf : Ringbuf) (holder : Holder) : RunState :=
  { st with rbuf, holders := Function.update st.holders holder.ref.refNum (some holder) }

/-- The type and the data of the next packet, as a reader gets them. -/
def nextPkt (rbuf : Ringbuf) (ref : Ref) : UInt8 × List UInt8 :=
  ((nextReadyPkt rbuf ref).1, (readNextPkt rbuf ref 0 (nextReadyPkt rbuf ref).2).2)

/-- The next packet of a reference exists and its flag says that it is ready. -/
def NextReady (rbuf : Ringbuf) (ref : Ref) : Prop :=
  0 < avail rbuf ref ∧ rbuf.data (rbuf.slot ref.slot).pread &&& pktStateMask = pktReady

/-- One call. The length of a packet is set as it was reserved, data is written once the
length is set, and the flag makes the packet ready after that. -/
inductive Step : RunState → RunState → Prop
  | reserve (st : RunState) (len : Nat) (small : len < 2 ^ 32)
      (room : (pktSize len : Int) ≤ freeSize st.rbuf) : Step st { st with
        rbuf := (pktReserve st.rbuf (pktSize len)).1
        packets := st.packets ++ [Packet.reserved (pktReserve st.rbuf (pktSize len)).2 len] }
  | setLength (st : RunState) (index : Nat) (packet : Packet)
      (found : st.packets[index]? = some packet) (pending : ¬ packet.ready) :
      Step st (st.setPacket (setPktLength st.rbuf packet.idx packet.len) index packet.setLength)
  | write (st : RunState) (index : Nat) (packet : Packet) (offset : Int) (buf : List UInt8)
      (found : st.packets[index]? = some packet) (pending : ¬ packet.ready)
      (lenSet : packet.lenSet = true)
      (int : -2 ^ 31 ≤ offset ∧ offset < 2 ^ 31) (inMemory : buf.length < 2 ^ 63)
      (accepted : (pktWrite st.rbuf packet.idx offset buf).2 ≠ -1) :
      Step st (st.setPacket (pktWrite st.rbuf packet.idx offset buf).1 index
        (packet.write offset.toNat buf))
  | writeRefused (st : RunState) (index : Nat) (packet : Packet) (offset : Int) (buf : List UInt8)
      (found : st.packets[index]? = some packet) (pending : ¬ packet.ready)
      (lenSet : packet.lenSet = true)
      (refused : (pktWrite st.rbuf packet.idx offset buf).2 = -1) :
      Step st { st with rbuf := (pktWrite st.rbuf packet.idx offset buf).1 }
  | setFlag (st : RunState) (index : Nat) (packet : Packet) (flag : UInt8)
      (found : st.packets[index]? = some packet) (pending : ¬ packet.ready)
      (complete : (packet.setFlag flag).ready → packet.lenSet = true) :
      Step st (st.setPacket (setPktFlag st.rbuf packet.idx flag) index (packet.setFlag flag))
  | newRef (st : RunState) (strong : Bool) (rbuf : Ringbuf) (ref : Ref)
      (created : newRef st.rbuf strong = some (rbuf, ref)) :
      Step st (st.setHolder rbuf { ref, start := st.rbuf.minVisit - st.base, taken := [] })
  | releaseRef (st : RunState) (number : Nat) (holder : Holder)
      (held : st.holders number = some holder) :
      Step st (st.setHolder (releaseRef st.rbuf holder.ref).1
        { holder with ref := (releaseRef st.rbuf holder.ref).2 })
  | getRef (st : RunState) (number : Nat) (holder : Holder) (held : st.holders number = some holder)
      (attached : holder.ref.attached = true) :
      Step st { st with rbuf := (getRef st.rbuf holder.ref).1 }
  | clearRef (st : RunState) (number : Nat) (holder : Holder)
      (held : st.holders number = some holder) (attached : holder.ref.attached = true) :
      Step st { st with rbuf := (clearRef st.rbuf holder.ref).1 }
  | updateRef (st : RunState) (number : Nat) (holder : Holder)
      (held : st.holders number = some holder)
      (valid : validRef st.rbuf holder.ref = true) (ready : NextReady st.rbuf holder.ref) :
      Step st (st.setHolder (updateRef st.rbuf holder.ref)
        { holder with taken := holder.taken ++ [nextPkt st.rbuf holder.ref] })
  | updateKeepData (st : RunState) : Step st { st with rbuf := updateKeepData st.rbuf }
  | freeUp (st : RunState) (len : Nat) : Step st { st with rbuf := (freeUpRound st.rbuf len).1 }

abbrev Run : RunState → RunState → Prop := Relation.ReflTransGen Step

end PolarDB.RingBuf
