import Jalv.Foundation.Bytes
import Jalv.Foundation.Fifo
import Jalv.Foundation.Framing

/-! Packets in a bounded FIFO of bytes, each with its size in front.

A packet is written in one transaction. It is read in two parts, the size and then as
many bytes as it says, so that there is a place in between for the reader.
-/

set_option autoImplicit false

namespace Foundation

structure Packet where
  data : List Byte
  small : data.length < 2 ^ 32

namespace Packet

def size (packet : Packet) : UInt32 := UInt32.ofNat packet.data.length

@[simp] theorem toNat_size (packet : Packet) : packet.size.toNat = packet.data.length := by
  rw [size, UInt32.toNat_ofNat', Nat.mod_eq_of_lt packet.small]

def encode (packet : Packet) : List Byte := word packet.size ++ packet.data

def write (ring : Fifo Byte) (packet : Packet) : Option (Fifo Byte) := ring.writeAll [word packet.size, packet.data]

end Packet

/-- A ring holds whole packets, except that the size of the first one may have been read. -/
def HoldsPackets (ring : Fifo Byte) (header : Option UInt32) (packets : List Packet) : Prop :=
  match header with
  | none => ring.content = stream Packet.encode packets
  | some size => ∃ first rest, packets = first :: rest ∧ first.size = size ∧
      ring.content = first.data ++ stream Packet.encode rest

section

variable {ring next : Fifo Byte} {header : Option UInt32} {packets rest : List Packet} {packet : Packet}

theorem HoldsPackets.write (holds : HoldsPackets ring header packets) (written : packet.write ring = some next) :
    next.capacity = ring.capacity ∧ HoldsPackets next header (packets ++ [packet]) := by
  obtain ⟨_, capacity, content⟩ := Fifo.writeAll_eq_some_iff.mp written
  have encoded : [word packet.size, packet.data].flatten = packet.encode := by simp [Packet.encode]
  rw [encoded] at content
  refine ⟨capacity, ?_⟩
  cases header with
  | none =>
    change next.content = _
    rw [content, show ring.content = _ from holds, stream_concat]
  | some size =>
    obtain ⟨first, others, rfl, same, held⟩ := holds
    exact ⟨first, others ++ [packet], rfl, same, by rw [content, held, stream_concat, List.append_assoc]⟩

theorem HoldsPackets.readSize (holds : HoldsPackets ring none (packet :: rest)) :
    ∃ next, ring.read 4 = (word packet.size, next) ∧ next.capacity = ring.capacity ∧
      HoldsPackets next (some packet.size) (packet :: rest) := by
  have content : ring.content = word packet.size ++ (packet.data ++ stream Packet.encode rest) := by
    rw [show ring.content = _ from holds, stream_cons, Packet.encode, List.append_assoc]
  obtain ⟨next, read, capacity, left⟩ := Fifo.read_prefix (length_word packet.size) content
  exact ⟨next, read, capacity, packet, rest, rfl, rfl, left⟩

theorem HoldsPackets.readSize_nil (holds : HoldsPackets ring none []) : ring.read 4 = ([], ring) :=
  Fifo.read_short (by rw [show ring.content = [] from holds]; decide)

theorem HoldsPackets.readData {size : UInt32} (holds : HoldsPackets ring (some size) packets) :
    ∃ first rest next, packets = first :: rest ∧ first.size = size ∧ ring.read size.toNat = (first.data, next) ∧
      next.capacity = ring.capacity ∧ HoldsPackets next none rest := by
  obtain ⟨first, rest, rfl, rfl, content⟩ := holds
  obtain ⟨next, read, capacity, left⟩ := Fifo.read_prefix first.toNat_size.symm content
  exact ⟨first, rest, next, rfl, rfl, read, capacity, left⟩

theorem HoldsPackets.eq_nil (holds : HoldsPackets ring none packets) (empty : ring.content = []) : packets = [] := by
  rw [show ring.content = _ from holds] at empty
  cases packets with
  | nil => rfl
  | cons first rest =>
    have length := congrArg List.length empty
    rw [stream_cons, Packet.encode, List.length_append, List.length_append, length_word, List.length_nil] at length
    omega

theorem HoldsPackets.size_le {size : UInt32} (holds : HoldsPackets ring (some size) packets) :
    size.toNat ≤ ring.capacity := by
  obtain ⟨first, rest, _, rfl, content⟩ := holds
  have bounded := ring.bounded
  rw [content, List.length_append] at bounded
  rw [Packet.toNat_size]
  omega

end

end Foundation
