import Jalv.Foundation.Lists
import Jalv.Process.Process

/-! Activation of the process state (`process_setup.c`).

Allocations succeed. The rings, which are created when they are missing, are
shared with the main thread and not part of this.
-/

set_option autoImplicit false

namespace Jalv

open Foundation

def minMsgSize : Nat := 1024

def JalvProcessPort.evbufSize (port : JalvProcessPort) (midiBufSize : Nat) : Nat :=
  if port.bufSize ≠ 0 then port.bufSize.toNat else midiBufSize

/-- Allocate the event buffer of a port if it has none of this size, and reset it. A new
buffer has whatever the allocator returned behind its header. -/
def activateEvbuf (urids : JalvURIDs) (size : Nat) (contents : Memory Byte) (port : JalvProcessPort) :
    JalvProcessPort :=
  let fresh := lv2EvbufNew (UInt32.ofNat size) urids.atomChunk urids.atomSequence contents
  let evbuf := match port.evbuf with
    | some evbuf => if (lv2EvbufGetCapacity evbuf).toNat ≠ size then fresh else evbuf
    | none => fresh
  { port with evbuf := some (lv2EvbufReset evbuf (port.flow = .input)) }

def activatePort (urids : JalvURIDs) (midiBufSize : Nat) (contents : Memory Byte) (port : JalvProcessPort) :
    JalvProcessPort :=
  if port.type = .event then activateEvbuf urids (port.evbufSize midiBufSize) contents port else port

/-- The largest event that can be received: the size of the largest event input buffer. -/
def maxMsgSize (midiBufSize : Nat) (ports : List JalvProcessPort) : Nat :=
  ports.foldl (fun size port =>
    if port.type = .event ∧ port.flow = .input then max size (port.evbufSize midiBufSize) else size) minMsgSize

/-- `contents` are the bytes of new buffers by port, and `message` those of a new receive buffer. -/
def jalvProcessActivate (proc : JalvProcess) (urids : JalvURIDs) (midiBufSize : Nat) (updateFrames : UInt32)
    (contents : Nat → Memory Byte) (message : Memory Byte) : JalvProcess :=
  let size := maxMsgSize midiBufSize proc.ports
  { proc with
    ports := proc.ports.mapIdx fun index port => activatePort urids midiBufSize (contents index) port
    processMsgSize := size
    processMsg :=
      if proc.processMsg.length ≠ size ∨ proc.processMsgSize ≠ size then message.load 0 size else proc.processMsg
    updateFrames }

theorem maxMsgSize_le_iff (midiBufSize : Nat) (ports : List JalvProcessPort) (bound : Nat) :
    maxMsgSize midiBufSize ports ≤ bound ↔ minMsgSize ≤ bound ∧
      ∀ port ∈ ports, port.type = .event ∧ port.flow = .input → port.evbufSize midiBufSize ≤ bound :=
  foldl_max_le_iff (fun port : JalvProcessPort => port.type = .event ∧ port.flow = .input) _ ports _ bound

theorem lt_maxMsgSize_iff (midiBufSize : Nat) (ports : List JalvProcessPort) (bound : Nat) :
    bound < maxMsgSize midiBufSize ports ↔ bound < minMsgSize ∨
      ∃ port ∈ ports, (port.type = .event ∧ port.flow = .input) ∧ bound < port.evbufSize midiBufSize := by
  rw [← Nat.not_le, maxMsgSize_le_iff, not_and_or, Nat.not_le]
  simp only [not_forall, exists_prop, Nat.not_le]

end Jalv
