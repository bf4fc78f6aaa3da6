import Jalv.Event.Buffer
import Jalv.Message.Message

/-! Messages from the main thread, applied in the process thread (`process.c`).

`none` is an access outside of an object, or a state that the assertions rule out. Those on
the size of a control or run state change are not checked in a release build, which goes on.
-/

set_option autoImplicit false

namespace Jalv

open Foundation

inductive JalvProcessStatus where
  | success | sendUpdates | badHeader | badControlValue | badEvent | badStateChange | badMessageType
  deriving DecidableEq, Repr

/-- A message as it was received: whole, or an event whose atom has a size that
reaches beyond the receive buffer. -/
inductive ReceivedMessage where
  | whole (message : UiMessage)
  | overrun (portIndex size : UInt32)
  deriving DecidableEq

def receivedEvent (buffer : List Byte) : ReceivedMessage :=
  let (portIndex, rest) := splitWord buffer
  let (size, rest) := splitWord rest
  let (type, rest) := splitWord rest
  let body := rest.take size.toNat
  if sized : body.length = size.toNat then .whole (.eventTransfer portIndex ⟨size, type, body, sized⟩)
  else .overrun portIndex size

/-- What a branch of the loop reads: a message or the status that ends the loop, with the
process state and the ring after it. -/
abbrev ReadResult := Option (Except JalvProcessStatus ReceivedMessage × JalvProcess × ZixRing)

def readControlChange (proc : JalvProcess) (ring : ZixRing) : ReadResult :=
  let (bytes, rest) := ring.read sizeofControlChange
  if bytes.length = sizeofControlChange then
    let (portIndex, value) := splitWord bytes
    some (.ok (.whole (.controlPortChange portIndex (splitWord value).1)), proc, rest)
  else some (.error .badControlValue, proc, rest)

/-- An event goes through the receive buffer, which keeps its old bytes behind those that are read. -/
def readEventTransfer (proc : JalvProcess) (ring : ZixRing) (header : JalvMessageHeader) : ReadResult :=
  if header.size.toNat ≤ proc.processMsgSize then
    let (bytes, rest) := ring.read header.size.toNat
    if bytes.length = header.size.toNat then
      let buffer := bytes ++ proc.processMsg.drop bytes.length
      some (.ok (receivedEvent buffer), { proc with processMsg := buffer }, rest)
    else some (.error .badEvent, proc, rest)
  else none

def readRunStateChange (proc : JalvProcess) (ring : ZixRing) : ReadResult :=
  let (bytes, rest) := ring.read sizeofRunStateChange
  if bytes.length = sizeofRunStateChange then
    if wordValue bytes = JalvRunState.running.code then
      some (.ok (.whole (.runStateChange .running)), proc, rest)
    else if wordValue bytes = JalvRunState.paused.code then
      some (.ok (.whole (.runStateChange .paused)), proc, rest)
    else none
  else some (.error .badStateChange, proc, rest)

def readUiMessage (proc : JalvProcess) (ring : ZixRing) (header : JalvMessageHeader) : ReadResult :=
  if header.type = JalvMessageType.controlPortChange.code then readControlChange proc ring
  else if header.type = JalvMessageType.eventTransfer.code then readEventTransfer proc ring header
  else if header.type = JalvMessageType.stateRequest.code then some (.ok (.whole .stateRequest), proc, ring)
  else if header.type = JalvMessageType.runStateChange.code then readRunStateChange proc ring
  else some (.error .badMessageType, proc, ring)

def JalvProcess.setEvbuf (proc : JalvProcess) (index : Nat) (port : JalvProcessPort) (evbuf : LV2Evbuf) :
    JalvProcess :=
  { proc with ports := proc.ports.set index { port with evbuf := some evbuf } }

def appendEvent (proc : JalvProcess) (index : Nat) (nframes : UInt32) (atom : Atom) : Option JalvProcess := do
  let port ← proc.ports[index]?
  let evbuf ← port.evbuf
  return proc.setEvbuf index port (lv2EvbufWrite (lv2EvbufEnd evbuf) nframes atom).2.evbuf

def applyUiMessage (proc : JalvProcess) (nframes : UInt32) : UiMessage → Option JalvProcess
  | .controlPortChange portIndex value =>
    if portIndex.toNat < proc.ports.length ∧ portIndex.toNat < proc.controlsBuf.length then
      some { proc with controlsBuf := proc.controlsBuf.set portIndex.toNat value }
    else none
  | .eventTransfer portIndex atom => appendEvent proc portIndex.toNat nframes atom
  | .stateRequest =>
    if proc.controlIn ≠ uint32Max then do
      let port ← proc.ports[proc.controlIn.toNat]?
      if port.type = .event ∧ port.flow = .input then
        appendEvent proc proc.controlIn.toNat nframes proc.getMsg
      else none
    else none
  | .runStateChange .running => some { proc with runState := .running }
  | .runStateChange .paused => some { proc with runState := .paused, paused := proc.paused + 1 }

-- An event that reaches beyond the receive buffer is only harmless if it is rejected.
def applyReceived (proc : JalvProcess) (nframes : UInt32) : ReceivedMessage → Option JalvProcess
  | .whole message => applyUiMessage proc nframes message
  | .overrun portIndex size => do
    let port ← proc.ports[portIndex.toNat]?
    let evbuf ← port.evbuf
    if lv2EvbufAccepts evbuf size then none else some proc

def applyUiEventsFrom (nframes : UInt32) (space : Nat) :
    Nat → Nat → JalvProcess → ZixRing → Option (JalvProcessStatus × JalvProcess × ZixRing)
  | 0, _, _, _ => none
  | fuel + 1, i, proc, ring =>
    if i < space then
      let (bytes, ring) := ring.read sizeofHeader
      if bytes.length = sizeofHeader then
        let header := JalvMessageHeader.decode bytes
        match readUiMessage proc ring header with
        | none => none
        | some (.error status, proc, ring) => some (status, proc, ring)
        | some (.ok received, proc, ring) =>
          match applyReceived proc nframes received with
          | none => none
          | some proc => applyUiEventsFrom nframes space fuel (i + (sizeofHeader + header.size.toNat)) proc ring
      else some (.badHeader, proc, ring)
    else some (.success, proc, ring)

-- Each turn of the loop passes a header, so there are no more turns than bytes.
def applyUiEvents (proc : JalvProcess) (ring : ZixRing) (nframes : UInt32) :
    Option (JalvProcessStatus × JalvProcess × ZixRing) :=
  applyUiEventsFrom nframes ring.readSpace (ring.readSpace + 1) 0 proc ring

end Jalv
