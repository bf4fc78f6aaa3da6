import Jalv.Foundation.Lists
import Jalv.Message.Forge
import Jalv.Process.Run

/-! Processing in the JACK backend (`jack.c`).

What JACK reports in a cycle is data. The buffers of audio ports are left out.
A callback is split where it calls `lilv_instance_run`. `none` is an access
outside of an object, a failed assertion, or a loop over events that never ends.
-/

set_option autoImplicit false

namespace Jalv

open Foundation

structure FloatOperations where
  -- The float nearest to a double
  narrow : UInt64 → UInt32
  -- Whether a double is not equal to a float
  differs : UInt64 → UInt32 → Bool
  -- `beat - 1 + (tick / ticks_per_beat)`, as a float
  barBeat : Int32 → Int32 → UInt64 → UInt32
  -- A float truncated to a signed integer
  toInt : UInt32 → UInt32
  -- A float truncated to an unsigned integer
  toUInt : UInt32 → UInt32
  -- The float nearest to an unsigned integer
  ofUInt : UInt32 → UInt32
  -- `first <= second`
  atMost : UInt32 → UInt32 → Bool

def floatOne : UInt32 := 0x3F800000

-- `max_latency`, the bits of 16777216.0
def maxLatency : UInt32 := 0x4B800000

structure JalvBackend where
  urids : JalvURIDs
  forge : Forge
  floats : FloatOperations

inductive JackTransportState where | stopped | rolling | looping | starting | netStarting
  deriving DecidableEq, Repr

/-- `jack_position_t`. The flag says whether `JackPositionBBT` is in `valid`. -/
structure JackPosition where
  frame : UInt32
  bbt : Bool
  bar : Int32
  beat : Int32
  tick : Int32
  beatsPerBar : UInt32
  beatType : UInt32
  ticksPerBeat : UInt64
  beatsPerMinute : UInt64

structure JackTransport where
  state : JackTransportState
  pos : JackPosition

structure JackMidiEvent where
  time : UInt32
  buffer : List Byte
  deriving DecidableEq

/-- What JACK gives to a process cycle: the answers to the two queries of the transport
state, and the MIDI input of each port. -/
structure JackCycle where
  nframes : UInt32
  first : JackTransport
  second : JackTransport
  midi : Nat → List JackMidiEvent

/-- `TransportData`, with the atom that `pos_buf` holds. -/
structure TransportData where
  pos : JackPosition
  changed : Bool
  posBuf : Atom

def emptyAtom : Atom := ⟨0, 0, [], rfl⟩

def sizeofPosBuf : UInt32 := 512

def forgePosition (backend : JalvBackend) (state : JackTransportState) (pos : JackPosition) : Option Atom := do
  let types := backend.forge
  let urids := backend.urids
  let floats := backend.floats
  let forge ← lv2AtomForgeObject types sizeofPosBuf 0 urids.timePosition
  let forge ← lv2AtomForgeKey forge urids.timeFrame
  let forge ← lv2AtomForgePrimitive forge types.long (little 8 pos.frame.toNat)
  let forge ← lv2AtomForgeKey forge urids.timeSpeed
  let forge ← lv2AtomForgePrimitive forge types.float (word (if state = .rolling then floatOne else 0))
  if pos.bbt then
    let forge ← lv2AtomForgeKey forge urids.timeBarBeat
    let forge ← lv2AtomForgePrimitive forge types.float (word (floats.barBeat pos.beat pos.tick pos.ticksPerBeat))
    let forge ← lv2AtomForgeKey forge urids.timeBar
    let forge ← lv2AtomForgePrimitive forge types.long (little 8 (pos.bar - 1).toInt64.toUInt64.toNat)
    let forge ← lv2AtomForgeKey forge urids.timeBeatUnit
    let forge ← lv2AtomForgePrimitive forge types.int (word (floats.toInt pos.beatType))
    let forge ← lv2AtomForgeKey forge urids.timeBeatsPerBar
    let forge ← lv2AtomForgePrimitive forge types.float (word pos.beatsPerBar)
    let forge ← lv2AtomForgeKey forge urids.timeBeatsPerMinute
    let forge ← lv2AtomForgePrimitive forge types.float (word (floats.narrow pos.beatsPerMinute))
    return forge.object types
  else return forge.object types

def processTransport (backend : JalvBackend) (transport : JalvPosition) (cycle : JackCycle) :
    Option (JalvPosition × TransportData) := do
  let pos := cycle.second.pos
  let rolling : Bool := cycle.second.state = .rolling
  -- If transport state is not as expected, then something has changed
  let changed : Bool := rolling ≠ transport.rolling ∨ pos.frame ≠ transport.position ∨
    (pos.bbt ∧ backend.floats.differs pos.beatsPerMinute transport.bpm)
  -- Update transport state to expected values for next cycle
  let transport : JalvPosition :=
    { position := if rolling then pos.frame + cycle.nframes else pos.frame
      bpm := if pos.bbt then backend.floats.narrow pos.beatsPerMinute else transport.bpm
      rolling }
  if changed then
    let posBuf ← forgePosition backend cycle.second.state pos
    return (transport, ⟨cycle.first.pos, changed, posBuf⟩)
  else return (transport, ⟨cycle.first.pos, changed, emptyAtom⟩)

def JackMidiEvent.event (event : JackMidiEvent) (urids : JalvURIDs) : AtomEvent :=
  ⟨event.time, .ofBytes urids.midiMidiEvent event.buffer⟩

structure PreState where
  controlsBuf : List UInt32
  pluginToUi : ZixRing

def preProcessPort (backend : JalvBackend) (xport : TransportData) (bpm : UInt32)
    (midi : Nat → List JackMidiEvent) (index : Nat) (port : JalvProcessPort) (state : PreState) :
    Option (JalvProcessPort × PreState) :=
  if port.sysPort ∧ (port.type = .audio ∨ port.type = .cv) then some (port, state)
  else if port.type = .event ∧ port.flow = .input then do
    let evbuf ← port.evbuf
    let iter := lv2EvbufBegin evbuf
    -- Write new transport position
    let iter := if port.supportsPos ∧ xport.changed then (lv2EvbufWrite iter 0 xport.posBuf).2 else iter
    -- Write Jack MIDI input
    let iter := if port.sysPort then
        (midi index).foldl (fun iter event =>
          (lv2EvbufWrite iter event.time (event.event backend.urids).atom).2) iter
      else iter
    return ({ port with evbuf := some iter.evbuf }, state)
  else if port.type = .event then do
    -- Clear event output for plugin to write to
    let evbuf ← port.evbuf
    return ({ port with evbuf := some (lv2EvbufReset evbuf false) }, state)
  else if port.isBpm ∧ xport.changed ∧ xport.pos.bbt then
    -- Set BPM control port to new tempo and notify the UI
    if index < state.controlsBuf.length then
      some (port, ⟨state.controlsBuf.set index bpm, (jalvWriteControl state.pluginToUi (UInt32.ofNat index) bpm).2⟩)
    else none
  else some (port, state)

/-- The cached latency, the ring to the main thread, and the calls of `jack_midi_event_write`, which
may refuse an event. -/
structure PostState where
  pluginLatency : UInt32
  pluginToUi : ZixRing
  midi : List (Nat × JackMidiEvent)

def forwardEvent (urids : JalvURIDs) (index : Nat) (port : JalvProcessPort) (state : PostState)
    (event : AtomEvent) : PostState :=
  { state with
    -- Write MIDI event to Jack output, whatever comes of it
    midi :=
      if port.sysPort ∧ event.atom.type = urids.midiMidiEvent then
        state.midi ++ [(index, ⟨event.frames, event.atom.body⟩)]
      else state.midi
    -- Forward event to UI
    pluginToUi := (jalvWriteEvent state.pluginToUi (UInt32.ofNat index) event.atom).2 }

def latencyFrames (floats : FloatOperations) (value : UInt32) : UInt32 :=
  if floats.atMost 0 value ∧ floats.atMost value maxLatency then floats.toUInt value else 0

def postProcessOutputPort (backend : JalvBackend) (controlsBuf : List UInt32) (sendUpdates : Bool) (index : Nat)
    (port : JalvProcessPort) (state : PostState) : Option PostState :=
  if port.flow = .output then
    if port.type = .control ∧ port.reportsLatency then do
      let value ← controlsBuf[index]?
      let frames := latencyFrames backend.floats value
      if state.pluginLatency ≠ frames then
        -- Update the cached value and notify the UI if the latency changed
        let body := word (backend.floats.ofUInt frames)
        let header : JalvMessageHeader := ⟨JalvMessageType.latencyChange.code, 4⟩
        return { state with
          pluginLatency := frames
          pluginToUi := (jalvWriteSplitMessage state.pluginToUi header.encode body).2 }
      else return state
    else if port.type = .event then do
      let evbuf ← port.evbuf
      let events ← lv2EvbufEvents evbuf
      return events.foldl (forwardEvent backend.urids index port) state
    else if sendUpdates ∧ port.type = .control then do
      let value ← controlsBuf[index]?
      return { state with pluginToUi := (jalvWriteControl state.pluginToUi (UInt32.ofNat index) value).2 }
    else some state
  else none

def finishPort (backend : JalvBackend) (controlsBuf : List UInt32) (sendUpdates : Bool) (index : Nat)
    (port : JalvProcessPort) (state : PostState) : Option (JalvProcessPort × PostState) :=
  if port.flow = .input ∧ port.type = .event then do
    let evbuf ← port.evbuf
    return ({ port with evbuf := some (lv2EvbufReset evbuf true) }, state)
  else if port.flow = .output ∧ port.type = .event then
    (postProcessOutputPort backend controlsBuf sendUpdates index port state).map fun state => (port, state)
  else some (port, state)

structure JackProcess where
  proc : JalvProcess
  uiToPlugin : ZixRing
  pluginToUi : ZixRing

/-- A paused cycle. The buffers of JACK output ports are cleared, which is left out. -/
def processSilent (jack : JackProcess) (nframes : UInt32) : Option JackProcess := do
  let (proc, uiToPlugin) ← jalvBypass jack.proc jack.uiToPlugin nframes
  return { jack with proc, uiToPlugin }

/-- A running cycle up to the call of `jalv_run`. -/
def processCbPrepare (backend : JalvBackend) (jack : JackProcess) (cycle : JackCycle) : Option JackProcess := do
  -- Process and update transport data
  let (transport, xport) ← processTransport backend jack.proc.transport cycle
  -- Prepare ports
  let (ports, state) ← changeFrom (preProcessPort backend xport transport.bpm cycle.midi) 0 jack.proc.ports
    ⟨jack.proc.controlsBuf, jack.pluginToUi⟩
  return { jack with
    proc := { jack.proc with transport, ports, controlsBuf := state.controlsBuf }
    pluginToUi := state.pluginToUi }

/-- A running cycle up to the call of `lilv_instance_run`. -/
def processCbBegin (backend : JalvBackend) (jack : JackProcess) (cycle : JackCycle) :
    Option (JalvProcessStatus × JackProcess) := do
  let jack ← processCbPrepare backend jack cycle
  -- Run plugin for this cycle
  let (pst, proc, uiToPlugin) ← jalvRunBegin jack.proc jack.uiToPlugin cycle.nframes
  return (pst, { jack with proc, uiToPlugin })

/-- A running cycle from the call of `lilv_instance_run` on, with the writes of MIDI events. -/
def processCbEnd (backend : JalvBackend) (pst : JalvProcessStatus) (jack : JackProcess) (nframes : UInt32)
    (output : PluginOutput) : Option (JackProcess × List (Nat × JackMidiEvent)) := do
  let (pst, proc) := jalvRunEnd pst jack.proc nframes output
  -- Finish ports
  let (ports, state) ← changeFrom (finishPort backend proc.controlsBuf (pst = .sendUpdates)) 0 proc.ports
    ⟨proc.pluginLatency, jack.pluginToUi, []⟩
  return ({ jack with proc := { proc with ports, pluginLatency := state.pluginLatency }
                      pluginToUi := state.pluginToUi }, state.midi)

def processCb (backend : JalvBackend) (jack : JackProcess) (cycle : JackCycle) (output : PluginOutput) :
    Option (JackProcess × List (Nat × JackMidiEvent)) :=
  -- If execution is paused, emit silence and return
  if jack.proc.runState = .paused then (processSilent jack cycle.nframes).map fun jack => (jack, [])
  else do
    let (pst, jack) ← processCbBegin backend jack cycle
    processCbEnd backend pst jack cycle.nframes output

end Jalv
