import Jalv.Plugin.Port

/-! State accessed in the process thread (`process.h`).

The rings to and from the process thread are shared with the main thread and
are not part of this record. A float is given by its bits.
-/

set_option autoImplicit false

namespace Jalv

inductive JalvRunState where | running | paused
  deriving DecidableEq, Repr

-- `UINT32_MAX`, which stands for no control input port.
def uint32Max : UInt32 := 4294967295

structure JalvURIDs where
  atomChunk : URID
  atomObject : URID
  atomSequence : URID
  atomEventTransfer : URID
  midiMidiEvent : URID
  patchGet : URID
  patchPut : URID
  patchSet : URID
  patchBody : URID
  patchProperty : URID
  patchValue : URID
  timePosition : URID
  timeBar : URID
  timeBarBeat : URID
  timeBeatUnit : URID
  timeBeatsPerBar : URID
  timeBeatsPerMinute : URID
  timeFrame : URID
  timeSpeed : URID
  transferNonzero : atomEventTransfer ≠ 0

def testUrids : JalvURIDs := ⟨1, 2, 3, 4, 5, 6, 7, 8, 9, 10, 11, 12, 13, 14, 15, 16, 17, 18, 19, by decide⟩

structure JalvPosition where
  position : UInt32
  bpm : UInt32
  rolling : Bool

structure JalvProcess where
  ports : List JalvProcessPort
  getMsg : Atom
  controlsBuf : List UInt32
  processMsgSize : Nat
  processMsg : List Foundation.Byte
  paused : Nat
  runState : JalvRunState
  controlIn : UInt32
  pendingFrames : UInt32
  updateFrames : UInt32
  pluginLatency : UInt32
  transport : JalvPosition

def getMessage (urids : JalvURIDs) : Atom where
  size := 8
  type := urids.atomObject
  body := Foundation.word 0 ++ Foundation.word urids.patchGet
  sized := by simp

-- The bits of 120.0
def defaultBpm : UInt32 := 0x42F00000

/-- `jalv_process_init`. The latency is the zero of static storage. -/
def jalvProcessInit (urids : JalvURIDs) : JalvProcess where
  ports := []
  getMsg := getMessage urids
  controlsBuf := []
  processMsgSize := 0
  processMsg := []
  paused := 0
  runState := .paused
  controlIn := uint32Max
  pendingFrames := 0
  updateFrames := 0
  pluginLatency := 0
  transport := ⟨0, defaultBpm, false⟩

end Jalv
