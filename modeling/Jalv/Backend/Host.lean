import Jalv.Backend.Jack
import Jalv.Host.Activate
import Jalv.Host.Lookup

/-! The program under JACK: the main thread, the process thread and the rings between them. -/

set_option autoImplicit false

namespace Jalv

open Foundation

structure JackHost where
  jalv : JalvImpl
  uiToPlugin : ZixRing
  pluginToUi : ZixRing

def JackHost.jack (host : JackHost) : JackProcess := ⟨host.jalv.process, host.uiToPlugin, host.pluginToUi⟩

def JackHost.processed (host : JackHost) (jack : JackProcess) : JackHost :=
  ⟨{ host.jalv with process := jack.proc }, jack.uiToPlugin, jack.pluginToUi⟩

/-- `buffer_size_cb`, with the size of a MIDI buffer if the program was built to ask for it. -/
def bufferSizeCb (jalv : JalvImpl) (answer : Option Nat) (updateFrames : UInt32) (contents : Nat → Memory Byte)
    (message : Memory Byte) : JalvImpl :=
  let jalv := { jalv with
    settings := { jalv.settings with midiBufSize := answer.getD jalv.settings.midiBufSize } }
  if jalv.process.runState = .running then jalv.activate updateFrames contents message else jalv

def jackTestBackend : JalvBackend where
  urids := lookupTestHost.urids
  forge := lookupTestHost.forge
  floats := ⟨fun _ => 0, fun _ _ => false, fun _ _ _ => 0, fun _ => 0, fun _ => 0, fun _ => 0, fun _ _ => true⟩

def jackTestCycle : JackCycle :=
  let transport : JackTransport := ⟨.stopped, ⟨0, false, 0, 0, 0, 0, 0, 0, 0⟩⟩
  ⟨64, transport, transport, fun _ => []⟩

end Jalv
