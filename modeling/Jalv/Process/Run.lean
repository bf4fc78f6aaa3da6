import Jalv.Process.Apply

/-! Running the plugin for a block (`jalv_run` and `jalv_bypass` of `process.c`).

`jalv_run` comes in two parts: it applies the messages from the main thread, and
after the call of `lilv_instance_run` it counts the frames since the last update.
Replies of workers do not touch the process state. `none` is as for the messages.
-/

set_option autoImplicit false

namespace Jalv

open Foundation

/-- What a plugin writes to its output ports in a run: the values of control ports, and
the header and the contents of the sequences of event ports. -/
structure PluginOutput where
  control : Nat → UInt32
  size : Nat → UInt32
  type : Nat → URID
  contents : Nat → Memory Byte

def PluginOutput.writePort (output : PluginOutput) (index : Nat) (port : JalvProcessPort) : JalvProcessPort :=
  if port.type = .event ∧ port.flow = .output then
    { port with evbuf := port.evbuf.map fun evbuf =>
        { evbuf with size := output.size index, type := output.type index, contents := output.contents index } }
  else port

-- The value of a port, which a plugin only writes to if it is a control output port.
def PluginOutput.writeControl (output : PluginOutput) (ports : List JalvProcessPort) (index : Nat)
    (value : UInt32) : UInt32 :=
  match ports[index]? with
  | some port => if port.type = .control ∧ port.flow = .output then output.control index else value
  | none => value

def lilvInstanceRun (proc : JalvProcess) (output : PluginOutput) : JalvProcess :=
  { proc with
    ports := proc.ports.mapIdx output.writePort
    controlsBuf := proc.controlsBuf.mapIdx (output.writeControl proc.ports) }

/-- `jalv_run` up to the call of `lilv_instance_run`. -/
def jalvRunBegin (proc : JalvProcess) (uiToPlugin : ZixRing) (nframes : UInt32) :
    Option (JalvProcessStatus × JalvProcess × ZixRing) :=
  applyUiEvents proc uiToPlugin nframes

/-- `jalv_run` from the call of `lilv_instance_run` on. -/
def jalvRunEnd (pst : JalvProcessStatus) (proc : JalvProcess) (nframes : UInt32) (output : PluginOutput) :
    JalvProcessStatus × JalvProcess :=
  let proc := lilvInstanceRun proc output
  -- Check if it's time to send updates to the UI
  if proc.updateFrames ≠ 0 then
    let pendingFrames := proc.pendingFrames + nframes
    if pendingFrames > proc.updateFrames then
      (if pst = .success then .sendUpdates else pst, { proc with pendingFrames := 0 })
    else (pst, { proc with pendingFrames })
  else (pst, proc)

def jalvBypass (proc : JalvProcess) (uiToPlugin : ZixRing) (nframes : UInt32) : Option (JalvProcess × ZixRing) :=
  (applyUiEvents proc uiToPlugin nframes).map (·.2)

end Jalv
