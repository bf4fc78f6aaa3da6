import Jalv.Foundation.Replica
import Jalv.Process.Shape

/-! The values of the ports of a process, which messages from the main thread change.

The user interface alone changes the values of control input ports, except for the
port that has the tempo.
-/

set_option autoImplicit false

namespace Jalv

open Foundation

def UiMessage.assignments : UiMessage → List (Nat × UInt32)
  | .controlPortChange portIndex value => [(portIndex.toNat, value)]
  | .eventTransfer _ _ | .stateRequest | .runStateChange _ => []

def JalvProcess.Driven (proc : JalvProcess) (index : Nat) : Prop :=
  ∃ port, proc.ports[index]? = some port ∧ port.type = .control ∧ port.flow = .input ∧ port.isBpm = false

section

variable {proc next : JalvProcess} {ring rest : ZixRing} {nframes : UInt32} {messages : List UiMessage}

theorem JalvProcess.driven_of_shapes (same : next.shapes = proc.shapes) {index : Nat} (driven : next.Driven index) :
    proc.Driven index := by
  obtain ⟨port, found, type, flow, tempo⟩ := driven
  obtain ⟨before, here, shape⟩ := JalvProcess.shape_at same found
  refine ⟨before, here, ?_, ?_, ?_⟩
  · rw [← type]
    exact (congrArg PortShape.type shape).symm
  · rw [← flow]
    exact (congrArg PortShape.flow shape).symm
  · rw [← tempo]
    exact (congrArg PortShape.isBpm shape).symm

theorem appendEvent_controlsBuf {index : Nat} {atom : Atom}
    (appended : appendEvent proc index nframes atom = some next) : next.controlsBuf = proc.controlsBuf := by
  obtain ⟨_, _, _, _, rfl⟩ := appendEvent_cases appended
  rfl

theorem deliver_value {message : UiMessage} (delivered : deliver nframes proc message = some next) (index : Nat) :
    next.controlsBuf[index]? = assigned message.assignments index proc.controlsBuf[index]? := by
  have effect := applyUiMessage_effect delivered
  cases effect with
  | @controlPortChange portIndex value _ _ =>
    have applied : (if portIndex.toNat < proc.ports.length ∧ portIndex.toNat < proc.controlsBuf.length then
        some { proc with controlsBuf := proc.controlsBuf.set portIndex.toNat value } else none) = some next := delivered
    by_cases inside : portIndex.toNat < proc.ports.length ∧ portIndex.toNat < proc.controlsBuf.length
    · rw [if_pos inside, Option.some.injEq] at applied
      subst applied
      exact getElem?_set_assigned inside.2 value index
    · rw [if_neg inside] at applied
      cases applied
  | eventTransfer appended =>
    rw [appendEvent_controlsBuf appended]
    rfl
  | stateRequest _ _ _ appended =>
    rw [appendEvent_controlsBuf appended]
    rfl
  | runStateChange same =>
    rw [same]
    rfl

theorem acceptAll_value (accepted : messages.foldlM (accept nframes) proc = some next) (index : Nat) :
    next.controlsBuf[index]? =
      assigned (messages.flatMap UiMessage.assignments) index proc.controlsBuf[index]? := by
  obtain ⟨-, delivered⟩ := acceptAll_eq_some_iff.mp accepted
  clear accepted
  induction messages generalizing proc with
  | nil =>
    rw [List.foldlM_nil, Option.pure_def, Option.some.injEq] at delivered
    subst delivered
    rfl
  | cons message others ih =>
    rw [List.foldlM_cons] at delivered
    obtain ⟨middle, first, others⟩ := Option.bind_eq_some_iff.mp delivered
    rw [List.flatMap_cons, assigned_append, ← deliver_value first]
    exact ih others

/-- Applying what is queued leaves an empty ring, and gives the ports the values of the messages. -/
theorem applyUiEvents_value {status : JalvProcessStatus} (small : ring.capacity < 2 ^ 32)
    (content : ring.content = stream UiMessage.encode messages)
    (applied : applyUiEvents proc ring nframes = some (status, next, rest)) :
    rest.capacity = ring.capacity ∧ rest.content = [] ∧ ∀ index : Nat, next.controlsBuf[index]? =
      assigned (messages.flatMap UiMessage.assignments) index proc.controlsBuf[index]? := by
  rw [applyUiEvents_eq nframes small content] at applied
  obtain ⟨final, accepted, same⟩ := Option.map_eq_some_iff.mp applied
  simp only [Prod.mk.injEq] at same
  obtain ⟨_, rfl, rfl⟩ := same
  exact ⟨rfl, rfl, acceptAll_value accepted⟩

theorem lilvInstanceRun_value (output : PluginOutput) {index : Nat} (driven : proc.Driven index) :
    (lilvInstanceRun proc output).controlsBuf[index]? = proc.controlsBuf[index]? := by
  obtain ⟨port, found, _, flow, _⟩ := driven
  have input : ¬(port.type = .control ∧ port.flow = .output) := by
    rw [flow]
    exact fun both => by cases both.2
  rw [lilvInstanceRun, List.getElem?_mapIdx]
  cases here : proc.controlsBuf[index]? with
  | none => rfl
  | some value => simp only [Option.map_some, PluginOutput.writeControl, found, if_neg input]

end

end Jalv
