import Jalv.Process.Shape

/-! The buffers that messages from the main thread are written to.

An event for an event input port finds a buffer in input mode, and no message
changes the buffer of any other port.
-/

set_option autoImplicit false

namespace Jalv

open Foundation

def JalvProcessPort.kind (port : JalvProcessPort) : PortType × PortFlow := (port.type, port.flow)

def JalvProcess.kinds (proc : JalvProcess) : List (PortType × PortFlow) := proc.ports.map JalvProcessPort.kind

def UiMessage.ForInput (kinds : List (PortType × PortFlow)) : UiMessage → Prop
  | .eventTransfer portIndex _ => kinds[portIndex.toNat]? = some (.event, .input)
  | .controlPortChange _ _ | .stateRequest | .runStateChange _ => True

def UiMessage.ForSequence (proc : JalvProcess) : UiMessage → Prop
  | .eventTransfer portIndex _ => ∃ port evbuf, proc.ports[portIndex.toNat]? = some port ∧
      port.evbuf = some evbuf ∧ evbuf.type = evbuf.atomSequence
  | .controlPortChange _ _ | .stateRequest | .runStateChange _ => True

def JalvProcess.OthersKept (proc next : JalvProcess) : Prop :=
  ∀ (index : Nat) (port : JalvProcessPort), proc.ports[index]? = some port → port.kind ≠ (.event, .input) →
    next.ports[index]? = some port

/-- Applying messages one after the other, each event finds a buffer in input mode, and no
message changes another port. -/
def Decodes (nframes : UInt32) : JalvProcess → List UiMessage → Prop
  | _, [] => True
  | proc, message :: rest => message.ForSequence proc ∧
      ∀ next, accept nframes proc message = some next → proc.OthersKept next ∧ Decodes nframes next rest

def JalvProcess.InputMode (proc : JalvProcess) : Prop :=
  ∀ (index : Nat) (port : JalvProcessPort), proc.ports[index]? = some port → port.kind = (.event, .input) →
    ∃ evbuf, port.evbuf = some evbuf ∧ evbuf.type = evbuf.atomSequence

section

variable {proc next : JalvProcess} {nframes : UInt32} {message : UiMessage}

theorem JalvProcess.kind_at {index : Nat} {kind : PortType × PortFlow} (found : proc.kinds[index]? = some kind) :
    ∃ port, proc.ports[index]? = some port ∧ port.kind = kind := by
  rw [kinds, List.getElem?_map] at found
  exact Option.map_eq_some_iff.mp found

theorem JalvProcess.Queues.inputMode {held awaited : Nat → List AtomEvent} (queues : proc.Queues held awaited) :
    proc.InputMode := by
  intro index port found kind
  have kind := Prod.mk.inj kind
  obtain ⟨evbuf, buffer, holds, _⟩ := queues index port found kind.1 kind.2
  exact ⟨evbuf, buffer, holds.type⟩

theorem appendEvent_inputMode {index : Nat} {atom : Atom} (mode : proc.InputMode)
    (appended : appendEvent proc index nframes atom = some next) : next.InputMode := by
  obtain ⟨port, evbuf, found, buffer, rfl⟩ := appendEvent_cases appended
  obtain ⟨inside, _⟩ := List.getElem?_eq_some_iff.mp found
  intro other changed here kind
  by_cases same : index = other
  · subst same
    rw [JalvProcess.setEvbuf, List.getElem?_set_self inside, Option.some.injEq] at here
    subst here
    obtain ⟨_, held, sequence⟩ := mode index port found kind
    rw [buffer, Option.some.injEq] at held
    subst held
    exact ⟨_, rfl, by rw [lv2EvbufWrite_type, lv2EvbufWrite_atomSequence]; exact sequence⟩
  · rw [JalvProcess.setEvbuf, List.getElem?_set_ne same] at here
    exact mode other changed here kind

theorem appendEvent_kinds {index : Nat} {atom : Atom} (appended : appendEvent proc index nframes atom = some next) :
    next.kinds = proc.kinds := by
  obtain ⟨port, evbuf, found, _, rfl⟩ := appendEvent_cases appended
  exact map_set_of_same JalvProcessPort.kind found rfl

theorem appendEvent_othersKept {index : Nat} {atom : Atom} (input : proc.kinds[index]? = some (.event, .input))
    (appended : appendEvent proc index nframes atom = some next) : proc.OthersKept next := by
  obtain ⟨port, evbuf, found, _, rfl⟩ := appendEvent_cases appended
  obtain ⟨_, here, kind⟩ := JalvProcess.kind_at input
  rw [found, Option.some.injEq] at here
  subst here
  intro other kept there different
  have apart : index ≠ other := by
    rintro rfl
    rw [found, Option.some.injEq] at there
    exact different (there ▸ kind)
  rw [JalvProcess.setEvbuf, List.getElem?_set_ne apart]
  exact there

theorem MessageEffect.inputMode (mode : proc.InputMode) (effect : MessageEffect proc nframes next message) :
    next.InputMode := by
  cases effect with
  | controlPortChange _ same => exact same ▸ mode
  | runStateChange same => exact same ▸ mode
  | eventTransfer appended => exact appendEvent_inputMode mode appended
  | stateRequest _ _ _ appended => exact appendEvent_inputMode mode appended

theorem MessageEffect.kinds (effect : MessageEffect proc nframes next message) : next.kinds = proc.kinds := by
  cases effect with
  | controlPortChange _ same => rw [same]; rfl
  | runStateChange same => rw [same]; rfl
  | eventTransfer appended => exact appendEvent_kinds appended
  | stateRequest _ _ _ appended => exact appendEvent_kinds appended

theorem MessageEffect.othersKept (forInput : message.ForInput proc.kinds)
    (effect : MessageEffect proc nframes next message) : proc.OthersKept next := by
  cases effect with
  | controlPortChange _ same =>
    subst same
    exact fun _ _ found _ => found
  | runStateChange same =>
    subst same
    exact fun _ _ found _ => found
  | eventTransfer appended => exact appendEvent_othersKept forInput appended
  | @stateRequest _ port found kind appended =>
    refine appendEvent_othersKept ?_ appended
    rw [JalvProcess.kinds, List.getElem?_map, found, Option.map_some, JalvProcessPort.kind, kind.1, kind.2]

theorem JalvProcess.receive_ports (proc : JalvProcess) (message : UiMessage) :
    (proc.receive message).ports = proc.ports := by
  cases message <;> rfl

theorem decodes {messages : List UiMessage} (mode : proc.InputMode)
    (forInput : ∀ message ∈ messages, message.ForInput proc.kinds) : Decodes nframes proc messages := by
  induction messages generalizing proc with
  | nil => trivial
  | cons message rest ih =>
    obtain ⟨first, others⟩ := List.forall_mem_cons.mp forInput
    -- Receiving a message changes no port
    have ports := proc.receive_ports message
    have kinds : (proc.receive message).kinds = proc.kinds := by rw [JalvProcess.kinds, ports]; rfl
    have received : (proc.receive message).InputMode := by rw [JalvProcess.InputMode, ports]; exact mode
    refine ⟨?_, fun next accepted => ?_⟩
    · cases message with
      | eventTransfer portIndex atom =>
        obtain ⟨port, found, kind⟩ := JalvProcess.kind_at first
        obtain ⟨evbuf, buffer, sequence⟩ := mode _ port found kind
        exact ⟨port, evbuf, found, buffer, sequence⟩
      | controlPortChange | stateRequest | runStateChange => trivial
    · have effect : MessageEffect (proc.receive message) nframes next message := by
        unfold accept at accepted
        split at accepted
        · exact applyUiMessage_effect accepted
        · cases accepted
      have kept := effect.othersKept (kinds ▸ first)
      rw [JalvProcess.OthersKept, ports] at kept
      exact ⟨kept, ih (effect.inputMode received) (effect.kinds.trans kinds ▸ others)⟩

/-- Whatever messages the ring holds, `apply_ui_events` keeps the modes of the buffers. -/
theorem applyUiEvents_inputMode {ring rest : ZixRing} {status : JalvProcessStatus} (mode : proc.InputMode)
    (applied : applyUiEvents proc ring nframes = some (status, next, rest)) : next.InputMode :=
  applyUiEvents_invariant (fun _ _ holds => holds) (fun _ _ _ holds effect => effect.inputMode holds) applied mode

theorem applyUiEvents_controlIn {ring rest : ZixRing} {status : JalvProcessStatus}
    (applied : applyUiEvents proc ring nframes = some (status, next, rest)) : next.controlIn = proc.controlIn := by
  let kept (after : JalvProcess) : Prop := after.controlIn = proc.controlIn
  refine applyUiEvents_invariant (fun _ _ same => same) (fun before message after (same : kept before) effect => ?_)
    applied (rfl : kept proc)
  obtain ⟨_, _, _, _, rfl⟩ := effect.frame
  exact same

end

end Jalv
