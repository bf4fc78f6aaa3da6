import Jalv.Backend.Cycle
import Jalv.Backend.Host
import Jalv.Host.State

/-! What is written to the ring to the main thread does not depend on what is in it.

A call of `set_port_value`, and each part of a cycle, writes the same messages to any
ring, and leaves out those that find no room.
-/

set_option autoImplicit false

namespace Jalv

open Foundation

def writeMessage (ring : ZixRing) (message : UiMessage) : ZixRing := (ring.writeAll message.parts).getD ring

theorem jalvWriteControl_eq_write (ring : ZixRing) (portIndex value : UInt32) :
    (jalvWriteControl ring portIndex value).2 = writeMessage ring (.controlPortChange portIndex value) := by
  rw [jalvWriteControl_eq, writeMessage]
  cases ring.writeAll (UiMessage.controlPortChange portIndex value).parts <;> rfl

theorem jalvWriteEvent_eq_write (ring : ZixRing) (portIndex : UInt32) (atom : Atom) :
    (jalvWriteEvent ring portIndex atom).2 = writeMessage ring (.eventTransfer portIndex atom) := by
  rw [jalvWriteEvent_eq, writeMessage]
  cases ring.writeAll (UiMessage.eventTransfer portIndex atom).parts <;> rfl

/-- A call of `set_port_value` writes the same messages to any ring. -/
theorem setPortValue_writes {jalv next : JalvImpl} {uiToPlugin toPlugin before after : ZixRing} {symbol : Text}
    {atom : Atom} (set : setPortValue jalv uiToPlugin before symbol atom = some (next, toPlugin, after)) :
    ∃ messages : List UiMessage, ∀ ring, setPortValue jalv uiToPlugin ring symbol atom =
      some (next, toPlugin, messages.foldl writeMessage ring) := by
  unfold setPortValue at set ⊢
  split at set
  · cases set
    exact ⟨[], fun _ => rfl⟩
  · next port _ =>
    split at set
    · cases set
      exact ⟨[], fun _ => rfl⟩
    · next pointer _ =>
      obtain ⟨⟨status, middle⟩, stored, rest⟩ := Option.bind_eq_some_iff.mp set
      simp only [stored, Option.bind_eq_bind, Option.bind_some] at rest ⊢
      split at rest
      · next control =>
        obtain ⟨found, known, rest⟩ := Option.bind_eq_some_iff.mp rest
        simp only [if_pos control, known, Option.bind_some] at rest ⊢
        split at rest
        · next paused =>
          simp only [if_pos paused]
          split at rest
          · next inside =>
            simp only [if_pos inside]
            split at rest
            · next success =>
              cases rest
              refine ⟨[.controlPortChange port.index (anyValueFloat middle.world middle.forge found.value.value)],
                fun ring => ?_⟩
              rw [if_pos success, jalvWriteControl_eq_write]
              rfl
            · next failure =>
              cases rest
              exact ⟨[], fun _ => if_neg failure⟩
          · cases rest
        · next running =>
          simp only [if_neg running]
          split at rest
          · refine ⟨[.controlPortChange port.index (anyValueFloat middle.world middle.forge found.value.value)],
              fun ring => ?_⟩
            cases rest
            rw [jalvWriteControl_eq_write]
            rfl
          · cases rest
            exact ⟨[], fun _ => rfl⟩
      · next other =>
        cases rest
        exact ⟨[], fun _ => if_neg other⟩

section

variable {backend : JalvBackend}

theorem preProcessPort_writes {xport : TransportData} {bpm : UInt32} {midi : Nat → List JackMidiEvent} {index : Nat}
    {port changed : JalvProcessPort} {before after : PreState}
    (done : preProcessPort backend xport bpm midi index port before = some (changed, after)) :
    ∃ messages : List UiMessage, ∀ ring,
      preProcessPort backend xport bpm midi index port ⟨before.controlsBuf, ring⟩ =
        some (changed, ⟨after.controlsBuf, messages.foldl writeMessage ring⟩) := by
  unfold preProcessPort at done ⊢
  split at done
  · next system =>
    cases done
    exact ⟨[], fun _ => if_pos system⟩
  · next system =>
    simp only [if_neg system]
    split at done
    · next input =>
      obtain ⟨evbuf, buffer, same⟩ := Option.bind_eq_some_iff.mp done
      cases same
      exact ⟨[], fun _ => by rw [if_pos input, buffer]; rfl⟩
    · next input =>
      simp only [if_neg input]
      split at done
      · next event =>
        obtain ⟨evbuf, buffer, same⟩ := Option.bind_eq_some_iff.mp done
        cases same
        exact ⟨[], fun _ => by rw [if_pos event, buffer]; rfl⟩
      · next event =>
        simp only [if_neg event]
        split at done
        -- Only the port for the tempo writes
        · next tempo =>
          split at done
          · next inside =>
            cases done
            refine ⟨[.controlPortChange (UInt32.ofNat index) bpm], fun ring => ?_⟩
            rw [if_pos tempo, if_pos inside, jalvWriteControl_eq_write]
            rfl
          · cases done
        · next tempo =>
          cases done
          exact ⟨[], fun _ => if_neg tempo⟩

theorem preProcess_writes {jack : JackProcess} {cycle : JackCycle} {ports : List JalvProcessPort} {state : PreState}
    (prepared : preProcess backend jack cycle = some (ports, state)) :
    ∃ messages : List UiMessage, ∀ ring, preProcess backend { jack with pluginToUi := ring } cycle =
      some (ports, ⟨state.controlsBuf, messages.foldl writeMessage ring⟩) :=
  changeFrom_writes (fun ring (state : PreState) => (⟨state.controlsBuf, ring⟩ : PreState)) writeMessage
    (fun _ _ _ _ _ done => preProcessPort_writes done) prepared

theorem processCbPrepare_writes {jack next : JackProcess} {cycle : JackCycle}
    (prepared : processCbPrepare backend jack cycle = some next) :
    ∃ messages : List UiMessage, ∀ ring, processCbPrepare backend { jack with pluginToUi := ring } cycle =
      some { next with pluginToUi := messages.foldl writeMessage ring } := by
  obtain ⟨ports, state, done, rfl⟩ := processCbPrepare_eq_some_iff.mp prepared
  obtain ⟨messages, writes⟩ := preProcess_writes done
  exact ⟨messages, fun ring => processCbPrepare_eq_some_iff.mpr ⟨ports, _, writes ring, rfl⟩⟩

theorem forwardEvents_writes (urids : JalvURIDs) (index : Nat) (port : JalvProcessPort) (events : List AtomEvent)
    (state : PostState) :
    ∃ messages : List UiMessage, ∀ ring,
      events.foldl (forwardEvent urids index port) { state with pluginToUi := ring } =
        { events.foldl (forwardEvent urids index port) state with
          pluginToUi := messages.foldl writeMessage ring } := by
  induction events generalizing state with
  | nil => exact ⟨[], fun _ => rfl⟩
  | cons event rest ih =>
    obtain ⟨messages, writes⟩ := ih (forwardEvent urids index port state event)
    refine ⟨.eventTransfer (UInt32.ofNat index) event.atom :: messages, fun ring => ?_⟩
    rw [List.foldl_cons, List.foldl_cons, List.foldl_cons, ← writes, ← jalvWriteEvent_eq_write]
    rfl

theorem finishPort_writes {controlsBuf : List UInt32} {sendUpdates : Bool} {index : Nat}
    {port changed : JalvProcessPort} {before after : PostState}
    (done : finishPort backend controlsBuf sendUpdates index port before = some (changed, after)) :
    ∃ messages : List UiMessage, ∀ ring,
      finishPort backend controlsBuf sendUpdates index port { before with pluginToUi := ring } =
        some (changed, { after with pluginToUi := messages.foldl writeMessage ring }) := by
  unfold finishPort at done ⊢
  split at done
  · next input =>
    obtain ⟨evbuf, buffer, same⟩ := Option.bind_eq_some_iff.mp done
    cases same
    exact ⟨[], fun _ => by rw [if_pos input, buffer]; rfl⟩
  · next input =>
    simp only [if_neg input]
    split at done
    · next output =>
      have control : ¬ (port.type = .control ∧ port.reportsLatency) := by simp [output.2]
      simp only [if_pos output, postProcessOutputPort, if_pos output.1, if_neg control, if_pos output.2] at done ⊢
      obtain ⟨state, posted, same⟩ := Option.map_eq_some_iff.mp done
      obtain ⟨evbuf, buffer, rest⟩ := Option.bind_eq_some_iff.mp posted
      obtain ⟨events, found, ends⟩ := Option.bind_eq_some_iff.mp rest
      cases same
      cases ends
      obtain ⟨messages, writes⟩ := forwardEvents_writes backend.urids index port events before
      refine ⟨messages, fun ring => ?_⟩
      rw [← writes, buffer]
      simp only [Option.bind_eq_bind, Option.bind_some, found]
      rfl
    · next output =>
      cases done
      exact ⟨[], fun _ => if_neg output⟩

theorem processCbEnd_writes {jack next : JackProcess} {pst : JalvProcessStatus} {nframes : UInt32}
    {output : PluginOutput} {midi : List (Nat × JackMidiEvent)}
    (done : processCbEnd backend pst jack nframes output = some (next, midi)) :
    ∃ messages : List UiMessage, ∀ ring, processCbEnd backend pst { jack with pluginToUi := ring } nframes output =
      some ({ next with pluginToUi := messages.foldl writeMessage ring }, midi) := by
  unfold processCbEnd at done ⊢
  cases ran : jalvRunEnd pst jack.proc nframes output with
  | mk status proc =>
    rw [ran] at done
    obtain ⟨⟨ports, state⟩, finished, same⟩ := Option.bind_eq_some_iff.mp done
    obtain ⟨messages, writes⟩ := changeFrom_writes
      (fun ring (state : PostState) => { state with pluginToUi := ring }) writeMessage
      (fun _ _ _ _ _ done => finishPort_writes done) finished
    cases same
    refine ⟨messages, fun ring => ?_⟩
    have again := writes ring
    dsimp only
    simp only [ran]
    rw [again]
    rfl

end

end Jalv
