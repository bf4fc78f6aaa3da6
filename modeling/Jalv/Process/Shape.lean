import Jalv.Process.Queues
import Jalv.Process.Run

/-! What stays the same about the ports of a process, whatever messages arrive.

The messages may be anything that the ring holds, also none that the main thread
would send.
-/

set_option autoImplicit false

namespace Jalv

open Foundation

structure EvbufShape where
  capacity : UInt32
  atomChunk : URID
  atomSequence : URID

def LV2Evbuf.shape (evbuf : LV2Evbuf) : EvbufShape := ⟨evbuf.capacity, evbuf.atomChunk, evbuf.atomSequence⟩

structure PortShape where
  type : PortType
  flow : PortFlow
  bufSize : UInt32
  isBpm : Bool
  evbuf : Option EvbufShape

def JalvProcessPort.shape (port : JalvProcessPort) : PortShape :=
  ⟨port.type, port.flow, port.bufSize, port.isBpm, port.evbuf.map LV2Evbuf.shape⟩

@[simp] theorem lv2EvbufReset_shape (evbuf : LV2Evbuf) (input : Bool) :
    (lv2EvbufReset evbuf input).shape = evbuf.shape := by
  cases input <;> rfl

@[simp] theorem lv2EvbufWrite_shape (iter : LV2EvbufIterator) (frames : UInt32) (atom : Atom) :
    (lv2EvbufWrite iter frames atom).2.evbuf.shape = iter.evbuf.shape := by
  unfold lv2EvbufWrite
  split <;> rfl

@[simp] theorem writeEvents_shape (iter : LV2EvbufIterator) (events : List AtomEvent) :
    (writeEvents iter events).evbuf.shape = iter.evbuf.shape := by
  induction events generalizing iter with
  | nil => rfl
  | cons event rest ih => exact (ih _).trans (lv2EvbufWrite_shape iter event.frames event.atom)

theorem JalvProcessPort.shape_evbuf {port : JalvProcessPort} {evbuf next : LV2Evbuf}
    (buffer : port.evbuf = some evbuf) (same : next.shape = evbuf.shape) :
    JalvProcessPort.shape { port with evbuf := some next } = port.shape := by
  simp only [shape, buffer, Option.map_some, same]

def JalvProcess.shapes (proc : JalvProcess) : List PortShape := proc.ports.map JalvProcessPort.shape

theorem JalvProcessPort.layout_of_shape {port before : JalvProcessPort} (same : port.shape = before.shape) :
    port.layout = before.layout := by
  have whole (port : JalvProcessPort) :
      port.layout = ⟨port.shape.type, port.shape.flow, port.shape.evbuf.isSome⟩ := by
    simp [layout, shape]
  rw [whole port, whole before, same]

theorem JalvProcess.ports_layout {proc next : JalvProcess} (same : next.shapes = proc.shapes) :
    next.ports.map JalvProcessPort.layout = proc.ports.map JalvProcessPort.layout := by
  let layout (shape : PortShape) : PortLayout := ⟨shape.type, shape.flow, shape.evbuf.isSome⟩
  have whole (ports : List JalvProcessPort) :
      ports.map JalvProcessPort.layout = (ports.map JalvProcessPort.shape).map layout := by
    rw [List.map_map]
    congr 1
    funext port
    simp [JalvProcessPort.layout, JalvProcessPort.shape, layout]
  rw [whole, whole]
  exact congrArg (List.map layout) same

theorem JalvProcess.length_of_shapes {proc next : JalvProcess} (same : next.shapes = proc.shapes) :
    next.ports.length = proc.ports.length := by
  have length := congrArg List.length same
  rwa [shapes, shapes, List.length_map, List.length_map] at length

theorem JalvProcess.shape_at {proc next : JalvProcess} (same : next.shapes = proc.shapes) {index : Nat}
    {port : JalvProcessPort} (found : next.ports[index]? = some port) :
    ∃ before, proc.ports[index]? = some before ∧ port.shape = before.shape := by
  have shapes : next.shapes[index]? = some port.shape := by rw [shapes, List.getElem?_map, found, Option.map_some]
  rw [same, JalvProcess.shapes, List.getElem?_map] at shapes
  obtain ⟨before, here, shape⟩ := Option.map_eq_some_iff.mp shapes
  exact ⟨before, here, shape.symm⟩

section

variable {proc next : JalvProcess} {ring rest : ZixRing} {nframes : UInt32} {status : JalvProcessStatus}
  {header : JalvMessageHeader} {result : Except JalvProcessStatus ReceivedMessage}

theorem readControlChange_frame (read : readControlChange proc ring = some (result, next, rest)) :
    next = proc := by
  unfold readControlChange at read
  dsimp only at read
  split at read <;> cases read <;> rfl

theorem readEventTransfer_frame (read : readEventTransfer proc ring header = some (result, next, rest)) :
    ∃ processMsg, next = { proc with processMsg } := by
  unfold readEventTransfer at read
  split at read
  · dsimp only at read
    split at read <;> cases read <;> exact ⟨_, rfl⟩
  · cases read

theorem readRunStateChange_frame (read : readRunStateChange proc ring = some (result, next, rest)) :
    next = proc := by
  unfold readRunStateChange at read
  dsimp only at read
  split at read
  · split at read
    · cases read
      rfl
    · split at read <;> cases read
      rfl
  · cases read
    rfl

theorem readUiMessage_frame (read : readUiMessage proc ring header = some (result, next, rest)) :
    ∃ processMsg, next = { proc with processMsg } := by
  unfold readUiMessage at read
  split at read
  · exact ⟨proc.processMsg, readControlChange_frame read⟩
  · split at read
    · exact readEventTransfer_frame read
    · split at read
      · cases read
        exact ⟨_, rfl⟩
      · split at read
        · exact ⟨proc.processMsg, readRunStateChange_frame read⟩
        · cases read
          exact ⟨_, rfl⟩

theorem applyReceived_cases {received : ReceivedMessage} (applied : applyReceived proc nframes received = some next) :
    next = proc ∨ ∃ message, MessageEffect proc nframes next message := by
  cases received with
  | whole message => exact Or.inr ⟨message, applyUiMessage_effect applied⟩
  | overrun portIndex size =>
    obtain ⟨port, _, more⟩ := Option.bind_eq_some_iff.mp applied
    obtain ⟨evbuf, _, rejected⟩ := Option.bind_eq_some_iff.mp more
    split at rejected <;> cases rejected
    exact Or.inl rfl

/-- What reading into the receive buffer and applying one message preserve is preserved by
`apply_ui_events`, whatever the ring holds. -/
theorem applyUiEvents_invariant {holds : JalvProcess → Prop}
    (received : ∀ proc processMsg, holds proc → holds { proc with processMsg })
    (effect : ∀ proc message next, holds proc → MessageEffect proc nframes next message → holds next)
    (applied : applyUiEvents proc ring nframes = some (status, next, rest)) (begins : holds proc) : holds next := by
  rw [applyUiEvents] at applied
  -- The loop is followed with any bound and from any position
  generalize ring.readSpace + 1 = fuel at applied
  generalize ring.readSpace = space at applied
  generalize 0 = i at applied
  induction fuel generalizing i proc ring with
  | zero => cases applied
  | succ fuel ih =>
    unfold applyUiEventsFrom at applied
    split at applied
    · dsimp only at applied
      split at applied
      · split at applied
        · cases applied
        · next read =>
          cases applied
          obtain ⟨processMsg, rfl⟩ := readUiMessage_frame read
          exact received _ _ begins
        · next read =>
          obtain ⟨processMsg, rfl⟩ := readUiMessage_frame read
          have now := received _ processMsg begins
          split at applied
          · cases applied
          · next applies =>
            refine ih ?_ _ applied
            rcases applyReceived_cases applies with rfl | ⟨message, does⟩
            · exact now
            · exact effect _ message _ now does
      · cases applied
        exact begins
    · cases applied
      exact begins

theorem appendEvent_shapes {index : Nat} {atom : Atom} (appended : appendEvent proc index nframes atom = some next) :
    next.shapes = proc.shapes := by
  obtain ⟨port, evbuf, found, buffer, rfl⟩ := appendEvent_cases appended
  exact map_set_of_same JalvProcessPort.shape found (JalvProcessPort.shape_evbuf buffer (lv2EvbufWrite_shape _ _ _))

theorem MessageEffect.shapes {message : UiMessage} (effect : MessageEffect proc nframes next message) :
    next.shapes = proc.shapes := by
  cases effect with
  | controlPortChange _ same => rw [same]; rfl
  | runStateChange same => rw [same]; rfl
  | eventTransfer appended => exact appendEvent_shapes appended
  | stateRequest _ _ _ appended => exact appendEvent_shapes appended

theorem applyUiEvents_shapes (applied : applyUiEvents proc ring nframes = some (status, next, rest)) :
    next.shapes = proc.shapes :=
  applyUiEvents_invariant (fun _ _ same => same) (fun _ _ _ same effect => effect.shapes.trans same) applied rfl

theorem lilvInstanceRun_shapes (proc : JalvProcess) (output : PluginOutput) :
    (lilvInstanceRun proc output).shapes = proc.shapes := by
  apply List.ext_getElem?
  intro index
  simp only [JalvProcess.shapes, lilvInstanceRun, List.getElem?_map, List.getElem?_mapIdx, Option.map_map]
  congr 1
  funext port
  simp only [Function.comp_apply, PluginOutput.writePort]
  split
  · simp only [JalvProcessPort.shape, Option.map_map]
    rfl
  · rfl

end

end Jalv
