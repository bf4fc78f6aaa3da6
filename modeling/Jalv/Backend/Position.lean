import Jalv.Backend.Delivery
import Jalv.Event.Reading
import Jalv.Message.Objects

/-! What a plugin reads of the transport (`forge_position` of `jack.c`).

The position of the transport comes as an object in the buffer of a port. A plugin asks it
for the properties of a time:Position.
-/

set_option autoImplicit false

namespace Jalv

open Foundation

def positionKeys (urids : JalvURIDs) : List URID :=
  [urids.timeFrame, urids.timeSpeed, urids.timeBarBeat, urids.timeBar, urids.timeBeatUnit, urids.timeBeatsPerBar,
    urids.timeBeatsPerMinute]

/-- What each of the properties is for a transport. Without a tempo there are only the first two. -/
def positionValues (backend : JalvBackend) (transport : JackTransport) : List (Option Atom) :=
  let types := backend.forge
  let floats := backend.floats
  let pos := transport.pos
  let known (value : Atom) : Option Atom := if pos.bbt then some value else none
  [some (.ofBytes types.long (little 8 pos.frame.toNat)),
    some (.ofBytes types.float (word (if transport.state = .rolling then floatOne else 0))),
    known (.ofBytes types.float (word (floats.barBeat pos.beat pos.tick pos.ticksPerBeat))),
    known (.ofBytes types.long (little 8 (pos.bar - 1).toInt64.toUInt64.toNat)),
    known (.ofBytes types.int (word (floats.toInt pos.beatType))),
    known (.ofBytes types.float (word pos.beatsPerBar)),
    known (.ofBytes types.float (word (floats.narrow pos.beatsPerMinute)))]

structure PositionRead (backend : JalvBackend) (transport : JackTransport) (memory : Memory Byte) (object : Nat) :
    Prop where
  isObject : (atomAt memory object).type = backend.forge.object
  otype : objectType memory object = backend.urids.timePosition
  values : ∃ answers, lv2AtomObjectGet memory object (positionKeys backend.urids) = some answers ∧
    answers.map (Option.map (atomAt memory)) = positionValues backend transport

def LV2EvbufIterator.body (iter : LV2EvbufIterator) : Nat := iter.offset.toNat + 8

/-- Each position that a cycle has for a port is an event in the buffer of the port, from which it is read as it was
reported. -/
def DeliveryState.PositionsRead (backend : JalvBackend) (state : DeliveryState) : Prop :=
  ∀ call ∈ state.calls, ∀ index port transport, call.1.ports[index]? = some port → port.type = .event →
    port.flow = .input → ⟨0, positionAtom backend transport⟩ ∈ call.2 index →
      ∃ evbuf steps, port.evbuf = some evbuf ∧
        let iter := lv2EvbufNext^[steps] (lv2EvbufBegin evbuf)
        lv2EvbufGet iter = some ⟨0, positionAtom backend transport⟩ ∧
          PositionRead backend transport evbuf.contents iter.body

section

variable {backend : JalvBackend} {transport : JackTransport} {memory : Memory Byte} {object : Nat}

theorem positionAtom_eq (backend : JalvBackend) (transport : JackTransport) : positionAtom backend transport =
    .ofBytes backend.forge.object
      (objectBytes backend.urids.timePosition (positionProperties backend transport)) := rfl

theorem position_small (backend : JalvBackend) (transport : JackTransport) :
    (objectBytes backend.urids.timePosition (positionProperties backend transport)).length < 2 ^ 32 := by
  cases bbt : transport.pos.bbt <;>
  · simp [objectBytes, positionProperties, bbt, ForgedProperty.bytes, propertyBytes, length_padded]

theorem position_read (distinct : (positionKeys backend.urids).Nodup)
    (held : atomAt memory object = positionAtom backend transport) : PositionRead backend transport memory object := by
  rw [positionAtom_eq] at held
  obtain ⟨otype, _⟩ := holdsObject (position_small backend transport) held
  refine ⟨congrArg Atom.type held, otype, ?_⟩
  obtain ⟨answers, got, values⟩ := lv2AtomObjectGet_forged distinct (position_small backend transport) held
  refine ⟨answers, got, values.trans ?_⟩
  have found (rest : List URID)
      (keys : positionKeys backend.urids = (positionProperties backend transport).map (·.1) ++ rest) :
      (positionKeys backend.urids).map (fun key => (positionProperties backend transport).lookup key) =
        (positionProperties backend transport).map (fun property => some property.2) ++ rest.map fun _ => none := by
    rw [keys]
    exact map_lookup _ rest (keys ▸ distinct)
  rw [show (fun key => ((positionProperties backend transport).lookup key).map fun value => Atom.ofBytes value.1 value.2) =
    (Option.map fun value : URID × List Byte => Atom.ofBytes value.1 value.2) ∘
      (fun key => (positionProperties backend transport).lookup key) from rfl, ← List.map_map]
  -- the keys of the properties come first among all keys
  cases bbt : transport.pos.bbt
  · rw [found ((positionKeys backend.urids).drop 2) (by simp [positionKeys, positionProperties, bbt])]
    simp [positionKeys, positionProperties, positionValues, bbt]
  · rw [found [] (by simp [positionKeys, positionProperties, bbt])]
    simp [positionProperties, positionValues, bbt]

/-- An event that is read from a buffer is reached by an iterator. -/
theorem lv2EvbufEventsFrom_get {fuel : Nat} {iter : LV2EvbufIterator} {events : List AtomEvent}
    (read : lv2EvbufEventsFrom fuel iter = some events) {event : AtomEvent} (member : event ∈ events) :
    ∃ steps : Nat, lv2EvbufGet (lv2EvbufNext^[steps] iter) = some event := by
  induction fuel generalizing iter events with
  | zero => cases read
  | succ fuel ih =>
    rw [lv2EvbufEventsFrom] at read
    split at read
    · next first here =>
      obtain ⟨rest, later, rfl⟩ := Option.map_eq_some_iff.mp read
      rcases List.mem_cons.mp member with rfl | behind
      · exact ⟨0, here⟩
      · obtain ⟨steps, found⟩ := ih later behind
        exact ⟨steps + 1, found⟩
    · cases read
      cases member

theorem lv2EvbufNext_iterate_evbuf (steps : Nat) (iter : LV2EvbufIterator) :
    (lv2EvbufNext^[steps] iter).evbuf = iter.evbuf := by
  induction steps generalizing iter with
  | zero => rfl
  | succ steps ih => exact (ih (lv2EvbufNext iter)).trans (lv2EvbufNext_evbuf iter)

theorem lv2EvbufGet_atomAt {iter : LV2EvbufIterator} {event : AtomEvent} (got : lv2EvbufGet iter = some event) :
    atomAt iter.evbuf.contents iter.body = event.atom := by
  rw [lv2EvbufGet] at got
  split at got
  · rw [Option.some.injEq] at got
    subst got
    rfl
  · cases got

/-- In each call of `lilv_instance_run`, a plugin reads the transport as it was reported from the buffer of
each port that the position was written to. -/
theorem positions_read (distinct : (positionKeys backend.urids).Nodup) {state : DeliveryState}
    (reachable : (deliverySystem backend (DeliveryState.Separate backend)).Reachable state) :
    state.PositionsRead backend := by
  have served : state.Served := TransitionSystem.invariant (fun _ => DeliveryState.served_initial)
    (fun _ _ served step => step.served served) reachable
  intro call member index port transport found event input expected
  obtain ⟨evbuf, events, buffer, _, read, same⟩ := served.delivered call member index port found event input
  obtain ⟨steps, got⟩ := lv2EvbufEventsFrom_get read (same.mem_iff.mpr expected)
  have held := lv2EvbufGet_atomAt got
  rw [lv2EvbufNext_iterate_evbuf] at held
  exact ⟨evbuf, steps, buffer, got, position_read distinct held⟩

end

def positionTestTransport (bbt : Bool) : JackTransport := ⟨.rolling, ⟨4800, bbt, 3, 2, 0, 0, 0, 0, 0⟩⟩

def positionTestCycle (bbt : Bool) : JackCycle :=
  ⟨64, positionTestTransport bbt, positionTestTransport bbt, fun _ => []⟩

def positionTestStart : DeliveryState :=
  .start (jalvProcessActivate { deliveryTestProcess with
    ports := [⟨.event, .input, true, [], none, 0, false, true, false, true, true⟩] } jackTestBackend.urids 4096 0
    (fun _ _ => 0) fun _ => 0) 4095 4095

set_option maxRecDepth 1000 in
theorem positionTest_reachable (bbt : Bool) : ∃ state : DeliveryState,
    (deliverySystem jackTestBackend (DeliveryState.Separate jackTestBackend)).Reachable state ∧
      state.calls.map (fun call => call.2 0) = [[⟨0, positionAtom jackTestBackend (positionTestTransport bbt)⟩]] := by
  have start : (deliverySystem jackTestBackend (DeliveryState.Separate jackTestBackend)).Reachable
      positionTestStart := by
    refine ⟨_, ?_, .refl⟩
    refine ⟨_, _, _, _, _, _, _, rfl, rfl, fun _ => rfl⟩
  have sent := start.step (.send (.runStateChange .running) trivial rfl)
  have resumed := sent.step (.paused 64 rfl rfl (JalvProcess.OneBuffer.room ⟨_, _, rfl, rfl, rfl⟩ trivial) rfl)
  cases bbt with
  | false =>
    exact ⟨_, resumed.step (.run (positionTestCycle false) rfl rfl
      (JalvProcess.OneBuffer.room ⟨_, _, rfl, rfl, rfl⟩ ⟨by decide, trivial⟩) (fun _ _ _ _ _ => Or.inl rfl) rfl), rfl⟩
  | true =>
    exact ⟨_, resumed.step (.run (positionTestCycle true) rfl rfl
      (JalvProcess.OneBuffer.room ⟨_, _, rfl, rfl, rfl⟩ ⟨by decide, trivial⟩) (fun _ _ _ _ _ => Or.inl rfl) rfl), rfl⟩

/-- The transport has begun to roll, without a tempo and with one. -/
theorem positions_read_test : ∃ plain timed : DeliveryState,
    plain.calls.map (fun call => call.2 0) =
      [[⟨0, positionAtom jackTestBackend (positionTestTransport false)⟩]] ∧ plain.PositionsRead jackTestBackend ∧
    timed.calls.map (fun call => call.2 0) =
      [[⟨0, positionAtom jackTestBackend (positionTestTransport true)⟩]] ∧ timed.PositionsRead jackTestBackend := by
  obtain ⟨plain, rolls, calls⟩ := positionTest_reachable false
  obtain ⟨timed, knows, further⟩ := positionTest_reachable true
  exact ⟨plain, timed, calls, positions_read (by decide) rolls, further, positions_read (by decide) knows⟩

end Jalv
