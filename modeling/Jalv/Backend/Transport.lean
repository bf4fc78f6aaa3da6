import Jalv.Backend.Jack

/-! The transport position that the JACK backend reports to the plugin. -/

set_option autoImplicit false

namespace Jalv

open Foundation

def positionProperties (backend : JalvBackend) (transport : JackTransport) : List (URID × URID × List Byte) :=
  let types := backend.forge
  let urids := backend.urids
  let floats := backend.floats
  let pos := transport.pos
  [(urids.timeFrame, types.long, little 8 pos.frame.toNat),
    (urids.timeSpeed, types.float, word (if transport.state = .rolling then floatOne else 0))] ++
  if pos.bbt then
    [(urids.timeBarBeat, types.float, word (floats.barBeat pos.beat pos.tick pos.ticksPerBeat)),
      (urids.timeBar, types.long, little 8 (pos.bar - 1).toInt64.toUInt64.toNat),
      (urids.timeBeatUnit, types.int, word (floats.toInt pos.beatType)),
      (urids.timeBeatsPerBar, types.float, word pos.beatsPerBar),
      (urids.timeBeatsPerMinute, types.float, word (floats.narrow pos.beatsPerMinute))]
  else []

def positionAtom (backend : JalvBackend) (transport : JackTransport) : Atom :=
  .ofBytes backend.forge.object (word 0 ++ word backend.urids.timePosition ++
    ((positionProperties backend transport).map fun (key, type, body) => propertyBytes key type body).flatten)

def transportChanged (backend : JalvBackend) (expected : JalvPosition) (transport : JackTransport) : Bool :=
  decide (transport.state = .rolling) ≠ expected.rolling ∨ transport.pos.frame ≠ expected.position ∨
    (transport.pos.bbt ∧ backend.floats.differs transport.pos.beatsPerMinute expected.bpm)

def forgeProperty (forge : AtomForge) (property : URID × URID × List Byte) : Option AtomForge :=
  (lv2AtomForgeKey forge property.1).bind fun forge => lv2AtomForgePrimitive forge property.2.1 property.2.2

theorem forgeProperties_room (forge : AtomForge) (properties : List (URID × URID × List Byte))
    (small : ∀ property ∈ properties, property.2.2.length ≤ 8)
    (room : forge.buffer.length + 24 * properties.length ≤ forge.size.toNat) :
    properties.foldlM forgeProperty forge =
      some (forge.append (properties.map fun (key, type, body) => propertyBytes key type body).flatten) := by
  induction properties generalizing forge with
  | nil => simp [AtomForge.append]
  | cons property rest ih =>
    obtain ⟨first, others⟩ := List.forall_mem_cons.mp small
    rw [List.length_cons] at room
    have bound : (propertyBytes property.1 property.2.1 property.2.2).length ≤ 24 := by
      simp only [propertyBytes, List.length_append, length_word, length_padded]
      omega
    have written : forgeProperty forge property =
        some (forge.append (propertyBytes property.1 property.2.1 property.2.2)) :=
      lv2AtomForge_property forge property.1 property.2.1 property.2.2 (by omega)
    rw [List.foldlM_cons, written, Option.bind_eq_bind, Option.bind_some, ih _ others (by
      rw [AtomForge.length_append, AtomForge.append_size]
      omega), AtomForge.append_append]
    rfl

theorem forgePosition_eq (backend : JalvBackend) (transport : JackTransport) :
    forgePosition backend transport.state transport.pos = some (positionAtom backend transport) := by
  let start : AtomForge := ⟨sizeofPosBuf,
    word 8 ++ word backend.forge.object ++ word 0 ++ word backend.urids.timePosition⟩
  have begins : lv2AtomForgeObject backend.forge sizeofPosBuf 0 backend.urids.timePosition = some start := by
    rw [lv2AtomForgeObject, lv2AtomForgeRaw_room _ _ (by simp [sizeofPosBuf])]
    rfl
  have filled := forgeProperties_room start (positionProperties backend transport)
    (by cases bbt : transport.pos.bbt <;> simp [positionProperties, bbt])
    (by cases bbt : transport.pos.bbt <;> simp [positionProperties, bbt, start, sizeofPosBuf])
  have steps : forgePosition backend transport.state transport.pos =
      ((positionProperties backend transport).foldlM forgeProperty start).map (·.object backend.forge) := by
    -- the object is rewritten on its own, so that it is not unfolded when the proof is checked
    rw [forgePosition, Option.bind_eq_bind, begins, Option.bind_some]
    cases bbt : transport.pos.bbt <;>
      simp [positionProperties, bbt, forgeProperty, Option.map_eq_bind, Option.bind_assoc]
  have behind (bytes : List Byte) : (start.append bytes).buffer.drop sizeofAtom =
      word 0 ++ word backend.urids.timePosition ++ bytes := by
    have header : (word 8 ++ word backend.forge.object).length = sizeofAtom := by simp [sizeofAtom]
    simp only [AtomForge.append, start, List.append_assoc]
    rw [← List.append_assoc (word 8), List.drop_left' header]
  rw [steps, filled, Option.map_some, AtomForge.object, behind, positionAtom]

-- The state of the transport that is expected in the next cycle, without a change.
def expectedTransport (backend : JalvBackend) (expected : JalvPosition) (cycle : JackCycle) : JalvPosition :=
  let pos := cycle.second.pos
  { position := if cycle.second.state = .rolling then pos.frame + cycle.nframes else pos.frame
    bpm := if pos.bbt then backend.floats.narrow pos.beatsPerMinute else expected.bpm
    rolling := cycle.second.state = .rolling }

def transportData (backend : JalvBackend) (expected : JalvPosition) (cycle : JackCycle) : TransportData :=
  let changed := transportChanged backend expected cycle.second
  ⟨cycle.first.pos, changed, if changed then positionAtom backend cycle.second else emptyAtom⟩

theorem processTransport_eq (backend : JalvBackend) (expected : JalvPosition) (cycle : JackCycle) :
    processTransport backend expected cycle =
      some (expectedTransport backend expected cycle, transportData backend expected cycle) := by
  cases changed : transportChanged backend expected cycle.second <;>
  · simp only [transportData, changed]
    rw [transportChanged] at changed
    simp [processTransport, changed, forgePosition_eq, expectedTransport]

end Jalv
