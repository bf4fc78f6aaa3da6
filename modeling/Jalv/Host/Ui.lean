import Jalv.Host.Open
import Jalv.Message.Forge
import Jalv.Message.Message
import Jalv.Message.Patch

/-! What a user interface does to the main thread (`jalv.c`).

Log messages are left out. `none` is undefined behavior of a value that is set
or of a buffer that is read.
-/

set_option autoImplicit false

namespace Jalv

open Foundation

/-- `any_value_set` on the value of a control, with the next answer of the allocator. -/
def setControlValue (jalv : JalvImpl) (pointer : Nat) (atom : Atom) : Option (Nat × JalvImpl) := do
  let control ← jalv.controls[pointer]?
  let (status, value) ← anyValueSet (jalv.proposal 0) control.value atom
  return (status, { jalv with
    proposal := jalv.nextProposals
    controls := jalv.controls.set pointer { control with value } })

/-- `plugin_property_changed`, and `ui_property_changed` where the frontend does nothing. A value that
is null is only followed if the property has a control. -/
def propertyChanged (buffer : Memory Byte) (jalv : JalvImpl) (change : URID × Option Nat) : Option JalvImpl :=
  match getPropertyControl jalv.controls change.1 with
  | some pointer => do
    let value ← change.2
    (setControlValue jalv pointer (atomAt buffer value)).map (·.2)
  | none => some jalv

def changeProperties (jalv : JalvImpl) (buffer : Memory Byte) : Option JalvImpl :=
  if lv2AtomForgeIsObjectType jalv.forge (atomAt buffer 0).type then do
    let changes ← patchChangedProperties jalv.forge jalv.urids buffer 0
    changes.foldlM (propertyChanged buffer) jalv
  else some jalv

def jalvSendToPlugin (jalv : JalvImpl) (uiToPlugin : ZixRing) (portIndex bufferSize protocol : UInt32)
    (buffer : Memory Byte) : Option (JalvImpl × ZixRing) :=
  if portIndex.toNat ≥ jalv.ports.length then some (jalv, uiToPlugin)
  else if protocol = 0 then
    if bufferSize ≠ 4 then some (jalv, uiToPlugin)
    else some (jalv, (jalvWriteControl uiToPlugin portIndex (wordValue (buffer.load 0 4))).2)
  else if protocol = jalv.urids.atomEventTransfer then do
    let atom := atomAt buffer 0
    let jalv ← changeProperties jalv buffer
    if bufferSize.toNat < sizeofAtom ∨ sizeofAtom + atom.size.toNat ≠ bufferSize.toNat then
      return (jalv, uiToPlugin)
    else return (jalv, (jalvWriteEvent uiToPlugin portIndex atom).2)
  else some (jalv, uiToPlugin)

/-- The patch:Set message for a property, as far as it fits into the message buffer. -/
def forgeSet (jalv : JalvImpl) (property : URID) (atom : Atom) : Option Atom := do
  let forge ← lv2AtomForgeObject jalv.forge (UInt32.ofNat jalv.uiMsgSize) 0 jalv.urids.patchSet
  let forge ← lv2AtomForgeKey forge jalv.urids.patchProperty
  let forge ← lv2AtomForgePrimitive forge jalv.forge.urid (word property)
  let forge ← lv2AtomForgeKey forge jalv.urids.patchValue
  let forge ← lv2AtomForgeAtom forge atom.size atom.type
  let forge ← lv2AtomForgeWrite forge atom.body
  return forge.object jalv.forge

def jalvSetControl (jalv : JalvImpl) (uiToPlugin : ZixRing) (pointer : Nat) (atom : Atom) :
    Option (Nat × JalvImpl × ZixRing) := do
  let (status, jalv) ← setControlValue jalv pointer atom
  if status ≠ 0 ∨ jalv.updating then return (status, jalv, uiToPlugin)
  else
    let control ← jalv.controls[pointer]?
    match control.id with
    | .port index =>
      if atom.type = jalv.forge.float then
        let value := anyValueFloat jalv.world jalv.forge control.value.value
        return (status, jalv, (jalvWriteControl uiToPlugin index value).2)
      else return (status, jalv, uiToPlugin)
    | .property property =>
      if jalv.process.controlIn ≠ uint32Max then
        let object ← forgeSet jalv property atom
        let uiMsg := jalv.uiMsg.store 0 (word object.size ++ word object.type ++ object.body)
        let (jalv, uiToPlugin) ← jalvSendToPlugin { jalv with uiMsg } uiToPlugin jalv.process.controlIn
          (8 + object.size) jalv.urids.atomEventTransfer uiMsg
        return (status, jalv, uiToPlugin)
      else return (status, jalv, uiToPlugin)

/-- An event from the plugin for the user interface. The console frontend does
nothing when a control has changed. -/
def uiPortEvent (jalv : JalvImpl) (portIndex bufferSize protocol : UInt32) (buffer : Memory Byte) :
    Option JalvImpl :=
  if protocol = 0 then
    match getPortControl jalv.controls portIndex with
    | some pointer =>
      let value : Atom := ⟨bufferSize, jalv.forge.float, buffer.load 0 bufferSize.toNat, Memory.length_load _ _ _⟩
      (setControlValue jalv pointer value).map (·.2)
    | none => some jalv
  else if protocol = jalv.urids.atomEventTransfer then changeProperties jalv buffer
  else none

end Jalv
