import Jalv.Control.Control
import Jalv.Process.Process

/-! Properties that a patch message changes (`patch.c`).

An object is read from memory, where its end is known only from its own size.
`none` is a loop that does not end.
-/

set_option autoImplicit false

namespace Jalv

open Foundation

def atomAt (memory : Memory Byte) (address : Nat) : Atom :=
  let size := wordValue (memory.load address 4)
  { size
    type := wordValue (memory.load (address + 4) 4)
    body := memory.load (address + 8) size.toNat
    sized := Memory.length_load _ _ _ }

theorem atomAt_body (memory : Memory Byte) (address : Nat) :
    (atomAt memory address).body = memory.load (address + 8) (atomAt memory address).size.toNat := rfl

def lv2AtomForgeIsObjectType (forge : Forge) (type : URID) : Bool :=
  type = forge.object ∨ type = forge.blank ∨ type = forge.resource

def objectEnd (memory : Memory Byte) (object : Nat) : Nat :=
  object + sizeofAtom + (wordValue (memory.load object 4)).toNat

/-- `lv2_atom_object_next`, where the padded size is computed in 32 bits. -/
def nextProperty (memory : Memory Byte) (property : Nat) : Nat :=
  property + (lv2AtomPadSize (16 + wordValue (memory.load (property + 8) 4))).toNat

/-- `LV2_ATOM_OBJECT_FOREACH`: the keys of the properties, and the addresses of their values. -/
def objectPropertiesFrom (memory : Memory Byte) (stop : Nat) : Nat → Nat → Option (List (URID × Nat))
  | 0, _ => none
  | fuel + 1, property =>
    if property ≥ stop then some []
    else (objectPropertiesFrom memory stop fuel (nextProperty memory property)).map
      ((wordValue (memory.load property 4), property + 8) :: ·)

-- A loop that moves in each turn ends before it has made as many turns as there are bytes.
def objectProperties (memory : Memory Byte) (object : Nat) : Option (List (URID × Nat)) :=
  objectPropertiesFrom memory (objectEnd memory object) (objectEnd memory object - object) (object + 16)

def answerQuery (key : URID) (value : Nat) : List (URID × Option Nat) → List (URID × Option Nat)
  | [] => []
  | (query, answer) :: rest =>
    if key = query ∧ answer = none then (query, some value) :: rest
    else (query, answer) :: answerQuery key value rest

/-- The loop of `lv2_atom_object_get`, which ends early when all queries are answered. -/
def objectGetFrom (memory : Memory Byte) (stop : Nat) :
    Nat → Nat → List (URID × Option Nat) → Option (List (Option Nat))
  | 0, _, _ => none
  | fuel + 1, property, queries =>
    if property ≥ stop then some (queries.map (·.2))
    else
      let queries := answerQuery (wordValue (memory.load property 4)) (property + 8) queries
      if queries.all (·.2.isSome) then some (queries.map (·.2))
      else objectGetFrom memory stop fuel (nextProperty memory property) queries

def lv2AtomObjectGet (memory : Memory Byte) (object : Nat) (keys : List URID) : Option (List (Option Nat)) :=
  objectGetFrom memory (objectEnd memory object) (objectEnd memory object - object) (object + 16)
    (keys.map fun key => (key, none))

/-- `patch_set_get`: the property, and the value unless it is null. The outer option is the loop. -/
def patchSetGet (forge : Forge) (urids : JalvURIDs) (memory : Memory Byte) (object : Nat) :
    Option (Option (Nat × Option Nat)) := do
  match ← lv2AtomObjectGet memory object [urids.patchProperty, urids.patchValue] with
  | [some property, value] =>
    if (atomAt memory property).type ≠ forge.urid then return none
    else return some (property, value)
  | _ => return none

def patchPutGet (forge : Forge) (urids : JalvURIDs) (memory : Memory Byte) (object : Nat) : Option (Option Nat) := do
  match ← lv2AtomObjectGet memory object [urids.patchBody] with
  | [some body] =>
    if !lv2AtomForgeIsObjectType forge (atomAt memory body).type then return none
    else return some body
  | _ => return none

/-- The calls of `property_changed`, each with its key and the address of its value, which may be null. -/
def patchChangedProperties (forge : Forge) (urids : JalvURIDs) (memory : Memory Byte) (object : Nat) :
    Option (List (URID × Option Nat)) :=
  let otype := wordValue (memory.load (object + 12) 4)
  if otype = urids.patchSet then do
    match ← patchSetGet forge urids memory object with
    | some (property, value) => return [(wordValue (memory.load (property + 8) 4), value)]
    | none => return []
  else if otype = urids.patchPut then do
    match ← patchPutGet forge urids memory object with
    | some body => return (← objectProperties memory body).map fun property => (property.1, some property.2)
    | none => return []
  else return []

end Jalv
