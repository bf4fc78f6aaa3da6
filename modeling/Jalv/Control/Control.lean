import Jalv.Control.Ownership
import Jalv.Plugin.Port

/-! High-level controls, backed by control ports or by properties (`control.c`).

A pointer to a control is its position in the array of controls.
-/

set_option autoImplicit false

namespace Jalv

open Foundation

structure Forge where
  int : URID
  long : URID
  float : URID
  double : URID
  bool : URID
  string : URID
  path : URID
  uri : URID
  urid : URID
  object : URID
  blank : URID
  resource : URID

inductive ValueType where | int | long | float | double | bool | string | path
  deriving DecidableEq, Repr

-- The types in the order in which the range of a property is compared to them.
def ValueType.all : List ValueType := [.int, .long, .float, .double, .bool, .string, .path]

def Forge.valueType (forge : Forge) : ValueType → URID
  | .int => forge.int
  | .long => forge.long
  | .float => forge.float
  | .double => forge.double
  | .bool => forge.bool
  | .string => forge.string
  | .path => forge.path

/-- An atom of `size` modulo `2 ^ 32`, which is what the size argument of a call holds. -/
def Atom.ofBytes (type : URID) (bytes : List Byte) : Atom where
  size := UInt32.ofNat bytes.length
  type := type
  body := bytes.take (UInt32.ofNat bytes.length).toNat
  sized := by
    rw [List.length_take, UInt32.toNat_ofNat']
    exact Nat.min_eq_left (Nat.mod_le _ _)

theorem Atom.ofBytes_size (type : URID) (bytes : List Byte) :
    (Atom.ofBytes type bytes).size = UInt32.ofNat bytes.length := rfl

theorem Atom.ofBytes_body (type : URID) {bytes : List Byte} (small : bytes.length < 2 ^ 32) :
    (Atom.ofBytes type bytes).body = bytes := by
  refine List.take_of_length_le (Nat.le_of_eq ?_)
  rw [UInt32.toNat_ofNat', Nat.mod_eq_of_lt small]

/-- What lilv and the URI map answer about the world that a plugin was loaded from, and the
conversions to a float, from the bits of a double, an integer and a long. -/
structure World where
  floatOfDouble : UInt64 → UInt32
  floatOfInt : UInt32 → UInt32
  floatOfLong : UInt64 → UInt32
  map : LilvNode → URID
  -- `lilv_node_get_path`
  path : Text → Text
  symbol : LilvNode → Text
  default : LilvNode → Option LilvNode
  hasRange : LilvNode → ValueType → Bool

def isFileUri (text : Text) : Bool := text.take 5 = [102, 105, 108, 101, 58]

/-- `any_value_set_node`, with the status 1 for a node of another kind. -/
def anyValueSetNode (world : World) (forge : Forge) (proposal : Option UInt64) (store : ValueStore) :
    LilvNode → Option (Nat × ValueStore)
  | .uri text =>
    if isFileUri text then anyValueSet proposal store (.ofBytes forge.path (world.path text ++ [0]))
    else anyValueSet proposal store (.ofBytes forge.uri (text ++ [0]))
  | .string text => anyValueSet proposal store (.ofBytes forge.string (text ++ [0]))
  | .float bits => anyValueSet proposal store (.ofBytes forge.float (word bits))
  | .int value => anyValueSet proposal store (.ofBytes forge.int (word value.toUInt32))
  | .bool value => anyValueSet proposal store (.ofBytes forge.bool [if value then 1 else 0])
  | .blank _ => some (1, store)

inductive ControlId where
  | port (index : UInt32)
  | property (urid : URID)
  deriving DecidableEq, Repr

structure Control where
  id : ControlId
  node : LilvNode
  symbol : Text
  valueType : URID
  value : ValueStore
  isWritable : Bool
  isReadable : Bool

def defaultValue (world : World) (forge : Forge) (proposal : Option UInt64) :
    Option LilvNode → Option ValueStore
  | none => some .initial
  | some node => (anyValueSetNode world forge proposal .initial node).map (·.2)

def newPortControl (world : World) (forge : Forge) (proposal : Option UInt64) (port : LilvPort)
    (portIndex : UInt32) : Option Control := do
  let value ← defaultValue world forge proposal port.default
  return {
    id := .port portIndex
    node := port.node
    symbol := port.symbol
    valueType := forge.float
    value
    isWritable := port.isInput
    isReadable := port.isOutput }

-- The first known type that is a range of the property, or zero.
def propertyValueType (world : World) (forge : Forge) (property : LilvNode) : URID :=
  match ValueType.all.find? (world.hasRange property) with
  | some type => forge.valueType type
  | none => 0

def newPropertyControl (world : World) (forge : Forge) (proposal : Option UInt64) (property : LilvNode) :
    Option Control := do
  let value ← defaultValue world forge proposal (world.default property)
  return {
    id := .property (world.map property)
    node := property
    symbol := world.symbol property
    valueType := propertyValueType world forge property
    value
    isWritable := false
    isReadable := false }

def addControl (controls : List Control) (control : Control) : List Control := controls ++ [control]

def getNamedControl (controls : List Control) (symbol : Text) : Option Nat :=
  controls.findIdx? fun control => control.symbol = symbol

def getPortControl (controls : List Control) (portIndex : UInt32) : Option Nat :=
  if portIndex.toNat < controls.length then some portIndex.toNat else none

def getPropertyControl (controls : List Control) (property : URID) : Option Nat :=
  controls.findIdx? fun control => control.id = .property property

def modifyControl (controls : List Control) (pointer : Nat) (change : Control → Option Control) :
    Option (List Control) := do
  let control ← controls[pointer]?
  let changed ← change control
  return controls.set pointer changed

def anyValueFloat (world : World) (forge : Forge) (value : AnyValue) : UInt32 :=
  if value.type = forge.double then world.floatOfDouble value.value
  else if value.type = forge.float then value.value.toUInt32
  else if value.type = forge.int ∨ value.type = forge.bool then world.floatOfInt value.value.toUInt32
  else if value.type = forge.long then world.floatOfLong value.value
  else 0

end Jalv
