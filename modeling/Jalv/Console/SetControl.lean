import Jalv.Host.Ui

/-! Setting a control from the text of a console command (`jalv_console.c`).

A text is its characters before the terminator. `none` is a read behind the
terminator, or undefined behavior of the value that is set.
-/

set_option autoImplicit false

namespace Jalv

open Foundation

/-- The numbers at the start of a text: the bits of a double, and a long. -/
structure NumberParser where
  strtod : Text → UInt64
  strtol : Text → UInt64

def charAt (text : Text) (index : Nat) : Option Byte :=
  if index < text.length then text[index]? else if index = text.length then some 0 else none

/-- The length up to the closing quote, where an escaped quote and the character after it
are skipped. An error when a backslash is followed by something else. -/
def quotedLength (start : Text) : Nat → Nat → Option (Except Unit Nat)
  | 0, _ => none
  | fuel + 1, len => do
    let char ← charAt start len
    if char = 34 then return .ok len
    else if char = 92 then
      let escaped ← charAt start (len + 1)
      if escaped = 34 then quotedLength start fuel (len + 3) else return .error ()
    else quotedLength start fuel (len + 1)

def isGraph (char : Byte) : Bool := 33 ≤ char.toNat ∧ char.toNat ≤ 126

-- Whether a text begins with a word that no other visible character follows.
def isWord (text word : Text) : Bool :=
  text.take word.length = word ∧ !((charAt text word.length).map isGraph).getD false

def setControlFromString (parser : NumberParser) (jalv : JalvImpl) (uiToPlugin : ZixRing) (pointer : Nat)
    (text : Text) : Option (Nat × JalvImpl × ZixRing) := do
  let control ← jalv.controls[pointer]?
  let type := control.valueType
  if type = jalv.forge.string ∨ type = jalv.forge.path then
    if charAt text 0 ≠ some 34 then return (1, jalv, uiToPlugin)
    else match ← quotedLength text.tail (text.length + 1) 0 with
      | .error () => return (1, jalv, uiToPlugin)
      | .ok len =>
        let (_, jalv, uiToPlugin) ← jalvSetControl jalv uiToPlugin pointer (.ofBytes type (text.tail.take len ++ [0]))
        return (0, jalv, uiToPlugin)
  else if type = jalv.forge.double ∨ type = jalv.forge.float then
    let value := parser.strtod text
    if type = jalv.forge.float then
      jalvSetControl jalv uiToPlugin pointer (.ofBytes type (word (jalv.world.floatOfDouble value)))
    else jalvSetControl jalv uiToPlugin pointer (.ofBytes type (little 8 value.toNat))
  else if type = jalv.forge.long ∨ type = jalv.forge.int then
    let value := parser.strtol text
    if type = jalv.forge.int then
      jalvSetControl jalv uiToPlugin pointer (.ofBytes type (word value.toUInt32))
    else jalvSetControl jalv uiToPlugin pointer (.ofBytes type (little 8 value.toNat))
  else if type = jalv.forge.bool then
    if isWord text [116, 114, 117, 101] then jalvSetControl jalv uiToPlugin pointer (.ofBytes type [1])
    else if isWord text [102, 97, 108, 115, 101] then return (1, jalv, uiToPlugin)
    else jalvSetControl jalv uiToPlugin pointer (.ofBytes type [0])
  else return (0, jalv, uiToPlugin)

def handleSetIndex (parser : NumberParser) (jalv : JalvImpl) (uiToPlugin : ZixRing) (index : UInt32)
    (value : Text) : Option (Bool × JalvImpl × ZixRing) :=
  match getPortControl jalv.controls index with
  | none => some (false, jalv, uiToPlugin)
  | some pointer => do
    let (_, jalv, uiToPlugin) ← setControlFromString parser jalv uiToPlugin pointer value
    return (true, jalv, uiToPlugin)

def handleSetSymbol (parser : NumberParser) (jalv : JalvImpl) (uiToPlugin : ZixRing) (symbol : Text)
    (value : Text) : Option (Bool × JalvImpl × ZixRing) :=
  match getNamedControl jalv.controls symbol with
  | none => some (false, jalv, uiToPlugin)
  | some pointer => do
    let (_, jalv, uiToPlugin) ← setControlFromString parser jalv uiToPlugin pointer value
    return (true, jalv, uiToPlugin)

end Jalv
