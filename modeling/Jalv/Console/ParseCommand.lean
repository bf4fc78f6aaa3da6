import Jalv.Console.SetControl
import Jalv.Foundation.Words

/-! Parsing console commands (`parse_command.c`), and what is made of their arguments.

Pointers into a command are offsets from its start. A long has 64 bits, and characters are
classified as in the standard locale. `none` is a read behind the terminator.
-/

set_option autoImplicit false

namespace Jalv

open Foundation

inductive CommandStatus where
  | success | error | expectedAlpha | expectedDigit | expectedSymbolFirst | expectedSymbolRest
  | expectedControl | expectedValue | expectedEnd
  | help | controls | monitors | presets | presetUri | quit | setIndexValue | setSymbolValue
  deriving DecidableEq, Repr

structure CommandArguments where
  caret : Nat
  nameLength : Nat
  name : Option Nat
  index : UInt32
  value : Option Nat
  deriving DecidableEq, Repr

def noArguments : CommandArguments := ⟨0, 0, none, 0, none⟩

def isSpace (char : Byte) : Bool := char.toNat = 32 ∨ 9 ≤ char.toNat ∧ char.toNat ≤ 13

def isDigit (char : Byte) : Bool := 48 ≤ char.toNat ∧ char.toNat ≤ 57

def isAlpha (char : Byte) : Bool :=
  65 ≤ char.toNat ∧ char.toNat ≤ 90 ∨ 97 ≤ char.toNat ∧ char.toNat ≤ 122

def isSymbol (char : Byte) : Bool := char = 95 ∨ isAlpha char

def isSymbolStart (char : Byte) : Bool := isSymbol char ∨ isDigit char

def helpWord : Text := [104, 101, 108, 112]
def presetsWord : Text := [112, 114, 101, 115, 101, 116, 115]
def presetWord : Text := [112, 114, 101, 115, 101, 116]
def controlsWord : Text := [99, 111, 110, 116, 114, 111, 108, 115]
def monitorsWord : Text := [109, 111, 110, 105, 116, 111, 114, 115]
def quitWord : Text := [113, 117, 105, 116]
def setWord : Text := [115, 101, 116]

-- `!strncmp(cmd, word, n)`, with the length of the word.
def beginsWith (cmd word : Text) : Bool := word.isPrefixOf cmd

def skipWhitespace (s : Text) (i : Nat) : Option Nat :=
  if i ≤ s.length then some (i + ((s.drop i).takeWhile isSpace).length) else none

def checkEnd (onSuccess : CommandStatus) (command : Text) (args : CommandArguments) (i : Nat) :
    Option (CommandStatus × CommandArguments) := do
  let caret ← skipWhitespace command i
  -- The loop stops at the first character that is not whitespace
  let caret ← skipWhitespace command caret
  return (if caret < command.length then .expectedEnd else onSuccess, { args with caret })

def decimal (digits : Text) : Nat := digits.foldl (fun value digit => 10 * value + (digit.toNat - 48)) 0

def longMax : Nat := 2 ^ 63 - 1

/-- `strtol` with base 10 on a text that begins with a digit: the value, and the length of the number. -/
def strtol (text : Text) : Nat × Nat :=
  let digits := text.takeWhile isDigit
  (min (decimal digits) longMax, digits.length)

def parsePreset (command cmd : Text) (offset : Nat) (args : CommandArguments) (i : Nat) :
    Option (CommandStatus × CommandArguments) := do
  let i ← skipWhitespace cmd (i + 6)
  let first ← charAt cmd i
  if !isAlpha first then return (.expectedAlpha, { args with caret := i })
  else
    let nameLength := ((cmd.drop i).takeWhile (!isSpace ·)).length
    checkEnd .presetUri command { args with name := some (offset + i), nameLength } (i + nameLength)

def parseSet (command cmd : Text) (offset : Nat) (args : CommandArguments) (i : Nat) :
    Option (CommandStatus × CommandArguments) := do
  let i ← skipWhitespace cmd (i + 4)
  let first ← charAt cmd i
  if isDigit first then
    let (index, length) := strtol (cmd.drop i)
    let i := i + length
    let last ← charAt cmd i
    if index > uint32Max.toNat ∨ (last ≠ 0 ∧ !isSpace last) then return (.expectedDigit, { args with caret := i })
    else
      let i ← skipWhitespace cmd i
      checkEnd .setIndexValue command { args with index := UInt32.ofNat index, value := some (offset + i) } i
  else if !isSymbolStart first then return (.expectedSymbolFirst, { args with caret := i })
  else
    let length := ((cmd.drop (i + args.nameLength)).takeWhile isGraph).length
    let args := { args with name := some (offset + i), nameLength := args.nameLength + length }
    let i ← skipWhitespace cmd (i + length)
    let args := { args with caret := i }
    let value ← charAt cmd i
    if value = 0 then return (.expectedValue, args)
    else return (.setSymbolValue, { args with value := some (offset + i) })

def parseCommand (command : Text) (args : CommandArguments) : Option (CommandStatus × CommandArguments) := do
  let i ← skipWhitespace command 0
  let cmd := command.drop i
  if beginsWith cmd helpWord then checkEnd .help command args (i + 4)
  else if beginsWith cmd presetsWord then checkEnd .presets command args (i + 7)
  else if beginsWith cmd presetWord then parsePreset command cmd i args i
  else if beginsWith cmd controlsWord then checkEnd .controls command args (i + 8)
  else if beginsWith cmd monitorsWord then checkEnd .monitors command args (i + 8)
  else if beginsWith cmd quitWord then checkEnd .quit command args (i + 4)
  else if beginsWith cmd (setWord ++ [32]) then parseSet command cmd i args i
  else return (.error, args)

inductive Command where
  | help | presets | controls | monitors | quit
  | presetUri (uri : Text)
  | setIndex (index : UInt32) (value : Text)
  | setSymbol (symbol value : Text)
  deriving DecidableEq

def handleCommand (command : Text) (status : CommandStatus) (args : CommandArguments) : Option Command :=
  match status with
  | .help => some .help
  | .presets => some .presets
  | .controls => some .controls
  | .monitors => some .monitors
  | .quit => some .quit
  -- The text at the name ends with the command
  | .presetUri => args.name.map fun name => .presetUri (command.drop name)
  | .setIndexValue => args.value.map fun value => .setIndex args.index (command.drop value)
  | .setSymbolValue => do
    let name ← args.name
    let value ← args.value
    return .setSymbol ((command.drop name).take args.nameLength) (command.drop value)
  | _ => none

section

variable {s : Text} {i : Nat}

theorem skipWhitespace_eq (inside : i ≤ s.length) :
    ∃ next, skipWhitespace s i = some next ∧ next ≤ s.length ∧ s.drop next = (s.drop i).dropWhile isSpace := by
  have most := (List.takeWhile_prefix (l := s.drop i) isSpace).length_le
  rw [List.length_drop] at most
  refine ⟨_, if_pos inside, by omega, ?_⟩
  rw [← List.drop_drop, drop_length_takeWhile]

theorem checkEnd_eq (status : CommandStatus) (args : CommandArguments) (inside : i ≤ s.length) :
    ∃ caret, checkEnd status s args i =
      some (if (s.drop i).all isSpace then status else .expectedEnd, { args with caret }) := by
  obtain ⟨first, skipped, within, rest⟩ := skipWhitespace_eq inside
  obtain ⟨caret, again, _, same⟩ := skipWhitespace_eq within
  refine ⟨caret, ?_⟩
  have stop : caret < s.length ↔ ¬ (s.drop i).all isSpace = true := by
    rw [rest, List.dropWhile_idempotent] at same
    rw [List.all_eq_true, ← List.dropWhile_eq_nil_iff, ← same, List.drop_eq_nil_iff, Nat.not_le]
  simp only [checkEnd, skipped, again, Option.bind_eq_bind, Option.bind_some, Option.pure_def, stop, ite_not]

theorem charAt_eq (inside : i ≤ s.length) : charAt s i = some ((s.drop i).head?.getD 0) := by
  rw [List.head?_drop, charAt]
  by_cases before : i < s.length
  · rw [if_pos before, List.getElem?_eq_getElem before, Option.getD_some]
  · rw [if_neg before, if_pos (by omega), List.getElem?_eq_none (by omega), Option.getD_none]

end

end Jalv
