import Jalv.Console.ParseCommand

/-! The documented commands of the prompt, and which lines `parse_command` reads as such.

A command is a word, and what follows it is separated by whitespace. A URI is a word
that begins with a letter, and a symbol one that begins with a letter or an underscore.
A value is the rest of the line.
-/

set_option autoImplicit false

namespace Jalv

open Foundation

def IsUri (word : Text) : Prop := ∃ char, word.head? = some char ∧ isAlpha char

def IsSymbol (word : Text) : Prop := ∃ char, word.head? = some char ∧ isSymbol char

instance (word : Text) : Decidable (IsUri word) :=
  decidable_of_iff (word.head?.any isAlpha = true) (by simp [IsUri, Option.any_eq_true])

instance (word : Text) : Decidable (IsSymbol word) :=
  decidable_of_iff (word.head?.any isSymbol = true) (by simp [IsSymbol, Option.any_eq_true])

def indexOf (word : Text) : Option UInt32 :=
  if word ≠ [] ∧ word.all isDigit ∧ decimal word ≤ uint32Max.toNat then some (UInt32.ofNat (decimal word)) else none

def documentedCommand (line : Text) : Option Command :=
  let (keyword, arguments) := nextWord isSpace line
  let (first, rest) := nextWord isSpace arguments
  if keyword = helpWord ∧ arguments = [] then some .help
  else if keyword = presetsWord ∧ arguments = [] then some .presets
  else if keyword = controlsWord ∧ arguments = [] then some .controls
  else if keyword = monitorsWord ∧ arguments = [] then some .monitors
  else if keyword = quitWord ∧ arguments = [] then some .quit
  else if keyword = presetWord ∧ IsUri first ∧ rest = [] then some (.presetUri first)
  else if keyword = setWord ∧ rest ≠ [] then
    match indexOf first with
    | some index => some (.setIndex index rest)
    | none => if IsSymbol first then some (.setSymbol first rest) else none
  else none

/-- A status and arguments that stand for a command, with spans of the line for its texts. -/
def Denotes (line : Text) (status : CommandStatus) (args : CommandArguments) : Command → Prop
  | .help => status = .help
  | .presets => status = .presets
  | .controls => status = .controls
  | .monitors => status = .monitors
  | .quit => status = .quit
  | .presetUri uri => status = .presetUri ∧ ∃ name, args.name = some name ∧ (line.drop name).take args.nameLength = uri
  | .setIndex index value =>
    status = .setIndexValue ∧ args.index = index ∧ ∃ start, args.value = some start ∧ line.drop start = value
  | .setSymbol symbol value =>
    status = .setSymbolValue ∧ (∃ name, args.name = some name ∧ (line.drop name).take args.nameLength = symbol) ∧
      ∃ start, args.value = some start ∧ line.drop start = value

def CommandStatus.IsError (status : CommandStatus) : Prop :=
  status ∈ [.error, .expectedAlpha, .expectedDigit, .expectedSymbolFirst, .expectedSymbolRest, .expectedControl,
    .expectedValue, .expectedEnd]

/-- A line is read as the documented command that it is, which is then carried out, or as an error. -/
def ReadRight (line : Text) : Prop :=
  ∃ status args, parseCommand line noArguments = some (status, args) ∧
    match documentedCommand line with
    | some command => Denotes line status args command ∧ handleCommand line status args = some command
    | none => status.IsError

-- A URI follows the word `preset` with no whitespace between them. With `s`, this is `presets`.
def PresetJoined (line : Text) : Prop :=
  let (keyword, arguments) := nextWord isSpace line
  ∃ uri, keyword = presetWord ++ uri ∧ IsUri uri ∧ uri.head? ≠ some 115 ∧ arguments = []

def PresetTrailed (line : Text) : Prop :=
  let (keyword, arguments) := nextWord isSpace line
  let (first, rest) := nextWord isSpace arguments
  keyword = presetWord ∧ IsUri first ∧ rest = [] ∧ arguments ≠ first

def SetSeparated (line : Text) : Prop :=
  (nextWord isSpace line).1 = setWord ∧ ¬ (setWord ++ [32]) <+: line ∧ documentedCommand line ≠ none

-- The first argument is an index, with or without a value, or is a symbol with a character in it
-- that is not visible.
def SetMistaken (line : Text) : Prop :=
  let (keyword, arguments) := nextWord isSpace line
  let first := (nextWord isSpace arguments).1
  keyword = setWord ∧ (setWord ++ [32]) <+: line ∧
    ((indexOf first).isSome ∨ IsSymbol first ∧ ¬ first.all isGraph)

/-- The lines that are not read as documented. -/
def Misread (line : Text) : Prop :=
  PresetJoined line ∨ PresetTrailed line ∨ SetSeparated line ∨ SetMistaken line

section

variable {line rest : Text}

theorem parseCommand_eq (unindented : ∀ char, line.head? = some char → isSpace char = false) (args : CommandArguments) :
    parseCommand line args =
      if beginsWith line helpWord then checkEnd .help line args 4
      else if beginsWith line presetsWord then checkEnd .presets line args 7
      else if beginsWith line presetWord then parsePreset line line 0 args 0
      else if beginsWith line controlsWord then checkEnd .controls line args 8
      else if beginsWith line monitorsWord then checkEnd .monitors line args 8
      else if beginsWith line quitWord then checkEnd .quit line args 4
      else if beginsWith line (setWord ++ [32]) then parseSet line line 0 args 0
      else some (.error, args) := by
  have start : skipWhitespace line 0 = some 0 := by
    cases line with
    | nil => rfl
    | cons head tail => simp [skipWhitespace, unindented head rfl]
  rw [parseCommand, start]
  rfl

theorem solid_of_all {word : Text} (all : word.all (fun char => !isSpace char) = true) :
    ∀ char ∈ word, isSpace char = false := by
  intro char member
  simpa using List.all_eq_true.mp all char member

theorem nextWord_word {word : Text} (solid : ∀ char ∈ word, isSpace char = false) (found : line = word ++ rest) :
    nextWord isSpace line = (word ++ (nextWord isSpace rest).1, (nextWord isSpace rest).2) := by
  rw [found, nextWord_append isSpace solid]

theorem blank_iff : rest.all isSpace = true ↔ (nextWord isSpace rest).1 = [] ∧ (nextWord isSpace rest).2 = [] := by
  rw [nextWord_eq_nil_iff, List.all_eq_true]

def plainCommands : List (Text × CommandStatus × Command) :=
  [(helpWord, .help, .help), (presetsWord, .presets, .presets), (controlsWord, .controls, .controls),
    (monitorsWord, .monitors, .monitors), (quitWord, .quit, .quit)]

section

variable {word : Text} {status : CommandStatus} {command : Command}

theorem plainCommands_solid (plain : (word, status, command) ∈ plainCommands) :
    ∀ char ∈ word, isSpace char = false := by
  simp only [plainCommands, List.mem_cons, Prod.mk.injEq, List.not_mem_nil, or_false] at plain
  rcases plain with ⟨rfl, _⟩ | ⟨rfl, _⟩ | ⟨rfl, _⟩ | ⟨rfl, _⟩ | ⟨rfl, _⟩ <;> exact solid_of_all (by decide)

theorem documentedCommand_plain (found : line = word ++ rest) (plain : (word, status, command) ∈ plainCommands) :
    documentedCommand line = if rest.all isSpace then some command else none := by
  have words := nextWord_word (plainCommands_solid plain) found
  simp only [documentedCommand, words, blank_iff]
  simp only [plainCommands, List.mem_cons, Prod.mk.injEq, List.not_mem_nil, or_false] at plain
  rcases plain with ⟨rfl, _, rfl⟩ | ⟨rfl, _, rfl⟩ | ⟨rfl, _, rfl⟩ | ⟨rfl, _, rfl⟩ | ⟨rfl, _, rfl⟩ <;>
    simp [helpWord, presetsWord, controlsWord, monitorsWord, quitWord, presetWord, setWord]

theorem parseCommand_plain (unindented : ∀ char, line.head? = some char → isSpace char = false)
    (found : line = word ++ rest) (plain : (word, status, command) ∈ plainCommands) (args : CommandArguments) :
    parseCommand line args = checkEnd status line args word.length := by
  rw [parseCommand_eq unindented]
  simp only [plainCommands, List.mem_cons, Prod.mk.injEq, List.not_mem_nil, or_false] at plain
  rcases plain with ⟨rfl, rfl, _⟩ | ⟨rfl, rfl, _⟩ | ⟨rfl, rfl, _⟩ | ⟨rfl, rfl, _⟩ | ⟨rfl, rfl, _⟩ <;>
    simp [found, beginsWith, helpWord, presetsWord, controlsWord, monitorsWord, quitWord, presetWord]

theorem readRight_plain (unindented : ∀ char, line.head? = some char → isSpace char = false)
    (found : line = word ++ rest) (plain : (word, status, command) ∈ plainCommands) :
    ReadRight line := by
  have behind : line.drop word.length = rest := by rw [found, List.drop_left]
  obtain ⟨caret, checked⟩ := @checkEnd_eq line word.length status noArguments (by rw [found, List.length_append]; omega)
  refine ⟨_, _, (parseCommand_plain unindented found plain noArguments).trans checked, ?_⟩
  rw [documentedCommand_plain found plain, behind]
  cases rest.all isSpace with
  | false => simp [CommandStatus.IsError]
  | true =>
    simp only [plainCommands, List.mem_cons, Prod.mk.injEq, List.not_mem_nil, or_false] at plain
    rcases plain with ⟨_, rfl, rfl⟩ | ⟨_, rfl, rfl⟩ | ⟨_, rfl, rfl⟩ | ⟨_, rfl, rfl⟩ | ⟨_, rfl, rfl⟩ <;> exact ⟨rfl, rfl⟩

theorem not_misread_plain (found : line = word ++ rest) (plain : (word, status, command) ∈ plainCommands) :
    ¬ Misread line := by
  have words := nextWord_word (plainCommands_solid plain) found
  simp only [Misread, PresetJoined, PresetTrailed, SetSeparated, SetMistaken, words]
  simp only [plainCommands, List.mem_cons, Prod.mk.injEq, List.not_mem_nil, or_false] at plain
  rcases plain with ⟨rfl, _⟩ | ⟨rfl, _⟩ | ⟨rfl, _⟩ | ⟨rfl, _⟩ | ⟨rfl, _⟩ <;>
    simp [helpWord, presetsWord, controlsWord, monitorsWord, quitWord, presetWord, setWord]

end

theorem readRight_iff {status : CommandStatus} {args : CommandArguments}
    (parsed : parseCommand line noArguments = some (status, args)) :
    ReadRight line ↔ match documentedCommand line with
      | some command => Denotes line status args command ∧ handleCommand line status args = some command
      | none => status.IsError := by
  constructor
  · rintro ⟨_, _, same, right⟩
    rw [parsed] at same
    cases same
    exact right
  · exact fun right => ⟨status, args, parsed, right⟩

/-- The branch for presets, which looks for a letter behind the whitespace that may follow the word. -/
theorem parsePreset_eq (found : line = presetWord ++ rest) :
    ∃ i, line.drop i = rest.dropWhile isSpace ∧
      if IsUri (line.drop i) then ∃ caret, parsePreset line line 0 noArguments 0 =
        some (if (nextWord isSpace (line.drop i)).2 = [] then .presetUri else .expectedEnd,
          ⟨caret, (nextWord isSpace (line.drop i)).1.length, some i, 0, none⟩)
      else ∃ args, parsePreset line line 0 noArguments 0 = some (.expectedAlpha, args) := by
  have behind : line.drop 6 = rest := by rw [found]; rfl
  obtain ⟨i, skipped, inside, tail⟩ := @skipWhitespace_eq line (0 + 6) (by
    rw [found, List.length_append]
    exact Nat.le_add_right 6 _)
  refine ⟨i, by rw [tail, Nat.zero_add, behind], ?_⟩
  simp only [parsePreset, skipped, charAt_eq inside, Option.bind_eq_bind, Option.bind_some, Option.pure_def]
  split
  · next uri =>
    obtain ⟨char, head, alpha⟩ := uri
    have most := (List.takeWhile_prefix (l := line.drop i) (!isSpace ·)).length_le
    rw [List.length_drop] at most
    obtain ⟨caret, checked⟩ := @checkEnd_eq line (i + ((line.drop i).takeWhile (!isSpace ·)).length) .presetUri
      ⟨0, ((line.drop i).takeWhile (!isSpace ·)).length, some (0 + i), 0, none⟩ (by omega)
    have ends : ((line.drop i).dropWhile (!isSpace ·)).all isSpace = true ↔
        (nextWord isSpace (line.drop i)).2 = [] := by
      rw [nextWord_snd_eq_nil_iff, List.all_eq_true]
    rw [← List.drop_drop, drop_length_takeWhile] at checked
    simp only [ends] at checked
    refine ⟨caret, ?_⟩
    rw [head, Option.getD_some, alpha]
    simpa [noArguments, nextWord] using checked
  · next other =>
    have first : isAlpha ((line.drop i).head?.getD 0) = false := by
      cases head : (line.drop i).head? with
      | none => rfl
      | some char =>
        rw [IsUri] at other
        simpa [head] using other
    exact ⟨_, by rw [first]; rfl⟩

theorem isAlpha_solid {char : Byte} (alpha : isAlpha char = true) : isSpace char = false := by
  simp only [isAlpha, isSpace, decide_eq_true_eq, decide_eq_false_iff_not] at alpha ⊢
  omega

theorem isUri_nextWord (text : Text) : IsUri (nextWord isSpace text).1 ↔ IsUri text := by
  cases text with
  | nil => exact Iff.rfl
  | cons head rest =>
    cases solid : isSpace head with
    | false => simp [nextWord, solid, IsUri]
    | true =>
      have other : isAlpha head = false := by
        by_contra alpha
        rw [isAlpha_solid (Bool.not_eq_false _ ▸ alpha)] at solid
        cases solid
      simp [nextWord, solid, IsUri, other]

-- What follows the word `preset` directly is part of the first word, and that is no command.
theorem preset_joined (found : line = presetWord ++ rest) (single : rest.head? ≠ some 115)
    (joined : (nextWord isSpace rest).1 ≠ []) :
    documentedCommand line = none ∧
      (Misread line ↔ IsUri (nextWord isSpace rest).1 ∧ (nextWord isSpace rest).2 = []) := by
  have words := @nextWord_word line rest presetWord (solid_of_all rfl) found
  have other : (nextWord isSpace rest).1.head? ≠ some 115 := fun head => single (head?_nextWord_fst head)
  generalize nextWord isSpace rest = next at words joined other ⊢
  obtain ⟨word, arguments⟩ := next
  have plural : word ≠ [115] := by
    rintro rfl
    exact other rfl
  have none : documentedCommand line = none := by
    simp [documentedCommand, words, helpWord, presetsWord, controlsWord, monitorsWord, quitWord, presetWord, setWord,
      joined, plural]
  refine ⟨none, ?_⟩
  simp [Misread, PresetJoined, PresetTrailed, SetSeparated, SetMistaken, words, presetWord, setWord, joined, other]

theorem preset_separate (found : line = presetWord ++ rest) (separate : (nextWord isSpace rest).1 = []) :
    let argument := rest.dropWhile isSpace
    let next := nextWord isSpace argument
    documentedCommand line = (if IsUri next.1 ∧ next.2 = [] then some (.presetUri next.1) else none) ∧
      (Misread line ↔ IsUri next.1 ∧ next.2 = [] ∧ argument ≠ next.1) := by
  have words := @nextWord_word line rest presetWord (solid_of_all rfl) found
  rw [separate, List.append_nil, nextWord_of_blank separate] at words
  dsimp only
  constructor
  · simp [documentedCommand, words, helpWord, presetsWord, controlsWord, monitorsWord, quitWord, presetWord, setWord]
  · simp only [Misread, PresetJoined, PresetTrailed, SetSeparated, SetMistaken, words]
    have begins (uri : Text) : presetWord = presetWord ++ uri ↔ uri = [] := List.self_eq_append_right
    have other : presetWord ≠ setWord := by decide
    simp [begins, other, IsUri]

theorem readRight_preset (unindented : ∀ char, line.head? = some char → isSpace char = false)
    (found : line = presetWord ++ rest) (single : rest.head? ≠ some 115) : ReadRight line ↔ ¬ Misread line := by
  have branch : parseCommand line noArguments = parsePreset line line 0 noArguments 0 := by
    rw [parseCommand_eq unindented]
    cases rest with
    | nil => simp [found, beginsWith, helpWord, presetsWord, presetWord]
    | cons head tail =>
      simp only [List.head?_cons, ne_eq, Option.some.injEq] at single
      simp [found, beginsWith, helpWord, presetsWord, presetWord, Ne.symm single]
  obtain ⟨i, tail, parsed⟩ := parsePreset_eq found
  rw [← branch] at parsed
  by_cases separate : (nextWord isSpace rest).1 = []
  · obtain ⟨documented, misread⟩ := preset_separate found separate
    rw [← tail] at documented misread
    rw [misread]
    by_cases uri : IsUri (line.drop i)
    · rw [if_pos uri] at parsed
      obtain ⟨caret, parsed⟩ := parsed
      rw [readRight_iff parsed, documented]
      have first := (isUri_nextWord (line.drop i)).mpr uri
      by_cases ends : (nextWord isSpace (line.drop i)).2 = []
      · simp [first, ends, Denotes, handleCommand, take_length_nextWord]
      · simp [first, ends, CommandStatus.IsError]
    · rw [if_neg uri] at parsed
      obtain ⟨args, parsed⟩ := parsed
      rw [← isUri_nextWord] at uri
      rw [readRight_iff parsed, documented]
      simp [uri, CommandStatus.IsError]
  · obtain ⟨documented, misread⟩ := preset_joined found single separate
    rw [dropWhile_of_word separate] at tail
    rw [misread, ← tail]
    by_cases uri : IsUri (line.drop i)
    · rw [if_pos uri] at parsed
      obtain ⟨caret, parsed⟩ := parsed
      rw [readRight_iff parsed, documented]
      have first := (isUri_nextWord (line.drop i)).mpr uri
      by_cases ends : (nextWord isSpace (line.drop i)).2 = [] <;> simp [first, ends, CommandStatus.IsError]
    · rw [if_neg uri] at parsed
      obtain ⟨args, parsed⟩ := parsed
      rw [← isUri_nextWord] at uri
      rw [readRight_iff parsed, documented]
      simp [uri, CommandStatus.IsError]

section

variable {arguments : Text}

theorem documentedCommand_set (words : nextWord isSpace line = (setWord, arguments)) :
    documentedCommand line = if (nextWord isSpace arguments).2 ≠ [] then
      match indexOf (nextWord isSpace arguments).1 with
      | some index => some (.setIndex index (nextWord isSpace arguments).2)
      | none => if IsSymbol (nextWord isSpace arguments).1 then
          some (.setSymbol (nextWord isSpace arguments).1 (nextWord isSpace arguments).2) else none
    else none := by
  simp [documentedCommand, words, helpWord, presetsWord, controlsWord, monitorsWord, quitWord, presetWord, setWord]

theorem misread_set (words : nextWord isSpace line = (setWord, arguments)) (spaced : (setWord ++ [32]) <+: line) :
    Misread line ↔ (indexOf (nextWord isSpace arguments).1).isSome ∨
      IsSymbol (nextWord isSpace arguments).1 ∧ ¬ (nextWord isSpace arguments).1.all isGraph := by
  have other (uri : Text) : setWord ≠ presetWord ++ uri := by simp [setWord, presetWord]
  have single : setWord ≠ presetWord := by decide
  simp [Misread, PresetJoined, PresetTrailed, SetSeparated, SetMistaken, words, spaced, other, single]

theorem isGraph_solid {char : Byte} (graph : isGraph char = true) : isSpace char = false := by
  simp only [isGraph, isSpace, decide_eq_true_eq, decide_eq_false_iff_not] at graph ⊢
  omega

theorem isDigit_solid {char : Byte} (digit : isDigit char = true) : isSpace char = false := by
  simp only [isDigit, isSpace, decide_eq_true_eq, decide_eq_false_iff_not] at digit ⊢
  omega

theorem isSymbol_solid {char : Byte} (symbol : isSymbol char = true) : isSpace char = false := by
  simp only [isSymbol, decide_eq_true_eq] at symbol
  rcases symbol with rfl | letter
  · decide
  · exact isAlpha_solid letter

theorem isSymbol_not_isDigit {char : Byte} (symbol : isSymbol char = true) : isDigit char = false := by
  simp only [isSymbol, isAlpha, isDigit, decide_eq_true_eq, decide_eq_false_iff_not] at symbol ⊢
  rcases symbol with rfl | letter
  · decide
  · omega

theorem set_space (unindented : ∀ char, line.head? = some char → isSpace char = false)
    (found : line = setWord ++ 32 :: rest) :
    parseCommand line noArguments = parseSet line line 0 noArguments 0 ∧
      nextWord isSpace line = (setWord, rest.dropWhile isSpace) ∧ (setWord ++ [32]) <+: line ∧
      ∃ i, skipWhitespace line (0 + 4) = some i ∧ i ≤ line.length ∧ line.drop i = rest.dropWhile isSpace := by
  have behind : line.drop 4 = rest := by rw [found]; rfl
  have words := @nextWord_word line (32 :: rest) setWord (solid_of_all rfl) found
  have separate : (nextWord isSpace (32 :: rest)).1 = [] := rfl
  obtain ⟨i, skipped, inside, tail⟩ := @skipWhitespace_eq line (0 + 4) (by
    rw [found, List.length_append, List.length_cons]
    simp only [setWord, List.length_cons]
    omega)
  refine ⟨?_, ?_, ⟨rest, by rw [found]; rfl⟩, i, skipped, inside, by rw [tail, Nat.zero_add, behind]⟩
  · rw [parseCommand_eq unindented]
    simp [found, beginsWith, helpWord, presetsWord, presetWord, controlsWord, monitorsWord, quitWord, setWord]
  · rw [words, separate, nextWord_of_blank separate, List.append_nil]
    rfl

-- The terminator is the only zero, and is read as one.
theorem charAt_of_terminated {i : Nat} (terminated : ∀ char ∈ line, char ≠ 0) (inside : i ≤ line.length) :
    ∃ char, charAt line i = some char ∧ (char = 0 ↔ line.drop i = []) ∧
      ∀ head, (line.drop i).head? = some head → char = head := by
  refine ⟨_, charAt_eq inside, ?_, fun head found => by rw [found, Option.getD_some]⟩
  cases left : line.drop i with
  | nil => simp
  | cons head tail =>
    have member : head ∈ line.drop i := by rw [left]; exact List.mem_cons_self
    simpa using terminated head (List.mem_of_mem_drop member)

/-- The branch for an index, where the value is expected to be the end of the line. -/
theorem parseSet_index {i : Nat} {char : Byte} (terminated : ∀ char ∈ line, char ≠ 0)
    (skipped : skipWhitespace line (0 + 4) = some i) (inside : i ≤ line.length)
    (head : (line.drop i).head? = some char) (digit : isDigit char) :
    let digits := (line.drop i).takeWhile isDigit
    let next := nextWord isSpace ((line.drop i).dropWhile isDigit)
    if decimal digits ≤ uint32Max.toNat ∧ next.1 = [] then
      ∃ value caret, line.drop value = next.2 ∧ parseSet line line 0 noArguments 0 =
        some (if next.2 = [] then .setIndexValue else .expectedEnd,
          ⟨caret, 0, none, UInt32.ofNat (decimal digits), some value⟩)
    else ∃ args, parseSet line line 0 noArguments 0 = some (.expectedDigit, args) := by
  have most := (List.takeWhile_prefix (l := line.drop i) isDigit).length_le
  rw [List.length_drop] at most
  have within : i + ((line.drop i).takeWhile isDigit).length ≤ line.length := by omega
  obtain ⟨last, behind, ends, begins⟩ := charAt_of_terminated terminated within
  rw [← List.drop_drop, drop_length_takeWhile] at ends begins
  have stops : (last ≠ 0 ∧ (!isSpace last) = true) ↔ (nextWord isSpace ((line.drop i).dropWhile isDigit)).1 ≠ [] := by
    rw [ne_eq, ne_eq, nextWord_fst_eq_nil_iff, ends]
    cases left : (line.drop i).dropWhile isDigit with
    | nil => simp
    | cons head tail =>
      rw [begins head (by rw [left]; rfl)]
      simp
  have large : min (decimal ((line.drop i).takeWhile isDigit)) longMax > uint32Max.toNat ↔
      ¬ decimal ((line.drop i).takeWhile isDigit) ≤ uint32Max.toNat := by
    have most : uint32Max.toNat < longMax := by decide
    omega
  simp only [parseSet, skipped, charAt_eq inside, head, Option.getD_some, digit, strtol, behind, stops, large,
    Option.bind_eq_bind, Option.bind_some, Option.pure_def, if_true]
  by_cases taken : decimal ((line.drop i).takeWhile isDigit) ≤ uint32Max.toNat ∧
      (nextWord isSpace ((line.drop i).dropWhile isDigit)).1 = []
  · obtain ⟨value, again, last, rest⟩ := skipWhitespace_eq within
    rw [← List.drop_drop, drop_length_takeWhile, ← nextWord_of_blank taken.2] at rest
    have small : min (decimal ((line.drop i).takeWhile isDigit)) longMax =
        decimal ((line.drop i).takeWhile isDigit) := by
      have most : uint32Max.toNat < longMax := by decide
      omega
    obtain ⟨caret, checked⟩ := checkEnd_eq .setIndexValue { noArguments with
      index := UInt32.ofNat (decimal ((line.drop i).takeWhile isDigit)), value := some (0 + value) } last
    have blank : (line.drop value).all isSpace = true ↔
        (nextWord isSpace ((line.drop i).dropWhile isDigit)).2 = [] := by
      rw [List.all_eq_true, ← List.dropWhile_eq_nil_iff, rest, nextWord_of_blank taken.2, List.dropWhile_idempotent]
    rw [if_pos taken]
    refine ⟨value, caret, rest, ?_⟩
    rw [if_neg (by simp [taken]), again, Option.bind_some, small, checked]
    simp only [blank, noArguments, Nat.zero_add]
  · rw [if_neg taken, if_pos (by tauto)]
    exact ⟨_, rfl⟩

/-- The branch for a symbol, of which only visible characters are read. -/
theorem parseSet_symbol {i : Nat} {char : Byte} (terminated : ∀ char ∈ line, char ≠ 0)
    (skipped : skipWhitespace line (0 + 4) = some i) (inside : i ≤ line.length)
    (head : (line.drop i).head? = some char) (symbol : isSymbol char) :
    let name := (line.drop i).takeWhile isGraph
    let rest := ((line.drop i).dropWhile isGraph).dropWhile isSpace
    if rest = [] then ∃ args, parseSet line line 0 noArguments 0 = some (.expectedValue, args)
    else ∃ value caret, line.drop value = rest ∧ parseSet line line 0 noArguments 0 =
      some (.setSymbolValue, ⟨caret, name.length, some i, 0, some value⟩) := by
  have most := (List.takeWhile_prefix (l := line.drop i) isGraph).length_le
  rw [List.length_drop] at most
  have within : i + ((line.drop i).takeWhile isGraph).length ≤ line.length := by omega
  obtain ⟨value, again, last, rest⟩ := skipWhitespace_eq within
  rw [← List.drop_drop, drop_length_takeWhile] at rest
  obtain ⟨final, behind, ends, _⟩ := charAt_of_terminated terminated last
  have start : isSymbolStart char = true := by simp [isSymbolStart, symbol]
  simp only [parseSet, skipped, charAt_eq inside, head, Option.getD_some, isSymbol_not_isDigit symbol, start,
    noArguments, Nat.add_zero, Nat.zero_add, again, behind, ends, rest, Option.bind_eq_bind, Option.bind_some,
    Option.pure_def, Bool.not_true, Bool.false_eq_true, if_false]
  split
  · exact ⟨_, rfl⟩
  · exact ⟨value, value, rest, rfl⟩

theorem parseSet_other {i : Nat} (skipped : skipWhitespace line (0 + 4) = some i) (inside : i ≤ line.length)
    (other : ∀ char, (line.drop i).head? = some char → isDigit char = false ∧ isSymbol char = false) :
    ∃ args, parseSet line line 0 noArguments 0 = some (.expectedSymbolFirst, args) := by
  have first : isDigit ((line.drop i).head?.getD 0) = false ∧ isSymbolStart ((line.drop i).head?.getD 0) = false := by
    cases head : (line.drop i).head? with
    | none => decide
    | some char => simp [isSymbolStart, other char head]
  simp only [parseSet, skipped, charAt_eq inside, first, Option.bind_eq_bind, Option.bind_some, Option.pure_def,
    Bool.not_false, Bool.false_eq_true, if_true, if_false]
  exact ⟨_, rfl⟩

theorem isSymbol_nextWord {char : Byte} {text : Text} (head : text.head? = some char) (solid : isSpace char = false) :
    IsSymbol (nextWord isSpace text).1 ↔ isSymbol char := by
  cases text with
  | nil => cases head
  | cons first rest =>
    cases head
    simp [nextWord, solid, IsSymbol]

-- An index is never read as one: its value is taken for something behind the end.
theorem readRight_setIndex (unindented : ∀ char, line.head? = some char → isSpace char = false)
    (terminated : ∀ char ∈ line, char ≠ 0) (found : line = setWord ++ 32 :: rest) {char : Byte}
    (head : (rest.dropWhile isSpace).head? = some char) (digit : isDigit char) : ReadRight line ↔ ¬ Misread line := by
  obtain ⟨branch, words, spaced, i, skipped, inside, tail⟩ := set_space unindented found
  rw [misread_set words spaced]
  have documented := documentedCommand_set words
  rw [← tail] at head documented ⊢
  have parsed := parseSet_index terminated skipped inside head digit
  have other : ¬ IsSymbol (nextWord isSpace (line.drop i)).1 := by
    rw [isSymbol_nextWord head (isDigit_solid digit)]
    intro symbol
    rw [isSymbol_not_isDigit symbol] at digit
    cases digit
  obtain ⟨whole, all⟩ := nextWord_takeWhile @isDigit_solid (line.drop i)
  have nonempty : (line.drop i).takeWhile isDigit ≠ [] := by
    obtain ⟨rest, begins⟩ := List.head?_eq_some_iff.mp head
    simp [begins, digit]
  dsimp only at parsed
  rw [← branch] at parsed
  generalize nextWord isSpace ((line.drop i).dropWhile isDigit) = next at parsed whole all
  split at parsed
  · next taken =>
    obtain ⟨value, caret, _, parsed⟩ := parsed
    have index : indexOf (nextWord isSpace (line.drop i)).1 =
        some (UInt32.ofNat (decimal ((line.drop i).takeWhile isDigit))) := by
      have digits := all.mpr taken.2
      rw [whole, taken.2, List.append_nil] at digits ⊢
      exact if_pos ⟨nonempty, digits, taken.1⟩
    rw [readRight_iff parsed, documented, index]
    rw [whole]
    by_cases ends : next.2 = [] <;> simp [ends, CommandStatus.IsError, Denotes]
  · next refused =>
    obtain ⟨args, parsed⟩ := parsed
    have index : indexOf (nextWord isSpace (line.drop i)).1 = none := by
      refine if_neg fun kind => refused ?_
      have ends := all.mp kind.2.1
      rw [whole, ends, List.append_nil] at kind
      exact ⟨kind.2.2, ends⟩
    rw [readRight_iff parsed, documented, index]
    simp [other, CommandStatus.IsError]

theorem readRight_setSymbol (unindented : ∀ char, line.head? = some char → isSpace char = false)
    (terminated : ∀ char ∈ line, char ≠ 0) (found : line = setWord ++ 32 :: rest) {char : Byte}
    (head : (rest.dropWhile isSpace).head? = some char) (symbol : isSymbol char) : ReadRight line ↔ ¬ Misread line := by
  obtain ⟨branch, words, spaced, i, skipped, inside, tail⟩ := set_space unindented found
  rw [misread_set words spaced]
  have documented := documentedCommand_set words
  rw [← tail] at head documented ⊢
  have parsed := parseSet_symbol terminated skipped inside head symbol
  have first := (isSymbol_nextWord head (isSymbol_solid symbol)).mpr symbol
  obtain ⟨whole, all⟩ := nextWord_takeWhile @isGraph_solid (line.drop i)
  have index : indexOf (nextWord isSpace (line.drop i)).1 = none := by
    obtain ⟨begin_, found, symbol⟩ := first
    refine if_neg fun kind => ?_
    have digit := List.all_eq_true.mp kind.2.1 _ (List.mem_of_head? found)
    rw [isSymbol_not_isDigit symbol] at digit
    cases digit
  dsimp only at parsed
  rw [← branch] at parsed
  rw [index] at documented ⊢
  by_cases visible : (nextWord isSpace ((line.drop i).dropWhile isGraph)).1 = []
  · rw [← nextWord_of_blank visible] at parsed
    rw [visible, List.append_nil] at whole
    rw [all.mpr visible]
    rw [whole] at documented first
    by_cases ends : (nextWord isSpace ((line.drop i).dropWhile isGraph)).2 = []
    · rw [if_pos ends] at parsed
      obtain ⟨args, parsed⟩ := parsed
      rw [readRight_iff parsed, documented]
      simp [ends, CommandStatus.IsError]
    · rw [if_neg ends] at parsed
      obtain ⟨value, caret, value, parsed⟩ := parsed
      rw [readRight_iff parsed, documented]
      simp [ends, first, Denotes, handleCommand, take_length_takeWhile, value]
  · have partly : ¬ (nextWord isSpace (line.drop i)).1.all isGraph = true := fun graph => visible (all.mp graph)
    have more : (line.drop i).dropWhile isGraph ≠ [] := fun none => visible (by rw [none]; rfl)
    rw [dropWhile_of_word visible, if_neg more] at parsed
    obtain ⟨value, caret, value, parsed⟩ := parsed
    rw [readRight_iff parsed, documented]
    by_cases ends : (nextWord isSpace (line.drop i)).2 = []
    · simp [ends, first, partly, CommandStatus.IsError]
    · -- The name is shorter than the symbol
      have shorter : (line.drop i).takeWhile isGraph ≠ (nextWord isSpace (line.drop i)).1 := by
        rw [whole]
        exact fun same => visible (List.self_eq_append_right.mp same)
      simp [ends, first, partly, Denotes, take_length_takeWhile, shorter]

theorem readRight_setOther (unindented : ∀ char, line.head? = some char → isSpace char = false)
    (found : line = setWord ++ 32 :: rest)
    (other : ∀ char, (rest.dropWhile isSpace).head? = some char → isDigit char = false ∧ isSymbol char = false) :
    ReadRight line ↔ ¬ Misread line := by
  obtain ⟨branch, words, spaced, i, skipped, inside, tail⟩ := set_space unindented found
  rw [misread_set words spaced]
  have documented := documentedCommand_set words
  rw [← tail] at other documented ⊢
  obtain ⟨args, parsed⟩ := parseSet_other skipped inside other
  rw [← branch] at parsed
  have symbol : ¬ IsSymbol (nextWord isSpace (line.drop i)).1 := by
    rintro ⟨char, head, symbol⟩
    rw [(other char (head?_nextWord_fst head)).2] at symbol
    cases symbol
  have index : indexOf (nextWord isSpace (line.drop i)).1 = none := by
    refine if_neg fun kind => ?_
    obtain ⟨char, more, begins⟩ := List.exists_cons_of_ne_nil kind.1
    have head : (nextWord isSpace (line.drop i)).1.head? = some char := by rw [begins]; rfl
    have digit := List.all_eq_true.mp kind.2.1 _ (List.mem_of_head? head)
    rw [(other char (head?_nextWord_fst head)).1] at digit
    cases digit
  rw [readRight_iff parsed, documented, index]
  simp [symbol, CommandStatus.IsError]

end

/-- Every other line is an error, also a command with the word `set` but no space behind it. -/
theorem readRight_unknown (unindented : ∀ char, line.head? = some char → isSpace char = false)
    (plain : ∀ word status command, (word, status, command) ∈ plainCommands → ¬ word <+: line)
    (preset : ¬ presetWord <+: line) (spaced : ¬ setWord ++ [32] <+: line) : ReadRight line ↔ ¬ Misread line := by
  have begins := nextWord_prefix isSpace line
  have word (keyword : Text) (other : ¬ keyword <+: line) : (nextWord isSpace line).1 ≠ keyword := by
    rintro rfl
    exact other begins
  have help := plain helpWord .help .help (by simp [plainCommands])
  have presets := plain presetsWord .presets .presets (by simp [plainCommands])
  have controls := plain controlsWord .controls .controls (by simp [plainCommands])
  have monitors := plain monitorsWord .monitors .monitors (by simp [plainCommands])
  have quit := plain quitWord .quit .quit (by simp [plainCommands])
  have parsed : parseCommand line noArguments = some (.error, noArguments) := by
    rw [parseCommand_eq unindented]
    simp only [beginsWith, List.isPrefixOf_iff_prefix, help, presets, preset, controls, monitors, quit, spaced,
      if_false]
  -- Only the word `set` is left
  have documented (known : documentedCommand line ≠ none) : (nextWord isSpace line).1 = setWord := by
    by_contra other
    simp [documentedCommand, word _ help, word _ presets, word _ controls, word _ monitors, word _ quit, word _ preset,
      other] at known
  have joined : ¬ PresetJoined line := by
    rintro ⟨uri, keyword, _⟩
    refine preset ((List.prefix_append presetWord uri).trans ?_)
    rw [← keyword]
    exact begins
  have misread : Misread line ↔ documentedCommand line ≠ none := by
    simp only [Misread, joined, PresetTrailed, SetSeparated, SetMistaken, word _ preset, spaced, false_and, and_false,
      false_or, or_false, not_false_eq_true, true_and]
    exact ⟨fun separated => separated.2, fun known => ⟨documented known, known⟩⟩
  rw [readRight_iff parsed, misread]
  cases documentedCommand line with
  | none => simp [CommandStatus.IsError]
  | some command => cases command <;> simp [Denotes]

/-- Exactly the misread lines are not read as the commands or errors that they are. -/
theorem readRight_iff_not_misread (line : Text) (terminated : ∀ char ∈ line, char ≠ 0)
    (unindented : ∀ char, line.head? = some char → isSpace char = false) : ReadRight line ↔ ¬ Misread line := by
  by_cases plain : ∃ word status command, (word, status, command) ∈ plainCommands ∧ word <+: line
  · obtain ⟨word, status, command, plain, rest, found⟩ := plain
    exact iff_of_true (readRight_plain unindented found.symm plain) (not_misread_plain found.symm plain)
  · have others (word : Text) (status : CommandStatus) (command : Command)
        (listed : (word, status, command) ∈ plainCommands) : ¬ word <+: line :=
      fun begins => plain ⟨word, status, command, listed, begins⟩
    by_cases preset : presetWord <+: line
    · obtain ⟨rest, found⟩ := preset
      refine readRight_preset unindented found.symm fun head => ?_
      obtain ⟨tail, rfl⟩ := List.head?_eq_some_iff.mp head
      exact others presetsWord .presets .presets (by simp [plainCommands]) ⟨tail, by rw [← found]; rfl⟩
    · by_cases spaced : setWord ++ [32] <+: line
      · obtain ⟨rest, found⟩ := spaced
        have found : line = setWord ++ 32 :: rest := found.symm
        cases head : (rest.dropWhile isSpace).head? with
        | none => exact readRight_setOther unindented found (by simp [head])
        | some char =>
          cases digit : isDigit char with
          | true => exact readRight_setIndex unindented terminated found head digit
          | false =>
            cases symbol : isSymbol char with
            | true => exact readRight_setSymbol unindented terminated found head symbol
            | false =>
              refine readRight_setOther unindented found fun other same => ?_
              cases head.symm.trans same
              exact ⟨digit, symbol⟩
      · exact readRight_unknown unindented others preset spaced

end

-- `set gain 0.5`
def setTestLine : Text := setWord ++ [32, 103, 97, 105, 110, 32, 48, 46, 53]

theorem readRight_iff_not_misread_test :
    ReadRight setTestLine ∧ documentedCommand setTestLine = some (.setSymbol [103, 97, 105, 110] [48, 46, 53]) := by
  have terminated : ∀ char ∈ setTestLine, char ≠ 0 := by simp [setTestLine, setWord]
  have unindented : ∀ char, setTestLine.head? = some char → isSpace char = false := by
    rintro char ⟨⟩
    rfl
  refine ⟨(readRight_iff_not_misread setTestLine terminated unindented).mpr ?_, by decide⟩
  rintro (⟨_, keyword, _⟩ | ⟨keyword, _⟩ | ⟨_, spaced, _⟩ | ⟨_, _, mistaken⟩)
  · cases (show setWord = presetWord ++ _ from keyword)
  · cases (show setWord = presetWord from keyword)
  · exact spaced ⟨_, rfl⟩
  · revert mistaken
    decide

/-- `set 0 1` is documented, and is read as an error. -/
theorem readRight_refuted : ¬ ReadRight (setWord ++ [32, 48, 32, 49]) := by
  rintro ⟨status, args, parsed, right⟩
  have error : parseCommand (setWord ++ [32, 48, 32, 49]) noArguments =
      some (.expectedEnd, ⟨6, 0, none, 0, some 6⟩) := by decide
  have documented : documentedCommand (setWord ++ [32, 48, 32, 49]) = some (.setIndex 0 [49]) := by decide
  rw [error] at parsed
  cases parsed
  rw [documented] at right
  cases right.1.1

end Jalv
