import Jalv.Console.ParseCommand

/-! Whitespace at the start of a command.

The parser keeps an offset into the line beside a pointer to the first character of
the command in it. Some branches add the one to the other twice.
-/

set_option autoImplicit false

namespace Jalv

open Foundation

def CommandArguments.shifted (distance : Nat) (args : CommandArguments) : CommandArguments :=
  { args with
    caret := args.caret + distance
    name := args.name.map (· + distance)
    value := args.value.map (· + distance) }

/-- Behind any whitespace the command is parsed as it is without, with the places in it
shifted, and no place is behind the terminator. An unknown command sets no arguments. -/
def IndentationIgnored (command : Text) : Prop :=
  ∃ status args, parseCommand command noArguments = some (status, args) ∧ args.caret ≤ command.length ∧
    ∀ blank : Text, blank.all isSpace → parseCommand (blank ++ command) noArguments =
      some (status, if status = .error then args else args.shifted blank.length)

section

variable {blank text : Text}

theorem skipWhitespace_append (blank text : Text) (i : Nat) :
    skipWhitespace (blank ++ text) (blank.length + i) = (skipWhitespace text i).map (· + blank.length) := by
  unfold skipWhitespace
  rw [List.length_append, List.drop_length_add_append]
  by_cases inside : i ≤ text.length
  · rw [if_pos inside, if_pos (by omega), Option.map_some]
    congr 1
    omega
  · rw [if_neg inside, if_neg (by omega), Option.map_none]

theorem checkEnd_append (status : CommandStatus) (args : CommandArguments) (blank text : Text) (i : Nat) :
    checkEnd status (blank ++ text) args (blank.length + i) =
      (checkEnd status text args i).map fun result =>
        (result.1, { result.2 with caret := result.2.caret + blank.length }) := by
  unfold checkEnd
  rw [skipWhitespace_append]
  cases skipWhitespace text i with
  | none => rfl
  | some first =>
    simp only [Option.map_some, Option.bind_eq_bind, Option.bind_some]
    rw [Nat.add_comm first, skipWhitespace_append]
    cases skipWhitespace text first with
    | none => rfl
    | some caret =>
      have place : caret + blank.length < blank.length + text.length ↔ caret < text.length := by omega
      simp only [Option.map_some, Option.bind_some, Option.pure_def, List.length_append, place]

/-- The branches of a command behind whitespace: those with arguments get the offset twice. -/
theorem parseCommand_indented (all : blank.all isSpace)
    (unindented : ∀ char, text.head? = some char → isSpace char = false) (args : CommandArguments) :
    parseCommand (blank ++ text) args =
      if beginsWith text helpWord then checkEnd .help (blank ++ text) args (blank.length + 4)
      else if beginsWith text presetsWord then checkEnd .presets (blank ++ text) args (blank.length + 7)
      else if beginsWith text presetWord then parsePreset (blank ++ text) text blank.length args blank.length
      else if beginsWith text controlsWord then checkEnd .controls (blank ++ text) args (blank.length + 8)
      else if beginsWith text monitorsWord then checkEnd .monitors (blank ++ text) args (blank.length + 8)
      else if beginsWith text quitWord then checkEnd .quit (blank ++ text) args (blank.length + 4)
      else if beginsWith text (setWord ++ [32]) then parseSet (blank ++ text) text blank.length args blank.length
      else some (.error, args) := by
  have solid : text.takeWhile isSpace = [] := by
    cases text with
    | nil => rfl
    | cons head tail => simp [unindented head rfl]
  have start : skipWhitespace (blank ++ text) 0 = some blank.length := by
    rw [skipWhitespace, if_pos (Nat.zero_le _), List.drop_zero,
      List.takeWhile_append_of_pos (fun char member => List.all_eq_true.mp all char member), solid, List.append_nil,
      Nat.zero_add]
  simp only [parseCommand, start, Option.bind_eq_bind, Option.bind_some, List.drop_left, Option.pure_def]

/-- A command with arguments, which the parser reads with a wrong offset. -/
def TakesArguments (text : Text) : Prop :=
  beginsWith text presetWord ∧ ¬beginsWith text presetsWord ∨ beginsWith text (setWord ++ [32])

/-- Every other text is a word that only whitespace may follow, or unknown, wherever it begins. -/
theorem parseCommand_plain_cases (unindented : ∀ char, text.head? = some char → isSpace char = false)
    (plain : ¬TakesArguments text) :
    (∃ status length, status ≠ .error ∧ length ≤ text.length ∧ ∀ (blank : Text) (args : CommandArguments),
      blank.all isSpace →
        parseCommand (blank ++ text) args = checkEnd status (blank ++ text) args (blank.length + length)) ∨
    ∀ (blank : Text) (args : CommandArguments), blank.all isSpace →
      parseCommand (blank ++ text) args = some (.error, args) := by
  obtain ⟨preset, set⟩ := not_or.mp plain
  have inside {word : Text} (begins : beginsWith text word = true) : word.length ≤ text.length :=
    (List.isPrefixOf_iff_prefix.mp begins).length_le
  by_cases help : beginsWith text helpWord = true
  · refine Or.inl ⟨.help, 4, by decide, inside help, fun blank args all => ?_⟩
    rw [parseCommand_indented all unindented, if_pos help]
  by_cases presets : beginsWith text presetsWord = true
  · refine Or.inl ⟨.presets, 7, by decide, inside presets, fun blank args all => ?_⟩
    rw [parseCommand_indented all unindented, if_neg help, if_pos presets]
  have single : ¬beginsWith text presetWord = true := fun begins => preset ⟨begins, presets⟩
  by_cases controls : beginsWith text controlsWord = true
  · refine Or.inl ⟨.controls, 8, by decide, inside controls, fun blank args all => ?_⟩
    rw [parseCommand_indented all unindented, if_neg help, if_neg presets, if_neg single, if_pos controls]
  by_cases monitors : beginsWith text monitorsWord = true
  · refine Or.inl ⟨.monitors, 8, by decide, inside monitors, fun blank args all => ?_⟩
    rw [parseCommand_indented all unindented, if_neg help, if_neg presets, if_neg single, if_neg controls,
      if_pos monitors]
  by_cases quit : beginsWith text quitWord = true
  · refine Or.inl ⟨.quit, 4, by decide, inside quit, fun blank args all => ?_⟩
    rw [parseCommand_indented all unindented, if_neg help, if_neg presets, if_neg single, if_neg controls,
      if_neg monitors, if_pos quit]
  · refine Or.inr fun blank args all => ?_
    rw [parseCommand_indented all unindented, if_neg help, if_neg presets, if_neg single, if_neg controls,
      if_neg monitors, if_neg quit, if_neg set]

/-- With as much whitespace as the command is long, its arguments are looked for behind the terminator. -/
theorem parseCommand_beyond (unindented : ∀ char, text.head? = some char → isSpace char = false)
    (takes : TakesArguments text) (all : blank.all isSpace) (long : text.length ≤ blank.length)
    (args : CommandArguments) : parseCommand (blank ++ text) args = none := by
  have beyond (i : Nat) (more : 0 < i) : skipWhitespace text (blank.length + i) = none := by
    rw [skipWhitespace, if_neg (by omega)]
  rw [parseCommand_indented all unindented]
  rcases takes with ⟨preset, single⟩ | set
  · obtain ⟨rest, rfl⟩ := List.isPrefixOf_iff_prefix.mp preset
    have other : ¬beginsWith (presetWord ++ rest) helpWord = true := by simp [beginsWith, presetWord, helpWord]
    rw [if_neg other, if_neg single, if_pos preset, parsePreset, beyond 6 (by decide)]
    rfl
  · obtain ⟨rest, rfl⟩ := List.isPrefixOf_iff_prefix.mp set
    rw [parseSet, beyond 4 (by decide)]
    simp [beginsWith, setWord, helpWord, presetsWord, presetWord, controlsWord, monitorsWord, quitWord]

theorem checkEnd_within (status : CommandStatus) (args : CommandArguments) {i : Nat} (inside : i ≤ text.length) :
    ∃ result caret, checkEnd status text args i = some (result, { args with caret }) ∧ caret ≤ text.length ∧
      (result = status ∨ result = .expectedEnd) := by
  obtain ⟨first, skipped, within, _⟩ := skipWhitespace_eq inside
  obtain ⟨caret, again, bound, _⟩ := skipWhitespace_eq within
  refine ⟨if caret < text.length then .expectedEnd else status, caret, ?_, bound, ?_⟩
  · simp only [checkEnd, skipped, again, Option.bind_eq_bind, Option.bind_some, Option.pure_def]
  · split
    · exact Or.inr rfl
    · exact Or.inl rfl

end

/-- Exactly the commands with arguments do not admit all whitespace in front of them. -/
theorem indentationIgnored_iff (command : Text) :
    IndentationIgnored command ↔ ¬TakesArguments (command.dropWhile isSpace) := by
  have unindented : ∀ char, (command.dropWhile isSpace).head? = some char → isSpace char = false := by
    intro char head
    have first := List.head?_dropWhile_not isSpace command
    rw [head] at first
    exact first
  have own : (command.takeWhile isSpace).all isSpace := List.all_takeWhile
  have split : command.takeWhile isSpace ++ command.dropWhile isSpace = command := List.takeWhile_append_dropWhile
  generalize command.takeWhile isSpace = begin at own split
  generalize command.dropWhile isSpace = text at unindented split ⊢
  subst split
  constructor
  · rintro ⟨status, args, _, _, ignored⟩ takes
    have all : (List.replicate text.length 32 : Text).all isSpace := by simp [isSpace]
    have none := @parseCommand_beyond (List.replicate text.length 32 ++ begin) text unindented takes
      (by rw [List.all_append, all, own]; rfl) (by simp) noArguments
    rw [List.append_assoc, ignored _ all] at none
    cases none
  · intro plain
    rcases parseCommand_plain_cases unindented plain with ⟨status, length, known, inside, parsed⟩ | unknown
    · obtain ⟨result, caret, checked, bound, kind⟩ := checkEnd_within status noArguments inside
      have behind (blank : Text) (all : blank.all isSpace) : parseCommand (blank ++ text) noArguments =
          some (result, { noArguments with caret := caret + blank.length }) := by
        rw [parsed blank noArguments all, checkEnd_append, checked, Option.map_some]
      have notError : result ≠ .error := by
        rcases kind with rfl | rfl
        · exact known
        · decide
      refine ⟨result, _, behind begin own, ?_, fun blank all => ?_⟩
      · rw [List.length_append]
        simp only
        omega
      · rw [← List.append_assoc, behind (blank ++ begin) (by rw [List.all_append, all, own]; rfl), if_neg notError]
        simp only [CommandArguments.shifted, noArguments, Option.map_none, List.length_append]
        congr 3
        omega
    · refine ⟨.error, noArguments, unknown begin noArguments own, Nat.zero_le _, fun blank all => ?_⟩
      rw [← List.append_assoc, unknown (blank ++ begin) noArguments (by rw [List.all_append, all, own]; rfl),
        if_pos rfl]

-- `set gain 1`
def gainLine : Text := setWord ++ [32, 103, 97, 105, 110, 32, 49]

/-- Behind one space the name begins at its second letter, and behind eight the parser leaves the line. -/
theorem indentationIgnored_refuted :
    parseCommand gainLine noArguments = some (.setSymbolValue, ⟨9, 4, some 4, 0, some 9⟩) ∧
      parseCommand (32 :: gainLine) noArguments = some (.setSymbolValue, ⟨9, 3, some 6, 0, some 10⟩) ∧
      parseCommand (List.replicate 8 32 ++ gainLine) noArguments = none ∧ ¬IndentationIgnored gainLine := by
  have beyond : parseCommand (List.replicate 8 32 ++ gainLine) noArguments = none := by decide
  refine ⟨by decide, by decide, beyond, ?_⟩
  rintro ⟨status, args, _, _, ignored⟩
  rw [ignored _ (by decide)] at beyond
  cases beyond

end Jalv
