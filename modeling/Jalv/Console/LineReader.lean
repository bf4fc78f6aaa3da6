import Jalv.Console.Shutdown
import Jalv.Foundation.Lines

/-! The loop of the prompt, which reads lines from the standard input.

The semaphore is posted at any time, and what `jalv_update` does is left out. Input that is
not there yet lets `poll` time out.
-/

set_option autoImplicit false

namespace Jalv

open Foundation

/-- The status of a command that is no request to quit may depend on what is behind the terminator. -/
def Processed (line : Text) (next : CommandStatus) : Prop :=
  (∃ known, processCommand line known = some next) ∨ processCommand line true = none ∧ next ≠ .quit

def lineSize : Nat := 1024

inductive ReaderPlace where
  | loop
  | reading
  | left
  deriving DecidableEq

/-- The variables of `jalv_frontend_run`, the input and what was read of it, and the lines that
were processed. -/
structure LineReader where
  place : ReaderPlace
  st : CommandStatus
  len : Nat
  line : Vector Byte lineSize
  input : Text
  taken : Text
  processed : List Text
  -- Whether a read has met the end of the input
  ended : Bool

namespace LineReader

def string (line : Vector Byte lineSize) : Text := line.toList.takeWhile (· ≠ 0)

/-- `fgets`, which stops at the end of a line and leaves space for the terminator. -/
def fgets (input : Text) : Text :=
  let begun := (input.take (lineSize - 1)).takeWhile (· ≠ 10)
  input.take (begun.length + if begun.length < lineSize - 1 then 1 else 0)

/-- The steps of the loop. A read into the array is none if it is full. -/
inductive Step (usePoll : Bool) : LineReader → LineReader → Prop where
  | quits {reader : LineReader} (looping : reader.place = .loop) (quit : reader.st = .quit) :
      Step usePoll reader { reader with place := .left }
  -- The semaphore was posted
  | done {reader : LineReader} (looping : reader.place = .loop) (going : reader.st ≠ .quit) :
      Step usePoll reader { reader with place := .left }
  | goes {reader : LineReader} (looping : reader.place = .loop) (going : reader.st ≠ .quit) :
      Step usePoll reader { reader with place := .reading }
  | pollFails {reader : LineReader} (poll : usePoll) (reading : reader.place = .reading) :
      Step usePoll reader { reader with place := .loop, st := .quit }
  -- A timeout, or an error of `read`
  | nothing {reader : LineReader} (poll : usePoll) (reading : reader.place = .reading) :
      Step usePoll reader { reader with place := .loop }
  | endOfInput {reader : LineReader} (poll : usePoll) (reading : reader.place = .reading)
      (empty : reader.input = []) : Step usePoll reader { reader with place := .loop, ended := true }
  | character {reader : LineReader} {char : Byte} {rest : Text} (poll : usePoll)
      (reading : reader.place = .reading) (next : reader.input = char :: rest) (inside : reader.len < lineSize)
      (within : char ≠ 10) :
      Step usePoll reader { reader with
        place := .loop
        len := reader.len + 1
        line := reader.line.set reader.len char
        input := rest
        taken := reader.taken ++ [char] }
  -- The newline was read into the array as well
  | newline {reader : LineReader} {rest : Text} {st : CommandStatus} (poll : usePoll)
      (reading : reader.place = .reading) (next : reader.input = 10 :: rest) (inside : reader.len < lineSize)
      (processed : Processed (string (reader.line.set reader.len 0)) st) :
      Step usePoll reader { reader with
        place := .loop
        st
        len := 0
        line := reader.line.set reader.len 0
        input := rest
        taken := reader.taken ++ [10]
        processed := reader.processed ++ [string (reader.line.set reader.len 0)] }
  -- The variant with `fgets`, whose array is not used but by it
  | fgetsLine {reader : LineReader} {st : CommandStatus} (blocking : ¬ usePoll) (reading : reader.place = .reading)
      (more : reader.input ≠ []) (processed : Processed ((fgets reader.input).takeWhile (· ≠ 0)) st) :
      Step usePoll reader { reader with
        place := .loop
        st
        input := reader.input.drop (fgets reader.input).length
        taken := reader.taken ++ fgets reader.input
        processed := reader.processed ++ [(fgets reader.input).takeWhile (· ≠ 0)] }
  | fgetsEnds {reader : LineReader} (blocking : ¬ usePoll) (reading : reader.place = .reading) :
      Step usePoll reader { reader with place := .loop, st := .quit, ended := reader.input.isEmpty }

def system (usePoll : Bool) (input : Text) : TransitionSystem LineReader where
  initial reader := ∃ st, (st = .success ∨ st = .quit) ∧
    reader = ⟨.loop, st, 0, Vector.replicate lineSize 0, input, [], [], false⟩
  step := Step usePoll

def LeavesAtEnd (reader : LineReader) : Prop :=
  reader.ended → reader.place = .left ∨ reader.place = .loop ∧ reader.st = .quit

structure ReadsLines (reader : LineReader) : Prop where
  bounded : reader.place = .reading → reader.len < lineSize
  lines : ∃ rest, Lines 10 reader.taken reader.processed rest
  leaves : reader.LeavesAtEnd

end LineReader

/-- Every run of the variant with `poll` on the input reads its lines and ends behind them. -/
def ReadsInput (input : Text) : Prop :=
  ∀ reader, (LineReader.system true input).Reachable reader → reader.ReadsLines

/-- The input has a line with the command to quit, and no line up to it is too long for the
array or has a null character in it. -/
def QuitsInTime (input : Text) : Prop :=
  ∃ lines quit rest, input = terminated 10 (lines ++ [quit]) ++ rest ∧
    (∀ line ∈ lines ++ [quit], line.length < lineSize ∧ 10 ∉ line ∧ 0 ∉ line) ∧
    (parseCommand quit noArguments).map Prod.fst = some .quit

section

variable {reader next : LineReader} {lines : List Text} {quit rest input : Text}

namespace LineReader

def begun (reader : LineReader) : Text := reader.line.toList.take reader.len

theorem take_set_concat (line : Vector Byte lineSize) (char : Byte) {len : Nat} (inside : len < lineSize) :
    (line.set len char).toList.take (len + 1) = line.toList.take len ++ [char] := by
  have length : len < (line.toList.set len char).length := by simpa using inside
  rw [Vector.toList_set, List.take_add_one, List.take_set_of_le (Nat.le_refl len), List.getElem?_eq_getElem length,
    List.getElem_set_self]
  rfl

/-- The string ends at the null character that is stored. -/
theorem string_set (line : Vector Byte lineSize) {len : Nat} (inside : len < lineSize) :
    string (line.set len 0) = (line.toList.take len).takeWhile (· ≠ 0) := by
  have parts := List.take_append_drop (len + 1) (line.set len 0).toList
  rw [string, ← parts, take_set_concat line 0 inside, List.append_assoc, List.takeWhile_append]
  split
  · rename_i whole
    rw [(List.takeWhile_prefix _).eq_of_length whole]
    simp
  · rfl

theorem takeWhile_without {line : Text} (without : 0 ∉ line) : line.takeWhile (· ≠ 0) = line := by
  refine List.takeWhile_eq_self_iff.mpr fun char member => ?_
  have other : char ≠ 0 := fun null => without (null ▸ member)
  simpa using other

end LineReader

/-- What is processed with success to quit is what is parsed as the command to quit. -/
theorem processCommand_quit_iff (line : Text) (known : Bool) :
    processCommand line known = some .quit ↔ (parseCommand line noArguments).map Prod.fst = some .quit := by
  unfold processCommand
  cases parseCommand line noArguments with
  | none => simp
  | some parsed =>
    obtain ⟨status, args⟩ := parsed
    have goes : handleCommandStatus status known = .quit ↔ status = .quit := by
      cases status <;> cases known <;> decide
    by_cases error : status = .error
    · simp [error]
    · simp [error, goes]

theorem Processed.quits {st : CommandStatus} (processed : Processed quit st)
    (quits : (parseCommand quit noArguments).map Prod.fst = some .quit) : st = .quit := by
  rcases processed with ⟨known, processed⟩ | ⟨none, _⟩
  · rw [(processCommand_quit_iff quit known).mpr quits] at processed
    exact (Option.some.inj processed).symm
  · rw [(processCommand_quit_iff quit true).mpr quits] at none
    cases none

theorem exists_processed (line : Text) (goes : (parseCommand line noArguments).map Prod.fst ≠ some .quit) :
    ∃ next, Processed line next ∧ next ≠ .quit := by
  cases result : processCommand line true with
  | none => exact ⟨.success, .inr ⟨result, nofun⟩, nofun⟩
  | some next =>
    refine ⟨next, .inl ⟨true, result⟩, fun quit => goes ?_⟩
    exact (processCommand_quit_iff line true).mp (quit ▸ result)

structure LineReader.Progress (lines : List Text) (rest : Text) (reader : LineReader) : Prop where
  taken : reader.taken = terminated 10 reader.processed ++ reader.begun
  unfinished : 10 ∉ reader.begun
  length : reader.begun.length = reader.len
  notEnded : reader.ended = false
  ahead : lines = reader.processed ∧ reader.st = .quit ∧ reader.place ≠ .reading ∨
    ∃ line behind, lines = reader.processed ++ line :: behind ∧
      reader.begun ++ reader.input = terminated 10 (line :: behind) ++ rest

namespace LineReader

/-- What is in the array begins the first line that was not processed. -/
theorem Progress.split (progress : Progress lines rest reader) (reading : reader.place = .reading) :
    ∃ tail behind, lines = reader.processed ++ (reader.begun ++ tail) :: behind ∧
      reader.input = tail ++ 10 :: (terminated 10 behind ++ rest) := by
  rcases progress.ahead with ⟨_, _, elsewhere⟩ | ⟨line, behind, parts, input⟩
  · exact absurd reading elsewhere
  · rw [terminated_cons, List.append_assoc, List.cons_append] at input
    obtain ⟨tail, rfl, more⟩ := begins_of_append progress.unfinished input
    exact ⟨tail, behind, parts, more⟩

theorem Progress.bounded (progress : Progress lines rest reader) (short : ∀ line ∈ lines, line.length < lineSize)
    (reading : reader.place = .reading) : reader.len < lineSize := by
  obtain ⟨tail, behind, rfl, _⟩ := progress.split reading
  have line := short _ (List.mem_append_right _ List.mem_cons_self)
  rw [List.length_append, progress.length] at line
  exact Nat.lt_of_le_of_lt (Nat.le_add_right _ _) line

theorem Progress.character {char : Byte} {more : Text} (progress : Progress lines rest reader)
    (reading : reader.place = .reading) (first : reader.input = char :: more) (inside : reader.len < lineSize)
    (within : char ≠ 10) :
    Progress lines rest { reader with
      place := .loop
      len := reader.len + 1
      line := reader.line.set reader.len char
      input := more
      taken := reader.taken ++ [char] } := by
  obtain ⟨tail, behind, parts, input⟩ := progress.split reading
  have begun : (reader.line.set reader.len char).toList.take (reader.len + 1) = reader.begun ++ [char] :=
    take_set_concat reader.line char inside
  cases tail with
  | nil => cases first.symm.trans input; exact absurd rfl within
  | cons char' tail =>
    obtain ⟨rfl, rfl⟩ := List.cons.inj (first.symm.trans input)
    refine ⟨?_, ?_, ?_, progress.notEnded, .inr ⟨_, behind, parts, ?_⟩⟩
    · rw [LineReader.begun, begun, progress.taken, List.append_assoc]
    · rw [LineReader.begun, begun, List.mem_append, List.mem_singleton]
      rintro (earlier | here)
      · exact progress.unfinished earlier
      · exact within here.symm
    · rw [LineReader.begun, begun, List.length_append, progress.length, List.length_singleton]
    · rw [LineReader.begun, begun, terminated_cons]
      simp only [List.append_assoc, List.cons_append, List.nil_append]
      rfl

theorem Progress.newline {more : Text} {st : CommandStatus} (progress : Progress lines rest reader)
    (plain : ∀ line ∈ lines, 10 ∉ line ∧ 0 ∉ line) (last : ∃ before, lines = before ++ [quit])
    (quits : (parseCommand quit noArguments).map Prod.fst = some .quit)
    (reading : reader.place = .reading) (first : reader.input = 10 :: more) (inside : reader.len < lineSize)
    (processed : Processed (string (reader.line.set reader.len 0)) st) :
    Progress lines rest { reader with
      place := .loop
      st
      len := 0
      line := reader.line.set reader.len 0
      input := more
      taken := reader.taken ++ [10]
      processed := reader.processed ++ [string (reader.line.set reader.len 0)] } := by
  obtain ⟨tail, behind, parts, input⟩ := progress.split reading
  obtain ⟨ends, noNull⟩ := plain _ (parts ▸ List.mem_append_right _ List.mem_cons_self)
  cases tail with
  | cons char tail =>
    cases first.symm.trans input
    exact absurd (List.mem_append_right _ List.mem_cons_self) ends
  | nil =>
    cases first.symm.trans input
    rw [List.append_nil] at parts noNull
    have line : string (reader.line.set reader.len 0) = reader.begun := by
      rw [string_set reader.line inside]
      exact takeWhile_without noNull
    rw [line] at processed ⊢
    refine ⟨?_, List.not_mem_nil, rfl, progress.notEnded, ?_⟩
    · calc reader.taken ++ [10]
        _ = terminated 10 reader.processed ++ (reader.begun ++ [10]) := by rw [progress.taken, List.append_assoc]
        _ = terminated 10 (reader.processed ++ [reader.begun]) ++ [] := by rw [terminated_concat, List.append_nil]
    · cases behind with
      | cons line behind => exact .inr ⟨line, behind, by rw [parts, List.append_assoc]; rfl, rfl⟩
      -- The last line quits
      | nil =>
        obtain ⟨before, rfl⟩ := last
        obtain ⟨rfl, same⟩ := List.append_inj' parts rfl
        exact .inl ⟨parts, (List.head_eq_of_cons_eq same ▸ processed).quits quits, nofun⟩

theorem Progress.step (progress : Progress lines rest reader)
    (plain : ∀ line ∈ lines, 10 ∉ line ∧ 0 ∉ line) (last : ∃ before, lines = before ++ [quit])
    (quits : (parseCommand quit noArguments).map Prod.fst = some .quit) (stepped : Step true reader next) :
    Progress lines rest next := by
  obtain ⟨taken, unfinished, length, notEnded, ahead⟩ := id progress
  cases stepped with
  | quits | done | nothing =>
    exact ⟨taken, unfinished, length, notEnded, ahead.imp_left fun all => ⟨all.1, all.2.1, nofun⟩⟩
  | pollFails => exact ⟨taken, unfinished, length, notEnded, ahead.imp_left fun all => ⟨all.1, rfl, nofun⟩⟩
  | goes _ going =>
    refine ⟨taken, unfinished, length, notEnded, .inr (ahead.resolve_left ?_)⟩
    rintro ⟨_, quit, _⟩
    exact going quit
  | endOfInput _ reading empty =>
    obtain ⟨tail, behind, _, input⟩ := progress.split reading
    rw [empty] at input
    cases tail <;> cases input
  | character _ reading first inside within => exact progress.character reading first inside within
  | newline _ reading first inside processed => exact progress.newline plain last quits reading first inside processed
  | fgetsLine blocking | fgetsEnds blocking => exact absurd rfl blocking

theorem Progress.readsLines (progress : Progress lines rest reader)
    (plain : ∀ line ∈ lines, line.length < lineSize ∧ 10 ∉ line ∧ 0 ∉ line) : reader.ReadsLines := by
  refine ⟨progress.bounded fun line member => (plain line member).1, ⟨_, progress.taken, ?_, progress.unfinished⟩, ?_⟩
  · intro line member
    rcases progress.ahead with ⟨rfl, _⟩ | ⟨first, behind, rfl, _⟩
    · exact (plain line member).2.1
    · exact (plain line (List.mem_append_left _ member)).2.1
  · intro ended
    rw [progress.notEnded] at ended
    cases ended

structure AtPrompt (reader : LineReader) (processed : List Text) (begun input : Text) : Prop where
  looping : reader.place = .loop
  goes : reader.st ≠ .quit
  length : reader.len = begun.length
  array : reader.begun = begun
  ahead : reader.input = input
  done : reader.processed = processed
  taken : reader.taken = terminated 10 processed ++ begun

def Continues (reader : LineReader) : Prop :=
  ∀ next, Relation.ReflTransGen (Step true) reader next → next.ReadsLines

theorem AtPrompt.characters {processed : List Text} {begun chars more : Text}
    (prompt : reader.AtPrompt processed begun (chars ++ more)) (within : 10 ∉ chars)
    (space : begun.length + chars.length ≤ lineSize) :
    ∃ next, Relation.ReflTransGen (Step true) reader next ∧ next.AtPrompt processed (begun ++ chars) more := by
  induction chars generalizing reader begun with
  | nil => exact ⟨reader, .refl, by simpa using prompt⟩
  | cons char chars ih =>
    have inside : reader.len < lineSize := by
      rw [prompt.length]
      rw [List.length_cons] at space
      omega
    have other : char ≠ 10 := fun newline => within (newline ▸ List.mem_cons_self)
    have reading : Step true reader { reader with place := .reading } := .goes prompt.looping prompt.goes
    have stored := @Step.character true { reader with place := .reading } _ _ rfl rfl prompt.ahead inside other
    have array : (reader.line.set reader.len char).toList.take (reader.len + 1) = begun ++ [char] := by
      rw [take_set_concat reader.line char inside]
      exact congrArg (· ++ [char]) prompt.array
    have length : reader.len + 1 = (begun ++ [char]).length := by
      rw [List.length_append, ← prompt.length, List.length_singleton]
    have taken : reader.taken ++ [char] = terminated 10 processed ++ (begun ++ [char]) := by
      rw [prompt.taken, List.append_assoc]
    have shown : AtPrompt { reader with
        place := .loop
        len := reader.len + 1
        line := reader.line.set reader.len char
        input := chars ++ more
        taken := reader.taken ++ [char] } processed (begun ++ [char]) (chars ++ more) :=
      ⟨rfl, prompt.goes, length, array, rfl, prompt.done, taken⟩
    obtain ⟨next, run, after⟩ := ih shown
      (fun member => within (List.mem_cons_of_mem _ member))
      (by rw [List.length_append, Nat.add_assoc, Nat.add_comm [char].length]; exact space)
    exact ⟨next, .head reading (.head stored run), by simpa using after⟩

/-- The array is full before the end of the line is read. -/
theorem AtPrompt.overrun {processed : List Text} {line more : Text}
    (prompt : reader.AtPrompt processed [] (line ++ more)) (within : 10 ∉ line) (long : lineSize ≤ line.length) :
    ¬ reader.Continues := by
  intro continues
  rw [← List.take_append_drop lineSize line, List.append_assoc] at prompt
  have length : (line.take lineSize).length = lineSize := List.length_take_of_le long
  obtain ⟨next, run, full⟩ := prompt.characters (fun member => within (List.mem_of_mem_take member))
    (by rw [length, List.length_nil, Nat.zero_add])
  have reading : Step true next { next with place := .reading } := .goes full.looping full.goes
  have inside : next.len < lineSize := (continues _ (run.tail reading)).bounded rfl
  rw [full.length, List.nil_append, length] at inside
  exact Nat.lt_irrefl _ inside

theorem AtPrompt.newline {processed : List Text} {begun more : Text} {st : CommandStatus}
    (prompt : reader.AtPrompt processed begun (10 :: more)) (short : begun.length < lineSize)
    (next : Processed (begun.takeWhile (· ≠ 0)) st) :
    ∃ next, Relation.ReflTransGen (Step true) reader next ∧ next.place = .loop ∧ next.st = st ∧ next.len = 0 ∧
      next.input = more ∧ next.processed = processed ++ [begun.takeWhile (· ≠ 0)] ∧
      next.taken = terminated 10 processed ++ (begun ++ [10]) := by
  have reading : Step true reader { reader with place := .reading } := .goes prompt.looping prompt.goes
  have inside : reader.len < lineSize := prompt.length ▸ short
  have string : string (reader.line.set reader.len 0) = begun.takeWhile (· ≠ 0) := by
    rw [string_set reader.line inside]
    exact congrArg _ prompt.array
  rw [← string] at next ⊢
  have ended := @Step.newline true { reader with place := .reading } _ _ rfl rfl prompt.ahead inside next
  refine ⟨_, .head reading (.single ended), rfl, rfl, rfl, rfl, ?_, ?_⟩
  · exact congrArg (· ++ [_]) prompt.done
  · exact (congrArg (· ++ [10]) prompt.taken).trans (List.append_assoc _ _ _)

theorem AtPrompt.noNull {processed : List Text} {line more : Text}
    (prompt : reader.AtPrompt processed line (10 :: more)) (short : line.length < lineSize)
    (continues : reader.Continues) : 0 ∉ line := by
  intro null
  have status : ∃ st, Processed (line.takeWhile (· ≠ 0)) st := by
    cases result : processCommand (line.takeWhile (· ≠ 0)) true with
    | none => exact ⟨.success, .inr ⟨result, nofun⟩⟩
    | some st => exact ⟨st, .inl ⟨true, result⟩⟩
  obtain ⟨st, status⟩ := status
  obtain ⟨next, run, -, -, -, -, done, taken⟩ := prompt.newline short status
  obtain ⟨rest, whole, -, -⟩ := (continues next run).lines
  rw [done, taken, terminated_concat, List.append_assoc] at whole
  have same := List.append_cancel_left whole
  -- The characters behind the part before it are the null character and the newline
  have behind : line.dropWhile (· ≠ 0) ++ [10] = 10 :: rest := by
    refine (List.append_right_inj (line.takeWhile (· ≠ 0))).mp ?_
    rw [← List.append_assoc, List.takeWhile_append_dropWhile, same, List.append_assoc, List.singleton_append]
  cases left : line.dropWhile (· ≠ 0) with
  | nil =>
    have all := List.dropWhile_eq_nil_iff.mp left 0 null
    simp at all
  | cons char tail =>
    rw [left] at behind
    have first := List.head?_dropWhile_not (· ≠ 0) line
    rw [left] at first
    cases (List.cons.inj behind).1
    simp at first

theorem AtPrompt.spins {processed : List Text} {begun : Text} (prompt : reader.AtPrompt processed begun []) :
    ¬ reader.Continues := by
  intro continues
  have reading : Step true reader { reader with place := .reading } := .goes prompt.looping prompt.goes
  have ended := @Step.endOfInput true { reader with place := .reading } rfl rfl prompt.ahead
  rcases (continues _ (.head reading (.single ended))).leaves rfl with left | ⟨_, quit⟩
  · cases left
  · exact prompt.goes quit

/-- Unless a line quits, the reader gets to the end of the input, or before it out of the array. -/
theorem AtPrompt.quits {processed : List Text} (prompt : reader.AtPrompt processed [] (terminated 10 lines ++ rest))
    (plain : ∀ line ∈ lines, 10 ∉ line) (unfinished : 10 ∉ rest) (continues : reader.Continues) :
    ∃ before quit behind, lines = before ++ quit :: behind ∧
      (∀ line ∈ before ++ [quit], line.length < lineSize ∧ 10 ∉ line ∧ 0 ∉ line) ∧
      (parseCommand quit noArguments).map Prod.fst = some .quit := by
  induction lines generalizing reader processed with
  | nil =>
    rw [terminated, List.flatMap_nil, List.nil_append] at prompt
    by_cases long : lineSize ≤ rest.length
    · exact absurd continues (@overrun reader processed rest [] (by rwa [List.append_nil]) unfinished long)
    · obtain ⟨next, run, after⟩ := @characters reader processed [] rest [] (by rwa [List.append_nil]) unfinished
        (by rw [List.length_nil]; omega)
      exact absurd (fun final more => continues final (run.trans more)) after.spins
  | cons line lines ih =>
    obtain ⟨within, plain⟩ := List.forall_mem_cons.mp plain
    rw [terminated_cons, List.append_assoc, List.cons_append] at prompt
    by_cases long : lineSize ≤ line.length
    · exact absurd continues (prompt.overrun within long)
    obtain ⟨next, run, whole⟩ := prompt.characters within (by rw [List.length_nil]; omega)
    rw [List.nil_append] at whole
    have short : line.length < lineSize := Nat.lt_of_not_le long
    have noNull := whole.noNull short fun final more => continues final (run.trans more)
    by_cases quits : (parseCommand line noArguments).map Prod.fst = some .quit
    · refine ⟨[], line, lines, rfl, fun only member => ?_, quits⟩
      cases List.mem_singleton.mp member
      exact ⟨short, within, noNull⟩
    · obtain ⟨st, status, goes⟩ := exists_processed line quits
      obtain ⟨behind, ended, looping, result, len, input, done, taken⟩ :=
        whole.newline short (by rwa [takeWhile_without noNull])
      rw [takeWhile_without noNull] at done
      have empty : behind.begun = [] := by rw [LineReader.begun, len, List.take_zero]
      have again : behind.AtPrompt (processed ++ [line]) [] (terminated 10 lines ++ rest) :=
        ⟨looping, result ▸ goes, len, empty, input, done, by rw [taken, terminated_concat, List.append_nil]⟩
      obtain ⟨before, quit, after, rfl, good, asks⟩ := ih again plain
        fun final more => continues final ((run.trans ended).trans more)
      refine ⟨line :: before, quit, after, rfl, ?_, asks⟩
      rw [List.cons_append]
      exact List.forall_mem_cons.mpr ⟨⟨short, within, noNull⟩, good⟩

theorem start_atPrompt (input : Text) :
    AtPrompt ⟨.loop, .success, 0, Vector.replicate lineSize 0, input, [], [], false⟩ [] [] input :=
  ⟨rfl, nofun, rfl, rfl, rfl, rfl, rfl⟩

theorem start_continues (reads : ReadsInput input) :
    Continues ⟨.loop, .success, 0, Vector.replicate lineSize 0, input, [], [], false⟩ :=
  fun next run => reads next ⟨_, ⟨.success, .inl rfl, rfl⟩, run⟩

/-- With `fgets` the loop is left at the end of every input. -/
theorem fgets_leavesAtEnd (input : Text) (reader : LineReader) (reachable : (system false input).Reachable reader) :
    reader.LeavesAtEnd := by
  refine TransitionSystem.invariant (fun start initial => ?_) (fun before next held step => ?_) reachable
  · obtain ⟨st, _, rfl⟩ := initial
    exact nofun
  · cases step with
    | quits looping quit => exact fun _ => .inl rfl
    | done looping going => exact fun _ => .inl rfl
    | goes looping going =>
      intro ended
      rcases held ended with left | ⟨_, quit⟩
      · cases looping.symm.trans left
      · exact absurd quit going
    | pollFails poll | nothing poll | endOfInput poll | character poll | newline poll => cases poll
    | fgetsLine _ reading more processed =>
      intro ended
      rcases held ended with left | ⟨looping, _⟩
      · cases reading.symm.trans left
      · cases reading.symm.trans looping
    | fgetsEnds => exact fun _ => .inr ⟨rfl, rfl⟩

end LineReader

end

/-- The loop with `poll` reads the lines as they are and ends behind them exactly for input in
which the command to quit is reached within the array. -/
theorem readsInput_iff (input : Text) : ReadsInput input ↔ QuitsInTime input := by
  constructor
  · intro reads
    obtain ⟨lines, rest, rfl, plain, unfinished⟩ := exists_lines 10 input
    obtain ⟨before, quit, behind, rfl, good, quits⟩ :=
      (LineReader.start_atPrompt _).quits plain unfinished (LineReader.start_continues reads)
    refine ⟨before, quit, terminated 10 behind ++ rest, ?_, good, quits⟩
    rw [terminated, terminated, terminated, List.append_cons, List.flatMap_append, List.append_assoc]
  · rintro ⟨before, quit, rest, rfl, good, quits⟩ reader reachable
    refine @LineReader.Progress.readsLines reader (before ++ [quit]) rest ?_ good
    refine TransitionSystem.invariant (fun start initial => ?_) (fun _ _ held step => ?_) reachable
    · obtain ⟨st, _, rfl⟩ := initial
      refine ⟨rfl, List.not_mem_nil, rfl, rfl, .inr ?_⟩
      cases before with
      | nil => exact ⟨quit, [], rfl, rfl⟩
      | cons line before => exact ⟨line, before ++ [quit], rfl, rfl⟩
    · exact held.step (fun line member => (good line member).2) ⟨before, rfl⟩ quits step

/-- Without input the loop goes on, and a line of 1024 characters is read behind the array. -/
theorem readsInput_refuted :
    ¬ ReadsInput [] ∧ ¬ ReadsInput (List.replicate lineSize 97 ++ 10 :: (quitWord ++ [10])) := by
  constructor
  · exact fun reads => (LineReader.start_atPrompt []).spins (LineReader.start_continues reads)
  · intro reads
    refine (LineReader.start_atPrompt _).overrun ?_ ?_ (LineReader.start_continues reads)
    · rw [List.mem_replicate]
      rintro ⟨_, same⟩
      cases same
    · rw [List.length_replicate]

end Jalv
