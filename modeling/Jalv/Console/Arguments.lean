import Jalv.Console.Options
import Jalv.Foundation.Lists

/-! The command line as an array of pointers (`jalv_console.c`).

The loop over the options trusts the number of arguments. `none` is a read behind
the array, and does not occur as long as the number is right.
-/

set_option autoImplicit false

namespace Jalv

open Foundation

structure JalvArgs where
  argc : Nat
  argv : List Text

namespace Life

def optionLetter (opt : Text) : Nat := (opt[1]?.getD 0).toNat

-- `-U`, `-b`, `-l`, `-c` and `-n`
def takesArgument (opt : Text) : Bool := optionLetter opt ∈ [85, 98, 108, 99, 110]

def parseArgument (args : JalvArgs) (a : Nat) : Option (Option Text) :=
  if a + 1 = args.argc then some none else args.argv[a + 1]?.map some

def parseOptionsFrom (env : Environment) (args : JalvArgs) :
    Nat → OptionsState → Nat → Life → Option (OptionsState × Nat × Life)
  | 0, _, _, _ => none
  | fuel + 1, state, a, life =>
    if a < args.argc then do
      let opt ← args.argv[a]?
      if opt.head? = some 45 then
        let next ← if takesArgument opt then parseArgument args a else some none
        let (state, life) := parseOption env state opt next life
        if state.status ≠ 0 then return (state, a, life)
        else if state.consumed then parseOptionsFrom env args fuel { state with consumed := false } (a + 2) life
        else parseOptionsFrom env args fuel state (a + 1) life
      else return (state, a, life)
    else return (state, a, life)

/-- Returns the status, and how many arguments have been skipped. -/
def frontendInit (env : Environment) (args : JalvArgs) (life : Life) : Option (Int × Nat × Life) := do
  let (state, a, life) ← parseOptionsFrom env args (args.argc + 1) ⟨0, 0, false⟩ 1 life
  return if state.status ≠ 0 then (state.status, 0, life) else (0, a, life)

-- `-s`, `-p`, `-i`, `-d`, `-t` and `-x`
def isFlag (opt : Text) : Bool := optionLetter opt ∈ [115, 112, 105, 100, 116, 120]

def acceptsArgument (env : Environment) (controls : Nat) (opt arg : Text) : Bool :=
  match optionLetter opt with
  | 98 => 2 ≤ env.strtol arg ∧ env.strtol arg ≤ 2147483648
  | 108 => 1 ≤ env.strtol arg ∧ env.strtol arg ≤ 65536
  | 99 => env.argumentRoom controls
  | _ => takesArgument opt

/-- Arguments that are nothing but options and what these take, after some control arguments. The last option
can lack its argument if `mayLack` says so. -/
inductive OnlyOptions (env : Environment) (mayLack : Bool) : Nat → List Text → Prop where
  | nil {controls : Nat} : OnlyOptions env mayLack controls []
  | flag {controls : Nat} {opt : Text} {rest : List Text} : opt.head? = some 45 → isFlag opt →
      OnlyOptions env mayLack controls rest → OnlyOptions env mayLack controls (opt :: rest)
  | argument {controls : Nat} {opt arg : Text} {rest : List Text} : opt.head? = some 45 → takesArgument opt →
      acceptsArgument env controls opt arg →
      OnlyOptions env mayLack (if optionLetter opt = 99 then controls + 1 else controls) rest →
      OnlyOptions env mayLack controls (opt :: arg :: rest)
  | lacking {controls : Nat} {opt : Text} : mayLack = true → opt.head? = some 45 → takesArgument opt →
      OnlyOptions env mayLack controls [opt]

section

variable {env : Environment} {life : Life} {state : OptionsState} {controls : Nat} {opt arg : Text}
variable {next : Option Text}

-- The only options without a letter are written out.
theorem letter_ne {letters : List Nat} (among : optionLetter opt ∈ letters) (other : 45 ∉ letters) :
    opt ≠ helpOption ∧ opt ≠ versionOption := by
  constructor <;>
  · rintro rfl
    exact other among

theorem parseOption_flag (flag : isFlag opt = true) :
    (parseOption env ⟨0, controls, false⟩ opt next life).1 = ⟨0, controls, false⟩ := by
  have letters := of_decide_eq_true flag
  obtain ⟨notHelp, notVersion⟩ := letter_ne letters (by decide)
  simp only [optionLetter, List.mem_cons, List.not_mem_nil, or_false] at letters
  rcases letters with letter | letter | letter | letter | letter | letter <;>
    simp [parseOption, letter, notHelp, notVersion]

/-- What the options do that take an argument. -/
theorem parseOption_takes (env : Environment) (state : OptionsState) (next : Option Text) (life : Life)
    (takes : takesArgument opt = true) :
    (optionLetter opt = 85 ∨ optionLetter opt = 110) ∧
      (parseOption env state opt next life).1 = state.parseArgument next ∨
    optionLetter opt = 98 ∧
      (parseOption env state opt next life).1 = state.parseIntArgument env.strtol next 2 2147483648 ∨
    optionLetter opt = 108 ∧
      (parseOption env state opt next life).1 = state.parseIntArgument env.strtol next 1 65536 ∨
    optionLetter opt = 99 ∧
      (parseOption env state opt next life).1 = (addControlArgument env (state.parseArgument next) life).1 := by
  have letters := of_decide_eq_true takes
  obtain ⟨notHelp, notVersion⟩ := letter_ne letters (by decide)
  simp only [optionLetter, List.mem_cons, List.not_mem_nil, or_false] at letters
  rcases letters with letter | letter | letter | letter | letter
  · exact Or.inl ⟨Or.inl letter, by simp [parseOption, letter, notHelp, notVersion]⟩
  · exact Or.inr (Or.inl ⟨letter, by simp [parseOption, letter, notHelp, notVersion]⟩)
  · exact Or.inr (Or.inr (Or.inl ⟨letter, by simp [parseOption, letter, notHelp, notVersion]⟩))
  · exact Or.inr (Or.inr (Or.inr ⟨letter, by simp [parseOption, letter, notHelp, notVersion]⟩))
  · exact Or.inl ⟨Or.inr letter, by simp [parseOption, letter, notHelp, notVersion]⟩

theorem parseOption_accepts (takes : takesArgument opt = true) (accepts : acceptsArgument env controls opt arg = true) :
    (parseOption env ⟨0, controls, false⟩ opt (some arg) life).1 =
      ⟨0, if optionLetter opt = 99 then controls + 1 else controls, true⟩ := by
  rcases parseOption_takes env ⟨0, controls, false⟩ (some arg) life takes with
    ⟨letter, same⟩ | ⟨letter, same⟩ | ⟨letter, same⟩ | ⟨letter, same⟩
  · have other : optionLetter opt ≠ 99 := by omega
    rw [same, if_neg other]
    rfl
  · simp only [acceptsArgument, letter, decide_eq_true_eq] at accepts
    have inside : ¬(env.strtol arg < 2 ∨ 2147483648 < env.strtol arg) := by omega
    have other : optionLetter opt ≠ 99 := by omega
    simp only [same, if_neg other, OptionsState.parseIntArgument, if_neg inside]
  · simp only [acceptsArgument, letter, decide_eq_true_eq] at accepts
    have inside : ¬(env.strtol arg < 1 ∨ 65536 < env.strtol arg) := by omega
    have other : optionLetter opt ≠ 99 := by omega
    simp only [same, if_neg other, OptionsState.parseIntArgument, if_neg inside]
  · simp only [acceptsArgument, letter] at accepts
    simp [same, letter, OptionsState.parseArgument, addControlArgument, accepts]

theorem parseOption_rejects (takes : takesArgument opt = true)
    (rejects : acceptsArgument env controls opt arg = false) :
    (parseOption env ⟨0, controls, false⟩ opt (some arg) life).1.status ≠ 0 := by
  rcases parseOption_takes env ⟨0, controls, false⟩ (some arg) life takes with
    ⟨letter, same⟩ | ⟨letter, same⟩ | ⟨letter, same⟩ | ⟨letter, same⟩
  · rcases letter with letter | letter <;>
    · simp only [acceptsArgument, letter, takes] at rejects
      cases rejects
  · simp only [acceptsArgument, letter, decide_eq_false_iff_not] at rejects
    have outside : env.strtol arg < 2 ∨ 2147483648 < env.strtol arg := by omega
    simp only [same, OptionsState.parseIntArgument, if_pos outside]
    decide
  · simp only [acceptsArgument, letter, decide_eq_false_iff_not] at rejects
    have outside : env.strtol arg < 1 ∨ 65536 < env.strtol arg := by omega
    simp only [same, OptionsState.parseIntArgument, if_pos outside]
    decide
  · simp only [acceptsArgument, letter] at rejects
    simp [same, OptionsState.parseArgument, addControlArgument, rejects]

theorem parseOption_lacking (takes : takesArgument opt = true) :
    (parseOption env state opt none life).1.status ≠ 0 := by
  rcases parseOption_takes env state none life takes with ⟨_, same⟩ | ⟨_, same⟩ | ⟨_, same⟩ | ⟨_, same⟩
  · simp [same, OptionsState.parseArgument]
  · simp [same, OptionsState.parseIntArgument]
  · simp [same, OptionsState.parseIntArgument]
  · by_cases room : env.argumentRoom state.nControls = true <;>
      simp [same, OptionsState.parseArgument, addControlArgument, room]

-- An option of another kind prints something and stops the loop.
theorem parseOption_other (notFlag : isFlag opt = false) (takesNone : takesArgument opt = false) :
    (parseOption env ⟨0, controls, false⟩ opt next life).1.status ≠ 0 := by
  have flags := of_decide_eq_false notFlag
  have arguments := of_decide_eq_false takesNone
  simp only [optionLetter, List.mem_cons, List.not_mem_nil, or_false, not_or] at flags arguments
  unfold parseOption
  by_cases help : (opt[1]?.getD 0).toNat = 104 ∨ opt = helpOption
  · simp [help, jalvEarlyExitStatus]
  · by_cases version : (opt[1]?.getD 0).toNat = 86 ∨ opt = versionOption
    · simp [help, version, jalvEarlyExitStatus]
    · simp [help, version, flags, arguments]

end

section

variable {env : Environment} {args : JalvArgs} {fuel controls a : Nat} {life : Life} {opt arg : Text}

/-- A turn of the loop, with the argument that the option reads. -/
theorem parseOptionsFrom_option {state : OptionsState} {next : Option Text} (inside : a < args.argc)
    (here : args.argv[a]? = some opt) (dash : opt.head? = some 45)
    (read : (if takesArgument opt then parseArgument args a else some none) = some next) :
    parseOptionsFrom env args (fuel + 1) state a life =
      if (parseOption env state opt next life).1.status ≠ 0 then
        some ((parseOption env state opt next life).1, a, (parseOption env state opt next life).2)
      else if (parseOption env state opt next life).1.consumed then
        parseOptionsFrom env args fuel { (parseOption env state opt next life).1 with consumed := false } (a + 2)
          (parseOption env state opt next life).2
      else parseOptionsFrom env args fuel (parseOption env state opt next life).1 (a + 1)
        (parseOption env state opt next life).2 := by
  rw [parseOptionsFrom, if_pos inside, here]
  cases takes : takesArgument opt with
  | true =>
    rw [takes, if_pos rfl] at read
    simp [dash, takes, read]
  | false =>
    rw [takes, if_neg (by decide)] at read
    cases read
    simp [dash, takes]

theorem parseOptionsFrom_flag (inside : a < args.argc) (here : args.argv[a]? = some opt) (dash : opt.head? = some 45)
    (flag : isFlag opt = true) :
    ∃ after, parseOptionsFrom env args (fuel + 1) ⟨0, controls, false⟩ a life =
      parseOptionsFrom env args fuel ⟨0, controls, false⟩ (a + 1) after := by
  have takesNone : takesArgument opt = false := by
    refine decide_eq_false fun takes => ?_
    have letters := of_decide_eq_true flag
    simp only [List.mem_cons, List.not_mem_nil, or_false] at takes letters
    omega
  have parsed := @parseOption_flag env life controls opt none flag
  refine ⟨(parseOption env ⟨0, controls, false⟩ opt none life).2, ?_⟩
  rw [parseOptionsFrom_option inside here dash (by rw [takesNone]; rfl), parsed]
  rfl

theorem parseOptionsFrom_argument (inside : a < args.argc) (here : args.argv[a]? = some opt)
    (dash : opt.head? = some 45) (takes : takesArgument opt = true) (behind : a + 1 ≠ args.argc)
    (argument : args.argv[a + 1]? = some arg) (accepts : acceptsArgument env controls opt arg = true) :
    ∃ after, parseOptionsFrom env args (fuel + 1) ⟨0, controls, false⟩ a life =
      parseOptionsFrom env args fuel ⟨0, if optionLetter opt = 99 then controls + 1 else controls, false⟩
        (a + 2) after := by
  have parsed := @parseOption_accepts env life controls opt arg takes accepts
  have read : (if takesArgument opt then parseArgument args a else some none) = some (some arg) := by
    rw [if_pos takes, parseArgument, if_neg behind, argument, Option.map_some]
  refine ⟨(parseOption env ⟨0, controls, false⟩ opt (some arg) life).2, ?_⟩
  rw [parseOptionsFrom_option inside here dash read, parsed]
  rfl

/-- Nothing but options brings the loop to the end of the array, and behind it if the number of arguments is
too large. -/
theorem parseOptionsFrom_options {mayLack : Bool} {rest : List Text} (options : OnlyOptions env mayLack controls rest)
    (count : args.argc = args.argv.length + if mayLack then 1 else 0) (here : args.argv.drop a = rest)
    (within : a ≤ args.argv.length) (enough : rest.length < fuel) :
    ∃ state after, state.status = 0 ∧
      parseOptionsFrom env args fuel ⟨0, controls, false⟩ a life =
        if mayLack then none else some (state, args.argv.length, after) := by
  induction options generalizing a fuel life with
  | @nil controls =>
    have last : a = args.argv.length := Nat.le_antisymm within (List.drop_eq_nil_iff.mp here)
    subst last
    obtain ⟨fuel, rfl⟩ := Nat.exists_eq_add_of_lt enough
    refine ⟨⟨0, controls, false⟩, life, rfl, ?_⟩
    cases mayLack <;> simp [parseOptionsFrom, count]
  | @flag controls opt rest dash flag options ih =>
    obtain ⟨found, behind⟩ := of_drop_eq_cons here
    obtain ⟨inside, _⟩ := List.getElem?_eq_some_iff.mp found
    rw [List.length_cons] at enough
    obtain ⟨fuel, rfl⟩ := Nat.exists_eq_add_one_of_ne_zero (Nat.ne_of_gt (Nat.zero_lt_of_lt enough))
    obtain ⟨after, turned⟩ := @parseOptionsFrom_flag env args fuel controls a life opt (by omega) found dash flag
    rw [turned]
    exact ih behind inside (by omega)
  | @argument controls opt arg rest dash takes accepts options ih =>
    obtain ⟨found, behind⟩ := of_drop_eq_cons here
    obtain ⟨next, behind⟩ := of_drop_eq_cons behind
    obtain ⟨inside, _⟩ := List.getElem?_eq_some_iff.mp next
    rw [List.length_cons, List.length_cons] at enough
    obtain ⟨fuel, rfl⟩ := Nat.exists_eq_add_one_of_ne_zero (Nat.ne_of_gt (Nat.zero_lt_of_lt enough))
    obtain ⟨after, turned⟩ := @parseOptionsFrom_argument env args fuel controls a life opt arg (by omega) found dash
      takes (by omega) next accepts
    rw [turned]
    exact ih behind inside (by omega)
  | @lacking controls opt mayLack dash takes =>
    subst mayLack
    obtain ⟨found, behind⟩ := of_drop_eq_cons here
    obtain ⟨inside, _⟩ := List.getElem?_eq_some_iff.mp found
    have last := List.drop_eq_nil_iff.mp behind
    obtain ⟨fuel, rfl⟩ := Nat.exists_eq_add_one_of_ne_zero (Nat.ne_of_gt (Nat.zero_lt_of_lt enough))
    refine ⟨⟨0, controls, false⟩, life, rfl, ?_⟩
    rw [if_pos rfl] at count ⊢
    have read : parseArgument args a = none := by
      rw [parseArgument, if_neg (by omega), List.getElem?_eq_none (by omega)]
      rfl
    rw [parseOptionsFrom, if_pos (by omega), found]
    simp [dash, takes, read]

theorem parseOptionsFrom_other {mayLack : Bool} {rest : List Text} (other : ¬ OnlyOptions env mayLack controls rest)
    (count : args.argc = args.argv.length + if mayLack then 1 else 0) (here : args.argv.drop a = rest)
    (enough : rest.length < fuel) :
    ∃ state place after, parseOptionsFrom env args fuel ⟨0, controls, false⟩ a life = some (state, place, after) ∧
      place < args.argv.length := by
  induction fuel generalizing controls rest a life with
  | zero => omega
  | succ fuel ih =>
    cases rest with
    | nil => exact absurd .nil other
    | cons opt rest =>
      obtain ⟨found, behind⟩ := of_drop_eq_cons here
      obtain ⟨inside, _⟩ := List.getElem?_eq_some_iff.mp found
      rw [List.length_cons] at enough
      have before : a < args.argc := by omega
      -- A failed option is the last one
      have fails (next : Option Text)
          (dash : opt.head? = some 45)
          (read : (if takesArgument opt then parseArgument args a else some none) = some next)
          (failed : (parseOption env ⟨0, controls, false⟩ opt next life).1.status ≠ 0) :
          ∃ state place after,
            parseOptionsFrom env args (fuel + 1) ⟨0, controls, false⟩ a life = some (state, place, after) ∧
              place < args.argv.length :=
        ⟨_, a, _, (parseOptionsFrom_option before found dash read).trans (if_pos failed), inside⟩
      by_cases dash : opt.head? = some 45
      · cases takes : takesArgument opt with
        | false =>
          cases flag : isFlag opt with
          | true =>
            obtain ⟨after, turned⟩ := @parseOptionsFrom_flag env args fuel controls a life opt before found dash flag
            rw [turned]
            exact ih (fun options => other (.flag dash flag options)) behind (by omega)
          | false => exact fails none dash (by simp [takes]) (parseOption_other flag takes)
        | true =>
          cases rest with
          | nil =>
            cases mayLack with
            | true => exact absurd (.lacking rfl dash takes) other
            | false =>
              have last := List.drop_eq_nil_iff.mp behind
              have ends : a + 1 = args.argc := by
                rw [count, if_neg (by decide)]
                omega
              exact fails none dash (by simp [takes, parseArgument, ends]) (parseOption_lacking takes)
          | cons arg rest =>
            obtain ⟨next, behind⟩ := of_drop_eq_cons behind
            obtain ⟨nextInside, _⟩ := List.getElem?_eq_some_iff.mp next
            have more : a + 1 ≠ args.argc := by omega
            cases accepts : acceptsArgument env controls opt arg with
            | true =>
              obtain ⟨after, turned⟩ := @parseOptionsFrom_argument env args fuel controls a life opt arg before found dash
                takes more next accepts
              rw [turned]
              rw [List.length_cons] at enough
              exact ih (fun options => other (.argument dash takes accepts options)) behind (by omega)
            | false =>
              exact fails (some arg) dash (by simp [takes, parseArgument, more, next])
                (parseOption_rejects takes accepts)
      · refine ⟨⟨0, controls, false⟩, a, life, ?_, inside⟩
        rw [parseOptionsFrom, if_pos before, found]
        simp [dash]

/-- With the right number of arguments, nothing is read behind the array, and all arguments are skipped exactly
if they are nothing but options. -/
theorem frontendInit_defined (env : Environment) (program : Text) (rest : List Text) (life : Life) :
    ∃ status place after,
      frontendInit env ⟨rest.length + 1, program :: rest⟩ life = some (status, place, after) ∧
        (place < rest.length + 1 ↔ ¬ OnlyOptions env false 0 rest) := by
  by_cases options : OnlyOptions env false 0 rest
  · obtain ⟨state, after, succeeded, run⟩ := @parseOptionsFrom_options env ⟨rest.length + 1, program :: rest⟩
      (rest.length + 1 + 1) 0 1 life false rest options rfl rfl (by simp) (by omega)
    refine ⟨0, rest.length + 1, after, ?_, by simp [options]⟩
    simp [frontendInit, run, succeeded]
  · obtain ⟨state, place, after, run, inside⟩ := @parseOptionsFrom_other env ⟨rest.length + 1, program :: rest⟩
      (rest.length + 1 + 1) 0 1 life false rest options rfl rfl (by omega)
    by_cases succeeded : state.status = 0
    · exact ⟨0, place, after, by simp [frontendInit, run, succeeded], iff_of_true inside options⟩
    · exact ⟨state.status, 0, after, by simp [frontendInit, run, succeeded], by simp [options]⟩

/-- With one argument too many, the loop reads behind the array if it holds nothing but the name of the program
and options. -/
theorem frontendInit_beyond (env : Environment) (program : Text) (rest : List Text) (life : Life) :
    (∃ result, frontendInit env ⟨rest.length + 2, program :: rest⟩ life = some result) ↔
      ¬ OnlyOptions env true 0 rest := by
  by_cases options : OnlyOptions env true 0 rest
  · obtain ⟨state, after, _, run⟩ := @parseOptionsFrom_options env ⟨rest.length + 2, program :: rest⟩
      (rest.length + 2 + 1) 0 1 life true rest options rfl rfl (by simp) (by omega)
    simp [frontendInit, run, options]
  · obtain ⟨state, place, after, run, _⟩ := @parseOptionsFrom_other env ⟨rest.length + 2, program :: rest⟩
      (rest.length + 2 + 1) 0 1 life true rest options rfl rfl (by omega)
    simp [frontendInit, run, options]

theorem frontendInit_empty (env : Environment) (life : Life) :
    frontendInit env ⟨1, []⟩ life = some (0, 1, life) := by
  simp [frontendInit, parseOptionsFrom]

end

section

variable {env : Environment} {args : JalvArgs} {state : OptionsState} {life : Life} {opt arg : Text}

theorem parseOption_unread (takesNone : takesArgument opt = false) (next : Option Text) :
    parseOption env state opt next life = parseOption env state opt none life := by
  have letters := of_decide_eq_false takesNone
  simp only [optionLetter, List.mem_cons, List.not_mem_nil, or_false, not_or] at letters
  simp [parseOption, letters]

theorem parseOption_unconsumed (fresh : state.consumed = false) :
    (parseOption env state opt none life).1.consumed = false := by
  have arguments : (addControlArgument env (state.parseArgument none) life).1.consumed = false := by
    unfold addControlArgument
    split <;> exact fresh
  rw [parseOption]
  iterate 12
    refine iteInduction (motive := fun parsed : OptionsState × Life => parsed.1.consumed = false)
      (fun _ => by first | exact fresh | exact arguments) fun _ => ?_
  exact fresh

-- With the right number of arguments, an option reads the next one if it takes an argument.
theorem parseArgument_head {rest : List Text} {a : Nat} (count : args.argc = args.argv.length)
    (inside : a < args.argv.length) (behind : args.argv.drop (a + 1) = rest) :
    parseArgument args a = some rest.head? := by
  unfold parseArgument
  split
  · next last => rw [← behind, List.drop_eq_nil_of_le (by omega), List.head?_nil]
  · next more =>
    obtain ⟨arg, here⟩ : ∃ arg, args.argv[a + 1]? = some arg := ⟨_, List.getElem?_eq_getElem (by omega)⟩
    rw [← behind, List.head?_drop, here, Option.map_some]

/-- With the right number of arguments, the loop by index does what the one over the arguments does. -/
theorem parseOptionsFrom_eq {rest : List Text} {fuel a : Nat} (count : args.argc = args.argv.length)
    (here : args.argv.drop a = rest) (enough : rest.length < fuel) (fresh : state.consumed = false) :
    ∃ place, parseOptionsFrom env args fuel state a life =
        some ((parseOptions env state rest life).1, place, (parseOptions env state rest life).2.2) ∧
      ((parseOptions env state rest life).1.status = 0 →
        args.argv.drop place = (parseOptions env state rest life).2.1) := by
  induction fuel generalizing rest state a life with
  | zero => omega
  | succ fuel ih =>
    cases rest with
    | nil =>
      have last := List.drop_eq_nil_iff.mp here
      refine ⟨a, ?_, fun _ => here⟩
      rw [parseOptionsFrom, if_neg (by omega)]
      rfl
    | cons opt rest =>
      obtain ⟨found, behind⟩ := of_drop_eq_cons here
      obtain ⟨inside, _⟩ := List.getElem?_eq_some_iff.mp found
      rw [List.length_cons] at enough
      rw [parseOptions, if_neg (by simp [fresh])]
      by_cases dash : opt.head? = some 45
      · rw [if_pos dash]
        -- Both loops give the option the same argument
        obtain ⟨next, read, same, more⟩ : ∃ next,
            (if takesArgument opt then parseArgument args a else some none) = some next ∧
              parseOption env state opt rest.head? life = parseOption env state opt next life ∧
              (rest = [] → next = none) := by
          cases takes : takesArgument opt with
          | true => exact ⟨rest.head?, parseArgument_head count inside behind, rfl, fun none => by rw [none]; rfl⟩
          | false => exact ⟨none, rfl, parseOption_unread takes rest.head?, fun _ => rfl⟩
        rw [same, parseOptionsFrom_option (by omega) found dash read]
        have unconsumed := @parseOption_unconsumed env state life opt fresh
        by_cases failed : (parseOption env state opt next life).1.status ≠ 0
        · simp only [if_pos failed]
          exact ⟨a, rfl, fun succeeded => absurd succeeded failed⟩
        · simp only [if_neg failed]
          cases consumed : (parseOption env state opt next life).1.consumed with
          | false =>
            obtain ⟨place, run, left⟩ := @ih _ (parseOption env state opt next life).2 _ _ behind (by omega) consumed
            exact ⟨place, by simpa using run, left⟩
          | true =>
            cases rest with
            | nil =>
              rw [more rfl, unconsumed] at consumed
              cases consumed
            | cons arg rest =>
              obtain ⟨_, behind⟩ := of_drop_eq_cons behind
              rw [List.length_cons] at enough
              obtain ⟨place, run, left⟩ := @ih { (parseOption env state opt next life).1 with consumed := false }
                (parseOption env state opt next life).2 _ _ behind (by omega) rfl
              rw [parseOptions, if_pos consumed]
              exact ⟨place, by simpa using run, left⟩
      · refine ⟨a, ?_, fun _ => ?_⟩
        · rw [parseOptionsFrom, if_pos (by omega), found]
          simp [dash]
        · rw [if_neg dash]
          exact here

/-- `main` passes all arguments, and opens the one that is left. -/
theorem jalvFrontendInit_eq (env : Environment) (program : Text) (life : Life) :
    ∃ place after, frontendInit env ⟨env.args.length + 1, program :: env.args⟩ life =
        some ((life.jalvFrontendInit env).1, place, after) ∧
      (life.jalvFrontendInit env).2 = if (life.jalvFrontendInit env).1 = 0 then
        { after with loadArg := (program :: env.args)[place]? } else after := by
  obtain ⟨place, run, left⟩ := @parseOptionsFrom_eq env ⟨env.args.length + 1, program :: env.args⟩ ⟨0, 0, false⟩ life
    env.args (env.args.length + 1 + 1) 1 rfl rfl (by omega) rfl
  unfold jalvFrontendInit frontendInit
  rw [run]
  by_cases succeeded : (parseOptions env ⟨0, 0, false⟩ env.args life).1.status = 0
  · refine ⟨place, (parseOptions env ⟨0, 0, false⟩ env.args life).2.2, by simp [succeeded], ?_⟩
    rw [← List.head?_drop, left succeeded]
    simp [succeeded]
  · exact ⟨0, (parseOptions env ⟨0, 0, false⟩ env.args life).2.2, by simp [succeeded], by simp [succeeded]⟩

end

end Life

end Jalv
