import Jalv.Host.Resources

/-! The command line of the console program (`jalv_console.c`), as far as it decides how the
program goes on and what it holds.
-/

set_option autoImplicit false

namespace Jalv

open Foundation

def jalvEarlyExitStatus : Int := -431

def helpOption : Text := [45, 45, 104, 101, 108, 112]
def versionOption : Text := [45, 45, 118, 101, 114, 115, 105, 111, 110]

/-- `consumed` says whether the next argument has been taken for the last option. -/
structure OptionsState where
  status : Int
  nControls : Nat
  consumed : Bool

namespace OptionsState

def parseArgument (state : OptionsState) (next : Option Text) : OptionsState :=
  match next with
  | some _ => { state with status := 0, consumed := true }
  | none => { state with status := 1 }

def parseIntArgument (strtol : Text → Int) (state : OptionsState) (next : Option Text) (lowest highest : Int) :
    OptionsState :=
  match next with
  | some string =>
    let value := strtol string
    { state with status := if value < lowest ∨ highest < value then 1 else 0, consumed := true }
  | none => { state with status := 1 }

end OptionsState

namespace Life

def addControlArgument (env : Environment) (state : OptionsState) (life : Life) : OptionsState × Life :=
  if env.argumentRoom state.nControls then
    ({ state with nControls := state.nControls + 1 },
      life.renew .controlArguments)
  else ({ state with status := 12 }, life)

def parseOption (env : Environment) (state : OptionsState) (opt : Text) (next : Option Text) (life : Life) :
    OptionsState × Life :=
  -- The letter behind the dash, or the terminator
  let letter := (opt[1]?.getD 0).toNat
  if letter = 104 ∨ opt = helpOption then ({ state with status := jalvEarlyExitStatus }, life)
  else if letter = 86 ∨ opt = versionOption then ({ state with status := jalvEarlyExitStatus }, life)
  -- `-s` and `-p`
  else if letter = 115 ∨ letter = 112 then (state, life)
  -- `-U`
  else if letter = 85 then (state.parseArgument next, life.acquire .uiUri)
  -- `-b` and `-l`
  else if letter = 98 then (state.parseIntArgument env.strtol next 2 2147483648, life)
  else if letter = 108 then (state.parseIntArgument env.strtol next 1 65536, life)
  -- `-c`
  else if letter = 99 then life.addControlArgument env (state.parseArgument next)
  -- `-i`, `-d` and `-t`
  else if letter = 105 then (state, life)
  else if letter = 100 then (state, { life with dump := true })
  else if letter = 116 then (state, life)
  -- `-n` and `-x`
  else if letter = 110 then (state.parseArgument next, life.renew .name)
  else if letter = 120 then (state, life)
  -- The usage is printed as an error
  else ({ state with status := 1 }, life)

/-- The loop over the arguments, which stops at the first that is not an option, or at the
first option that fails. It gives the arguments that are left. -/
def parseOptions (env : Environment) : OptionsState → List Text → Life → OptionsState × List Text × Life
  | state, [], life => (state, [], life)
  | state, opt :: rest, life =>
    if state.consumed then parseOptions env { state with consumed := false } rest life
    else if opt.head? = some 45 then
      let (state, life) := parseOption env state opt rest.head? life
      if state.status ≠ 0 then (state, rest, life) else parseOptions env state rest life
    else (state, opt :: rest, life)

def jalvFrontendInit (env : Environment) (life : Life) : Int × Life :=
  let (state, args, life) := parseOptions env ⟨0, 0, false⟩ env.args life
  if state.status ≠ 0 then (state.status, life) else (0, { life with loadArg := args.head? })

-- What the command line does to a resource: it only sets options, and loses nothing but the URI of a user interface.
def OptionAccount (start : Ledger Resource) : Resource → Account → Prop
  | .name, account => account.Tidy
  | .controlArguments, account => account.Tidy
  | .uiUri, account => account.Unpaid
  | resource, account => account = start resource

structure Configured (start life : Life) : Prop where
  frame : ∃ ledger dump loadArg, life = { start with ledger, dump, loadArg }
  accounts : ∀ resource, OptionAccount start.ledger resource (life.ledger resource)

section

variable {env : Environment} {start life : Life} {state : OptionsState} {opt : Text} {next : Option Text}

theorem Configured.change {resource : Resource} {operation : Account → Account} (configured : Configured start life)
    (changed : OptionAccount start.ledger resource (operation (life.ledger resource))) :
    Configured start (life.change resource operation) where
  frame := by
    obtain ⟨ledger, dump, loadArg, rfl⟩ := configured.frame
    exact ⟨_, _, _, rfl⟩
  accounts other := by
    rw [change_ledger, Ledger.change_apply]
    split
    · next same =>
      subst same
      exact changed
    · exact configured.accounts other

theorem addControlArgument_configured (configured : Configured start life) :
    Configured start (life.addControlArgument env state).2 := by
  unfold addControlArgument
  split
  · exact configured.change (configured.accounts .controlArguments).renew
  · exact configured

theorem parseOption_configured (configured : Configured start life) :
    Configured start (parseOption env state opt next life).2 := by
  have dumps : Configured start { life with dump := true } := by
    obtain ⟨ledger, dump, loadArg, rfl⟩ := configured.frame
    exact ⟨⟨_, _, _, rfl⟩, configured.accounts⟩
  have names : Configured start (life.renew .name) := configured.change (configured.accounts .name).renew
  have uris : Configured start (life.acquire .uiUri) := configured.change (configured.accounts .uiUri).acquire
  have arguments := @addControlArgument_configured env start life (state.parseArgument next) configured
  rw [parseOption]
  -- No option but these three changes a resource
  iterate 12
    refine iteInduction (motive := fun parsed : OptionsState × Life => Configured start parsed.2)
      (fun _ => by assumption) fun _ => ?_
  exact configured

theorem parseOptions_configured (args : List Text) (configured : Configured start life) :
    Configured start (parseOptions env state args life).2.2 := by
  induction args generalizing state life with
  | nil => exact configured
  | cons opt rest ih =>
    unfold parseOptions
    split
    · exact ih configured
    · split
      · have parsed := @parseOption_configured env start life state opt rest.head? configured
        dsimp only
        split
        · exact parsed
        · exact ih parsed
      · exact configured

theorem jalvFrontendInit_configured (tidy : (life.ledger .name).Tidy) (arguments : (life.ledger .controlArguments).Tidy)
    (uri : (life.ledger .uiUri).Unpaid) : Configured life (life.jalvFrontendInit env).2 := by
  have begins : Configured life life :=
    ⟨⟨_, _, _, rfl⟩, fun resource => by cases resource <;> first | rfl | assumption⟩
  have parsed := @parseOptions_configured env life life ⟨0, 0, false⟩ env.args begins
  unfold jalvFrontendInit
  dsimp only
  split
  · exact parsed
  · obtain ⟨ledger, dump, loadArg, same⟩ := parsed.frame
    exact ⟨⟨ledger, dump, _, by rw [same]⟩, parsed.accounts⟩

end

end Life

end Jalv
