import Jalv.Host.Lifecycle

/-! What `jalv_open` has acquired when it returns, for each place where it returns. -/

set_option autoImplicit false

namespace Jalv

open Foundation

def Environment.knows (env : Environment) (port : LilvPort) : Bool :=
  (jalvProcessPortInit env.useJackMetadata port).isSome

/-- From an index on, `jalv_create_ports` gets to a port: it fails for no earlier one. -/
def Environment.Visits (env : Environment) (index port : Nat) : Prop :=
  port < env.ports.length ∧ ∀ earlier, index ≤ earlier → earlier < port →
    ∀ found ∈ env.ports[earlier]?, env.knows found

def Environment.Controls (env : Environment) (index port : Nat) : Prop :=
  env.Visits index port ∧ ∃ found ∈ env.ports[port]?, env.knows found ∧ found.isControl

/-- Where the program goes to its end: the command line ends it, `jalv_open` fails for one of its
reasons, or the plugin is opened. -/
inductive Exit where
  | early
  | noPlugin
  | noUi
  | unknownPort
  | noBackend
  | noFeatureList
  | noFeature
  | noInstance
  | opened
  deriving DecidableEq

namespace Exit

def status : Exit → Int
  | early => 0
  | noPlugin => -2
  | noUi => -5
  | unknownPort => -10
  | noBackend => -6
  | noFeatureList => -7
  | noFeature => -8
  | noInstance => -9
  | opened => 0

def level : Exit → Nat
  | early => 0
  | noPlugin => 1
  | noUi => 2
  | unknownPort => 4
  | noBackend => 5
  | noFeatureList => 7
  | noFeature => 8
  | noInstance => 8
  | opened => 10

end Exit

def Environment.backendOpens (env : Environment) : Bool :=
  match env.backend with
  | .jack => env.connects
  | .portAudio => env.initializes && env.hasInputDevice && env.hasOutputDevice && env.opensStream

def Life.exit (life : Life) (env : Environment) : Exit :=
  if ¬(life.loadArg.any env.loadsState ∧ env.findsPlugin) then .noPlugin
  else if life.setUp .uiUri ∧ ¬env.findsUi then .noUi
  else if ∃ port ∈ env.ports, ¬env.knows port then .unknownPort
  else if ¬env.backendOpens then .noBackend
  else if ¬env.room .featureList then .noFeatureList
  else if ¬env.featuresSupported then .noFeature
  else if ¬env.instantiates then .noInstance
  else .opened

def Resource.stage : Resource → Nat
  | backend | uiUri | controlArguments | controls | workerSem | workerThread => 0
  | world | mapper | dumper | workLock | done | nodes | state => 1
  | name | pluginName | uis => 2
  | paused | worker | stateWorker => 3
  | ports | processPorts | controlsBuf | symbol _ | label _ | portControl _ => 4
  | client | audio | stream => 5
  | propertyControl _ => 6
  | uiMsg | featureList => 7
  | requiredFeatures => 8
  | pluginInstance => 9
  | evbuf _ | uiToPlugin | pluginToUi | processMsg => 10

def Resource.IsControl : Resource → Prop
  | portControl _ | propertyControl _ => True
  | _ => False

theorem Resource.IsControl.ne {control other : Resource} (isControl : control.IsControl)
    (plain : ¬other.IsControl) : control ≠ other := by
  rintro rfl
  exact plain isControl

/-- A control that gets into the array: the type of its value is known, and there is memory. -/
def Environment.Keeps (env : Environment) (control : Resource) : Prop :=
  env.room control ∧ ∀ number, control = .propertyControl number → (env.writable ++ env.readable)[number]? = some true

namespace Life

/-- Whether a resource is acquired in its stage, if `jalv_open` begins in this state. -/
def Sets (env : Environment) (start : Life) : Resource → Prop
  | .dumper => start.dump
  | .state => start.loadArg.any env.loadsState
  | .name => ¬start.setUp .name
  | .uis => env.hasUis
  | .worker => env.workInterface ∧ env.room .worker
  | .stateWorker => env.workInterface ∧ env.safeRestore ∧ env.room .stateWorker
  | .symbol port => env.Visits 0 port
  | .label port => env.Visits 0 port ∧ env.named port
  | .portControl port => env.Controls 0 port
  | .client => env.backend = .jack ∧ env.connects
  | .audio => env.backend = .portAudio ∧ env.initializes
  | .stream => env.backend = .portAudio ∧ env.backendOpens
  | .propertyControl number => number < env.writable.length + env.readable.length
  | .featureList => env.room .featureList
  | .evbuf port => env.portType port = .event
  | _ => True

def plan (env : Environment) (start : Life) : Ledger.Plan Resource := ⟨Resource.stage, start.Sets env⟩

theorem setUp_change_of_ne {life : Life} {resource other : Resource} {operation : Account → Account}
    (differ : other ≠ resource) : (life.change resource operation).setUp other = life.setUp other := by
  simp [setUp, differ]

def SameFields (life next : Life) : Prop := ∃ ledger, next = { life with ledger }

theorem SameFields.refl (life : Life) : life.SameFields life := ⟨_, rfl⟩

theorem SameFields.trans {life next last : Life} (first : life.SameFields next) (second : next.SameFields last) :
    life.SameFields last := by
  obtain ⟨_, rfl⟩ := first
  obtain ⟨_, rfl⟩ := second
  exact ⟨_, rfl⟩

theorem SameFields.change {life next : Life} (same : life.SameFields next) (resource : Resource)
    (operation : Account → Account) : life.SameFields (next.change resource operation) := by
  obtain ⟨ledger, rfl⟩ := same
  exact ⟨_, rfl⟩

theorem SameFields.ite {life next other : Life} {condition : Prop} {_ : Decidable condition}
    (first : life.SameFields next) (second : life.SameFields other) :
    life.SameFields (if condition then next else other) :=
  iteInduction (fun _ => first) fun _ => second

end Life

end Jalv
