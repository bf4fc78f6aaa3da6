import Jalv.Foundation.Ledger
import Jalv.Plugin.Port
import Mathlib.Tactic.Simps.Basic

/-! What the console program acquires from its start to its end, and what it meets on the way.

Resources that a function acquires and releases before it returns, on every path, are left
out. So is what only a running plugin can bring: a preset, a scratch directory, and an
instance of a user interface.
-/

set_option autoImplicit false

namespace Jalv

open Foundation

/-- The pointers of the program, and the semaphores and threads that it sets up. A control
stands for its record with all nodes in it, and a worker for its buffers too. -/
inductive Resource where
  | backend
  -- `JalvOptions`
  | name
  | uiUri
  | controlArguments
  -- `Jalv`
  | world
  | mapper
  | dumper
  | workLock
  | done
  | nodes
  | pluginName
  | uis
  | ports
  | controls
  | portControl (port : Nat)
  | propertyControl (number : Nat)
  | uiMsg
  | featureList
  -- Variables of `jalv_open`
  | state
  | requiredFeatures
  -- `JalvProcess`
  | paused
  | worker
  | stateWorker
  | processPorts
  | controlsBuf
  | symbol (port : Nat)
  | label (port : Nat)
  | pluginInstance
  | evbuf (port : Nat)
  | uiToPlugin
  | pluginToUi
  | processMsg
  -- `JalvWorker`
  | workerSem
  | workerThread
  -- `JalvBackend`, and the initialization of PortAudio
  | client
  | audio
  | stream
  deriving DecidableEq

inductive ResourceUse where
  | connectPort
  | activate
  | deactivate
  | free
  | log
  | semDestroy
  deriving DecidableEq

inductive BackendKind where | jack | portAudio
  deriving DecidableEq

/-- What a run depends on: the build, the arguments, the data of the plugin, and what other
libraries and the system answer. Memory that is used without a check is found. -/
structure Environment where
  backend : BackendKind
  useJackMetadata : Bool
  -- The arguments behind the name of the program
  args : List Text
  strtol : Text → Int
  -- Whether lilv finds a state by its URI or path, and then its plugin
  loadsState : Text → Bool
  findsPlugin : Bool
  hasUis : Bool
  -- Whether the user interface with the URI of the options is found
  findsUi : Bool
  workInterface : Bool
  safeRestore : Bool
  ports : List LilvPort
  -- Whether a port has a name
  named : Nat → Bool
  -- For each control that is made for a writable or a readable property, whether the type of its value is known
  writable : List Bool
  readable : List Bool
  featuresSupported : Bool
  instantiates : Bool
  -- Whether memory is found for a resource, or for a control in the array of controls
  room : Resource → Bool
  -- Whether memory is found for one more control argument
  argumentRoom : Nat → Bool
  semInit : Bool
  threadCreate : Bool
  -- JACK
  connects : Bool
  -- PortAudio
  initializes : Bool
  hasInputDevice : Bool
  hasOutputDevice : Bool
  opensStream : Bool
  startFails : Bool
  stopFails : Bool
  closeFails : Bool
  terminateFails : Bool

def Environment.portType (env : Environment) (index : Nat) : PortType :=
  match env.ports[index]? with
  | some port => port.type env.useJackMetadata
  | none => .unknown

def Environment.portFlow (env : Environment) (index : Nat) : PortFlow :=
  match env.ports[index]? with
  | some port => port.flow
  | none => .unknown

/-- The state of the program: its pointers, and the fields that decide what is released.
`uses` are the calls that need something, with whether it was there, and `log` says whether
the backend has a log. -/
structure Life where
  ledger : Ledger Resource
  uses : List (ResourceUse × Bool)
  dump : Bool
  loadArg : Option Text
  numPorts : Nat
  controls : List Resource
  log : Bool
  started : Bool
  launched : Bool

namespace Life

def zero : Life := ⟨fun _ => .empty, [], false, none, 0, [], false, false, false⟩

@[simps] def change (life : Life) (resource : Resource) (operation : Account → Account) : Life :=
  { life with ledger := life.ledger.change resource operation }

abbrev acquire (life : Life) (resource : Resource) : Life := life.change resource .acquire

abbrev release (life : Life) (resource : Resource) : Life := life.change resource .release

abbrev renew (life : Life) (resource : Resource) : Life := life.change resource .renew

abbrev drop (life : Life) (resource : Resource) : Life := life.change resource .drop

def setUp (life : Life) (resource : Resource) : Bool := (life.ledger resource).pointer.isSome

@[simps] def use (life : Life) (call : ResourceUse) (there : Bool) : Life :=
  { life with uses := life.uses ++ [(call, there)] }

/-- `add_control`, which grows the array of controls. If there is no memory for it, the
control is not stored. -/
def addControl (env : Environment) (control : Resource) (life : Life) : Life :=
  if env.room control then
    { life.renew .controls with controls := life.controls ++ [control] }
  else life

def UsesOnlySetUp (life : Life) (call : ResourceUse) : Prop := (call, false) ∉ life.uses

def Settled (life : Life) (resource : Resource) : Prop := (life.ledger resource).Settled

end Life

end Jalv
