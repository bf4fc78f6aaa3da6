import Jalv.Console.Options

/-! Opening and closing a plugin, as the console program does it (`jalv.c`, `process_setup.c`,
`worker.c`, `main.c` and both backends).

The calls of `jalv_log` are given where a backend makes them. All others have the log in the
structure of the program itself.
-/

set_option autoImplicit false

namespace Jalv

open Foundation

namespace Life

/-- `zix_sem_destroy`, which does not ask whether the semaphore was initialized. -/
def semDestroy (life : Life) (sem : Resource) : Life := (life.use .semDestroy (life.setUp sem)).release sem

/-- The first part of `jalv_open`, up to the features. -/
def loadWorld (life : Life) : Life :=
  -- Load the LV2 world
  let life := (life.acquire .world).acquire .mapper
  -- Set up atom dumping for debugging if enabled
  let life := if life.dump then life.acquire .dumper else life
  ((life.acquire .workLock).acquire .done).acquire .nodes

/-- `open_plugin_state`. Without an argument, the console program has no plugin to select. -/
def openPluginState (env : Environment) (life : Life) : Life :=
  match life.loadArg with
  | none => life
  | some arg => if env.loadsState arg then life.acquire .state else life

def describePlugin (env : Environment) (life : Life) : Life :=
  let life := life.acquire .pluginName
  -- Set client name from plugin name if the user didn't specify one
  let life := if life.setUp .name then life else life.acquire .name
  if env.hasUis then life.acquire .uis else life

def openUi (env : Environment) (life : Life) : Bool := !env.findsUi && life.setUp .uiUri

def prepareProcess (env : Environment) (life : Life) : Life :=
  let life := life.acquire .paused
  if env.workInterface then
    let life := if env.room .worker then life.acquire .worker else life
    if env.safeRestore ∧ env.room .stateWorker then life.acquire .stateWorker else life
  else life

/-- `jalv_process_port_init` up to the check of the types, which is what it acquires. -/
def initPort (env : Environment) (index : Nat) (life : Life) : Life :=
  let life := life.acquire (.symbol index)
  if env.named index then life.acquire (.label index) else life

/-- A new control, which is stored in the array of controls unless it is to be ignored. -/
def newControl (env : Environment) (control : Resource) (stored : Bool) (life : Life) : Life :=
  let life := life.acquire control
  if stored then life.addControl env control else life

def createPortsFrom (env : Environment) (index : Nat) : List LilvPort → Life → Bool × Life
  | [], life => (false, life)
  | port :: rest, life =>
    let life := life.initPort env index
    match jalvProcessPortInit env.useJackMetadata port with
    | none => (true, life)
    | some _ =>
      createPortsFrom env (index + 1) rest
        (if port.isControl then life.newControl env (.portControl index) true else life)

def jalvCreatePorts (env : Environment) (life : Life) : Bool × Life :=
  let life := ((life.acquire .ports).acquire .processPorts).acquire .controlsBuf
  createPortsFrom env 0 env.ports { life with numPorts := env.ports.length }

def setupError (life : Life) : Life := (life.use .log life.log).release .audio

def jalvBackendOpen (env : Environment) (life : Life) : Bool × Life :=
  match env.backend with
  | .jack =>
    let life := if !life.setUp .client && env.connects then life.acquire .client else life
    if !life.setUp .client then (true, life)
    else (false, life.use .log true)
  | .portAudio =>
    let life := { life with log := true }
    if !env.initializes then (true, life.setupError)
    else
      let life := life.acquire .audio
      if !env.hasInputDevice then (true, life.setupError)
      else if !env.hasOutputDevice then (true, life.setupError)
      else if !env.opensStream then (true, life.setupError)
      else (false, life.acquire .stream)

/-- The loop of `jalv_create_controls` over the records that it makes, from a number on. A record
whose values have an unknown type is freed without its nodes. -/
def createControlsFrom (env : Environment) (number : Nat) : List Bool → Life → Life
  | [], life => life
  | known :: rest, life =>
    createControlsFrom env (number + 1) rest (life.newControl env (.propertyControl number) known)

def jalvCreateControls (env : Environment) (writable : Bool) (life : Life) : Life :=
  if writable then createControlsFrom env 0 env.writable life
  else createControlsFrom env env.writable.length env.readable life

def activateEventPort (env : Environment) (life : Life) (index : Nat) : Life :=
  if env.portType index = .event then
    -- The capacities are only compared if there is a buffer
    let life := if !life.setUp (.evbuf index) then life.renew (.evbuf index) else life
    life.use .connectPort (life.setUp .pluginInstance)
  else life

def jalvProcessActivate (env : Environment) (life : Life) : Life :=
  let life := (List.range life.numPorts).foldl (activateEventPort env) life
  -- Allocate UI<=>process communication rings and receive buffer
  let life := if !life.setUp .uiToPlugin then life.acquire .uiToPlugin else life
  let life := if !life.setUp .pluginToUi then life.acquire .pluginToUi else life
  -- The sizes are only compared if there is a buffer
  if !life.setUp .processMsg then life.renew .processMsg else life

def jalvBackendActivatePort (env : Environment) (life : Life) (index : Nat) : Life :=
  let unknown := env.portFlow index = .unknown ∨ env.portType index = .unknown
  if env.portType index = .control ∨ env.backend = .jack ∧ unknown then
    life.use .connectPort (life.setUp .pluginInstance)
  else life

def jalvOpen (env : Environment) (life : Life) : Int × Life :=
  let life := life.loadWorld
  -- Find the initial state (and thereby the plugin URI)
  let life := life.openPluginState env
  if !life.setUp .state || !env.findsPlugin then (-2, life)
  else
    let life := life.describePlugin env
    if life.openUi env then (-5, life)
    else
      let life := life.prepareProcess env
      -- Create port structures
      let (failed, life) := life.jalvCreatePorts env
      if failed then (-10, life)
      else
        -- Open backend (to set the sample rate, among other things)
        let (failed, life) := life.jalvBackendOpen env
        if failed then (-6, life)
        else
          let life := (life.jalvCreateControls env true).jalvCreateControls env false
          -- Create Plugin => UI communication buffers
          let life := life.acquire .uiMsg
          let life := if env.room .featureList then life.acquire .featureList else life
          if !life.setUp .featureList then (-7, life)
          else
            -- Check that any required features are supported
            let life := life.acquire .requiredFeatures
            if !env.featuresSupported then (-8, life)
            else
              let life := life.release .requiredFeatures
              -- Instantiate the plugin
              if !env.instantiates then (-9, life)
              else
                let life := life.acquire .pluginInstance
                -- Allocate port buffers
                let life := life.jalvProcessActivate env
                -- Apply loaded state to plugin instance if necessary
                let life := life.release .state
                (0, (List.range life.numPorts).foldl (jalvBackendActivatePort env) life)

def jalvWorkerLaunch (env : Environment) (life : Life) : Life :=
  if life.launched then life
  else if !env.semInit then life
  else
    let life := life.acquire .workerSem
    if !env.threadCreate then life.release .workerSem
    else { life.acquire .workerThread with launched := true }

def jalvWorkerExit (life : Life) : Life :=
  if life.launched then { life.release .workerThread with launched := false } else life

def jalvBackendActivate (env : Environment) (life : Life) : Life :=
  match env.backend with
  | .jack => life
  | .portAudio =>
    if life.started then life
    else
      let life := if env.startFails then life.use .log life.log else life
      { life with started := true }

def jalvActivate (env : Environment) (life : Life) : Life :=
  let life := if life.setUp .worker then life.jalvWorkerLaunch env else life
  (life.use .activate (life.setUp .pluginInstance)).jalvBackendActivate env

def jalvBackendDeactivate (env : Environment) (life : Life) : Life :=
  match env.backend with
  | .jack => life
  | .portAudio =>
    if !life.started then life
    else
      let life := if env.stopFails then life.use .log life.log else life
      { life with started := false }

def jalvDeactivate (env : Environment) (life : Life) : Life :=
  let life := life.jalvBackendDeactivate env
  let life := if life.setUp .pluginInstance then life.use .deactivate (life.setUp .pluginInstance) else life
  if life.setUp .worker then life.jalvWorkerExit else life

def deactivatePort (life : Life) (index : Nat) : Life :=
  let life := life.release (.evbuf index)
  (life.use .connectPort (life.setUp .pluginInstance)).drop (.evbuf index)

def jalvProcessDeactivate (life : Life) : Life :=
  let life := (life.release .processMsg).drop .processMsg
  (List.range life.numPorts).foldl deactivatePort life

def jalvBackendClose (env : Environment) (life : Life) : Life :=
  match env.backend with
  | .jack => if life.setUp .client then life.release .client else life
  | .portAudio =>
    let life :=
      if life.setUp .stream then
        let life := life.release .stream
        if env.closeFails then life.use .log life.log else life
      else life
    let life := (life.drop .stream).release .audio
    if env.terminateFails then life.use .log life.log else life

def cleanupPort (life : Life) (index : Nat) : Life :=
  let life := if life.setUp (.evbuf index) then life.release (.evbuf index) else life
  (life.release (.label index)).release (.symbol index)

def jalvProcessCleanup (life : Life) : Life :=
  let life := life.semDestroy .paused
  -- The worker exits first, and the worker for states has no thread
  let life := if life.setUp .worker then life.jalvWorkerExit.release .worker else life
  let life := life.release .stateWorker
  let life := ((life.release .uiToPlugin).release .pluginToUi).release .processMsg
  (List.range life.numPorts).foldl cleanupPort life

def jalvClose (env : Environment) (life : Life) : Life :=
  -- Stop audio processing, free event port buffers, and close backend
  let life := (life.jalvDeactivate env).jalvProcessDeactivate
  let life := life.jalvBackendClose env
  -- Free UI and plugin instances
  let life :=
    if life.setUp .pluginInstance then
      (life.use .free (life.setUp .pluginInstance)).release .pluginInstance
    else life
  -- Clean up
  let life := ((life.release .pluginName).release .ports).jalvProcessCleanup
  let life := (((life.release .processPorts).release .uiMsg).release .controlsBuf).release .nodes
  let life := (life.controls.foldl release life).release .controls
  let life := (((life.release .dumper).release .uis).release .mapper).release .world
  ((life.semDestroy .done).release .featureList).release .name |>.release .controlArguments

def jalvFrontendClose (env : Environment) (life : Life) : Life := (life.jalvDeactivate env).jalvClose env

/-- `jalv_frontend_run`. While the plugin is active, nothing that is listed here changes. -/
def jalvFrontendRun (env : Environment) (life : Life) : Life :=
  let (status, life) := life.jalvOpen env
  if status ≠ 0 then life else life.jalvActivate env

end Life

def Environment.init (env : Environment) : Int × Life := (Life.zero.acquire .backend).jalvFrontendInit env

def Environment.main (env : Environment) : Life :=
  let (status, life) := env.init
  let life := if status = 0 then life.jalvFrontendRun env else life
  (life.jalvFrontendClose env).release .backend

end Jalv
