import Jalv.Foundation.Lists
import Jalv.Host.Acquired

/-! The stages of `jalv_open` that acquire single resources, the backends, and the buffers of ports. -/

set_option autoImplicit false

namespace Jalv

open Foundation

namespace Life

section

variable {env : Environment} {start life : Life}

theorem openPluginState_eq : life.openPluginState env =
    if life.loadArg.any env.loadsState then life.acquire .state else life := by
  unfold openPluginState
  cases life.loadArg <;> rfl

theorem loadWorld_same : life.SameFields life.loadWorld := by
  have begun := ((SameFields.refl life).change .world .acquire).change .mapper .acquire
  exact ((((begun.change _ _).ite begun).change _ _).change _ _).change _ _

theorem openPluginState_same : life.SameFields (life.openPluginState env) := by
  rw [openPluginState_eq]
  exact ((SameFields.refl life).change _ _).ite (.refl life)

theorem load_stage (dump : life.dump = start.dump) (arg : life.loadArg = start.loadArg) (resource : Resource) :
    (life.ledger resource).Given (resource.stage = 1 ∧ start.Sets env resource)
      ((life.loadWorld.openPluginState env).ledger resource) := by
  have same : life.loadWorld.loadArg = start.loadArg := by
    obtain ⟨_, frame⟩ := @loadWorld_same life
    rw [frame, ← arg]
  rw [openPluginState_eq, same]
  cases dumps : start.dump <;> cases loads : start.loadArg.any env.loadsState <;> cases resource <;>
    simp [Account.Given, Resource.stage, Sets, loadWorld, dump, dumps, loads]

theorem describePlugin_same : life.SameFields (life.describePlugin env) := by
  have begun := (SameFields.refl life).change .pluginName .acquire
  exact ((begun.ite (begun.change _ _)).change _ _).ite (begun.ite (begun.change _ _))

theorem describePlugin_stage (named : life.setUp .name = start.setUp .name) (resource : Resource) :
    (life.ledger resource).Given (resource.stage = 2 ∧ start.Sets env resource)
      ((life.describePlugin env).ledger resource) := by
  have same : (life.acquire .pluginName).setUp .name = start.setUp .name := by
    have other : Resource.name ≠ .pluginName := nofun
    rw [setUp_change_of_ne other, named]
  simp only [describePlugin, same]
  cases set : start.setUp .name <;> cases has : env.hasUis <;> cases resource <;>
    simp [Account.Given, Resource.stage, Sets, set, has]

theorem prepareProcess_same : life.SameFields (life.prepareProcess env) := by
  have begun := (SameFields.refl life).change .paused .acquire
  exact (((((begun.change _ _).ite begun).change _ _)).ite ((begun.change _ _).ite begun)).ite begun

theorem prepareProcess_stage (resource : Resource) :
    (life.ledger resource).Given (resource.stage = 3 ∧ start.Sets env resource)
      ((life.prepareProcess env).ledger resource) := by
  unfold prepareProcess
  cases work : env.workInterface <;> cases first : env.room .worker <;> cases safe : env.safeRestore <;>
    cases second : env.room .stateWorker <;> cases resource <;>
    simp [Account.Given, Resource.stage, Sets, work, first, safe, second]
def Sound (life : Life) : Prop := ∀ made ∈ life.uses, made.2 = true

theorem Sound.use {call : ResourceUse} {there : Bool} (sound : life.Sound) (present : there = true) :
    (life.use call there).Sound :=
  forall_mem_concat sound present

theorem jalvBackendOpen_jack (jack : env.backend = .jack) (unset : life.setUp .client = false) :
    life.jalvBackendOpen env =
      if env.backendOpens then (false, (life.acquire .client).use .log true) else (true, life) := by
  have acquired : (life.acquire .client).setUp .client = true := by simp [setUp]
  unfold jalvBackendOpen Environment.backendOpens
  cases env.connects <;> simp [jack, unset, acquired]

def initialized (env : Environment) (life : Life) : Life :=
  if env.initializes then { life with log := true }.acquire .audio else { life with log := true }

theorem jalvBackendOpen_portAudio (portAudio : env.backend = .portAudio) : life.jalvBackendOpen env =
    if env.backendOpens then (false, (initialized env life).acquire .stream)
    else (true, (initialized env life).setupError) := by
  unfold jalvBackendOpen Environment.backendOpens initialized
  cases env.initializes <;> cases env.hasInputDevice <;> cases env.hasOutputDevice <;> cases env.opensStream <;>
    simp [portAudio]

theorem jalvBackendOpen_failed (unset : life.setUp .client = false) :
    (life.jalvBackendOpen env).1 = !env.backendOpens := by
  cases backend : env.backend with
  | jack =>
    rw [jalvBackendOpen_jack backend unset]
    cases env.backendOpens <;> rfl
  | portAudio =>
    rw [jalvBackendOpen_portAudio backend]
    cases env.backendOpens <;> rfl

-- The initialization of PortAudio is undone if something after it fails.
theorem jalvBackendOpen_stage (unset : life.setUp .client = false) (resource : Resource) :
    ∃ acquired, (life.ledger resource).Given (resource.stage = 5 ∧ start.Sets env resource) acquired ∧
      (life.jalvBackendOpen env).2.ledger resource =
        if ¬env.backendOpens ∧ env.backend = .portAudio ∧ resource = .audio then acquired.release else acquired := by
  cases backend : env.backend with
  | jack =>
    refine ⟨_, ?_, (if_neg (by simp)).symm⟩
    rw [jalvBackendOpen_jack backend unset]
    cases connects : env.connects <;> cases resource <;>
      simp [Account.Given, Resource.stage, Sets, Environment.backendOpens, backend, connects]
  | portAudio =>
    rw [jalvBackendOpen_portAudio backend]
    cases opens : env.backendOpens with
    | true =>
      have initializes : env.initializes = true := by
        simp only [Environment.backendOpens, backend, Bool.and_eq_true] at opens
        exact opens.1.1.1
      refine ⟨_, ?_, (if_neg (by simp)).symm⟩
      cases resource <;> simp [Account.Given, Resource.stage, Sets, backend, opens, initialized, initializes]
    | false =>
      refine ⟨(initialized env life).ledger resource, ?_, ?_⟩
      · cases initializes : env.initializes <;> cases resource <;>
          simp [Account.Given, Resource.stage, Sets, backend, opens, initialized, initializes]
      · simp [setupError]

theorem jalvBackendOpen_frame (unset : life.setUp .client = false) : ∃ ledger uses, (life.jalvBackendOpen env).2 =
    { life with ledger, uses, log := life.log || decide (env.backend = .portAudio) } := by
  cases backend : env.backend with
  | jack =>
    rw [jalvBackendOpen_jack backend unset]
    split
    · exact ⟨_, _, by simp; rfl⟩
    · exact ⟨_, _, by simp; rfl⟩
  | portAudio =>
    rw [jalvBackendOpen_portAudio backend]
    unfold initialized
    split <;> split <;> exact ⟨_, _, by simp; rfl⟩

theorem Sound.jalvBackendOpen (sound : life.Sound) (unset : life.setUp .client = false) :
    (life.jalvBackendOpen env).2.Sound := by
  cases backend : env.backend with
  | jack =>
    rw [jalvBackendOpen_jack backend unset]
    split
    · exact Sound.use sound rfl
    · exact sound
  | portAudio =>
    rw [jalvBackendOpen_portAudio backend]
    unfold initialized
    split <;> split
    · exact sound
    · exact sound
    · exact Sound.use sound rfl
    · exact Sound.use sound rfl

def SameState (life next : Life) : Prop := ∃ ledger uses, next = { life with ledger, uses }

theorem SameState.trans {life next last : Life} (first : life.SameState next) (second : next.SameState last) :
    life.SameState last := by
  obtain ⟨_, _, rfl⟩ := first
  obtain ⟨_, _, rfl⟩ := second
  exact ⟨_, _, rfl⟩

theorem foldl_sameState {body : Life → Nat → Life} (same : ∀ (life : Life) index, life.SameState (body life index))
    (list : List Nat) : life.SameState (list.foldl body life) := by
  induction list generalizing life with
  | nil => exact ⟨_, _, rfl⟩
  | cons head rest ih => exact (same life head).trans ih

theorem activateEventPort_ledger (index : Nat) (resource : Resource) :
    (life.activateEventPort env index).ledger resource =
      if resource = .evbuf index ∧ env.portType index = .event ∧ life.setUp (.evbuf index) = false then
        (life.ledger resource).renew
      else life.ledger resource := by
  unfold activateEventPort
  cases set : life.setUp (.evbuf index) <;> by_cases event : env.portType index = .event <;> simp [event]

theorem activateEventPort_same (life : Life) (index : Nat) : life.SameState (life.activateEventPort env index) := by
  unfold activateEventPort
  split
  · split <;> exact ⟨_, _, rfl⟩
  · exact ⟨_, _, rfl⟩

theorem portType_of_length_le {index : Nat} (behind : env.ports.length ≤ index) : env.portType index = .unknown := by
  rw [Environment.portType, List.getElem?_eq_none behind]

theorem activateEventPorts_given (fresh : ∀ index, (life.ledger (.evbuf index)).pointer = none) (resource : Resource) :
    (life.ledger resource).Given (∃ index < life.numPorts, resource = .evbuf index ∧ env.portType index = .event)
      (((List.range life.numPorts).foldl (activateEventPort env) life).ledger resource) := by
  by_cases own : ∃ index, resource = .evbuf index
  · obtain ⟨index, rfl⟩ := own
    have loop := @foldl_range_view Account Life (activateEventPort env) (fun life => life.ledger (.evbuf index))
      (fun account => if env.portType index = .event ∧ account.pointer.isSome = false then account.renew else account)
      index (fun life => by simp [activateEventPort_ledger, setUp])
      (fun life other differ => by rw [activateEventPort_ledger, if_neg (by simp [differ.symm])]) life.numPorts life
    rw [loop]
    by_cases sets : index < life.numPorts ∧ env.portType index = .event
    · rw [if_pos sets.1, if_pos ⟨sets.2, by rw [fresh]; rfl⟩, Account.renew_of_none (fresh index)]
      exact .of ⟨index, sets.1, rfl, sets.2⟩
    · have same : (if index < life.numPorts then
            if env.portType index = .event ∧ (life.ledger (.evbuf index)).pointer.isSome = false then
              (life.ledger (.evbuf index)).renew
            else life.ledger (.evbuf index)
          else life.ledger (.evbuf index)) = life.ledger (.evbuf index) := by
        split
        · next inside => exact if_neg fun event => sets ⟨inside, event.1⟩
        · rfl
      rw [same]
      refine .not ?_
      rintro ⟨_, inside, ⟨⟩, event⟩
      exact sets ⟨inside, event⟩
  · rw [@foldl_view Account Life Nat (activateEventPort env) (fun life => life.ledger resource)
      (fun life index => by rw [activateEventPort_ledger, if_neg fun sets => own ⟨index, sets.1⟩])]
    refine .not ?_
    rintro ⟨index, _, same, _⟩
    exact own ⟨index, same⟩

theorem jalvProcessActivate_stage (fresh : ∀ resource : Resource, resource.stage = 10 → life.setUp resource = false)
    (ports : life.numPorts = env.ports.length) (resource : Resource) :
    (life.ledger resource).Given (resource.stage = 10 ∧ start.Sets env resource)
      ((life.jalvProcessActivate env).ledger resource) := by
  have unset (resource : Resource) (stage : resource.stage = 10) : (life.ledger resource).pointer = none := by
    have none := fresh resource stage
    rwa [setUp, Option.isSome_eq_false_iff, Option.isNone_iff_eq_none] at none
  have buffers := @activateEventPorts_given env life fun index => unset _ rfl
  have kept (resource : Resource) (other : ∀ index, resource ≠ .evbuf index) :
      ((List.range life.numPorts).foldl (activateEventPort env) life).ledger resource = life.ledger resource := by
    refine (buffers resource).2 ?_
    rintro ⟨index, _, same, _⟩
    exact other index same
  unfold jalvProcessActivate
  generalize (List.range life.numPorts).foldl (activateEventPort env) life = prepared at buffers kept
  have first : (prepared.ledger .uiToPlugin).pointer = none := by rw [kept .uiToPlugin (by simp), unset _ rfl]
  have second : (prepared.ledger .pluginToUi).pointer = none := by rw [kept .pluginToUi (by simp), unset _ rfl]
  have third : (prepared.ledger .processMsg).pointer = none := by rw [kept .processMsg (by simp), unset _ rfl]
  have rest : (prepared.ledger resource).Given
      (resource = .uiToPlugin ∨ resource = .pluginToUi ∨ resource = .processMsg)
      ((((prepared.acquire .uiToPlugin).acquire .pluginToUi).renew .processMsg).ledger resource) := by
    cases resource <;> simp [Account.Given, Account.renew_of_none third]
  have whole : (life.ledger resource).Given (resource.stage = 10 ∧ start.Sets env resource)
      ((((prepared.acquire .uiToPlugin).acquire .pluginToUi).renew .processMsg).ledger resource) := by
    refine ((buffers resource).trans rest ?_).congr ?_
    · rintro ⟨⟨index, _, rfl, _⟩, differ | differ | differ⟩ <;> cases differ
    · cases resource with
      | evbuf index =>
        have inside (event : env.portType index = .event) : index < life.numPorts := by
          by_contra behind
          rw [portType_of_length_le (by omega)] at event
          cases event
        simp only [Resource.stage, Sets, reduceCtorEq, Resource.evbuf.injEq, or_false, true_and]
        constructor
        · rintro ⟨_, _, rfl, event⟩
          exact event
        · intro event
          exact ⟨index, inside event, rfl, event⟩
      | _ => simp [Resource.stage, Sets]
  simpa [setUp, first, second, third] using whole

theorem jalvProcessActivate_same : life.SameState (life.jalvProcessActivate env) := by
  obtain ⟨ledger, uses, same⟩ := @foldl_sameState life _ (@activateEventPort_same env) (List.range life.numPorts)
  unfold jalvProcessActivate
  rw [same]
  dsimp only
  split <;> split <;> split <;> exact ⟨_, _, rfl⟩

end

end Life

end Jalv
