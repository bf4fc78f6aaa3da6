import Jalv.Host.Records
import Jalv.Host.Stages

/-! What holds when `jalv_open` returns, at each of its exits. -/

set_option autoImplicit false

namespace Jalv

open Foundation

namespace Life

section

variable {env : Environment} {start life : Life}

theorem Sound.same {next : Life} (sound : life.Sound) (same : life.SameFields next) : next.Sound := by
  obtain ⟨_, rfl⟩ := same
  exact sound

theorem activateEventPort_instance (index : Nat) :
    (life.activateEventPort env index).setUp .pluginInstance = life.setUp .pluginInstance := by
  rw [setUp, activateEventPort_ledger, if_neg (by simp), setUp]

theorem Sound.activateEventPort (sound : life.Sound) (there : life.setUp .pluginInstance) (index : Nat) :
    (life.activateEventPort env index).Sound := by
  have other : Resource.pluginInstance ≠ .evbuf index := nofun
  unfold Life.activateEventPort
  split
  · split
    · exact Sound.use sound (by rwa [setUp_change_of_ne other])
    · exact Sound.use sound there
  · exact sound

theorem Sound.jalvProcessActivate (sound : life.Sound) (there : life.setUp .pluginInstance) :
    (life.jalvProcessActivate env).Sound := by
  have ports := @List.foldlRecOn Life Nat (fun life => life.Sound ∧ life.setUp .pluginInstance)
    (List.range life.numPorts) (Life.activateEventPort env) life ⟨sound, there⟩ fun life holds index _ =>
      ⟨holds.1.activateEventPort holds.2 index, by rw [activateEventPort_instance]; exact holds.2⟩
  unfold Life.jalvProcessActivate
  generalize (List.range life.numPorts).foldl (Life.activateEventPort env) life = prepared at ports
  dsimp only
  split <;> split <;> split <;> exact ports.1

/-- Fields that follow from the number of stages that are done. -/
structure Standing (env : Environment) (start : Life) (level : Nat) (life : Life) : Prop where
  dump : life.dump = start.dump
  loadArg : life.loadArg = start.loadArg
  stored : Stored env life
  numPorts : life.numPorts = if 4 ≤ level then env.ports.length else 0
  log : life.log ↔ 5 ≤ level ∧ env.backend = .portAudio
  started : life.started = false
  launched : life.launched = false
  sound : life.Sound

theorem Standing.next {level : Nat} {next : Life} (standing : Standing env start level life)
    (same : life.SameState next)
    (sound : next.Sound) (unchanged : ∀ resource : Resource, resource.IsControl ∨ resource = .controls →
      next.ledger resource = life.ledger resource) (noPorts : level + 1 ≠ 4) (noBackend : level + 1 ≠ 5) :
    Standing env start (level + 1) next := by
  obtain ⟨_, _, rfl⟩ := same
  have stored := standing.stored.congr (unchanged .controls (.inr rfl)) rfl
    fun resource control => unchanged resource (.inl control)
  refine ⟨standing.dump, standing.loadArg, stored, ?_, ?_, standing.started, standing.launched, sound⟩
  · rw [standing.numPorts]
    congr 1
    exact propext (by omega)
  · have bound : 5 ≤ level ↔ 5 ≤ level + 1 := by omega
    exact standing.log.trans (and_congr_left' bound)

/-- A stage of `jalv_open` that acquires resources, if it is gone through. -/
def openStage (env : Environment) (life : Life) : Nat → Life
  | 1 => life.loadWorld.openPluginState env
  | 2 => life.describePlugin env
  | 3 => life.prepareProcess env
  | 4 => (life.jalvCreatePorts env).2
  | 5 => (life.jalvBackendOpen env).2
  | 6 => (life.jalvCreateControls env true).jalvCreateControls env false
  | 7 => if env.room .featureList then (life.acquire .uiMsg).acquire .featureList else life.acquire .uiMsg
  | 8 => life.acquire .requiredFeatures
  | 9 => (life.release .requiredFeatures).acquire .pluginInstance
  | 10 => life.jalvProcessActivate env
  | _ => life

structure Begun (env : Environment) (start : Life) : Prop where
  fresh : ∀ resource : Resource, 0 < resource.stage → resource ≠ .name → start.setUp resource = false
  standing : Standing env start 0 start

/-- What the stages up to one have done. The list of required features is freed before the instance is created. -/
structure Reached (env : Environment) (start : Life) (level : Nat) (life : Life) : Prop where
  upto : (start.plan env).Upto
    (fun resource => (4 ≤ level → resource ≠ .controls) ∧ (9 ≤ level → resource ≠ .requiredFeatures))
    level start.ledger life.ledger
  standing : Standing env start level life

theorem Begun.reached (begun : Begun env start) : Reached env start 0 start := ⟨.refl _, begun.standing⟩

theorem Reached.setUp_eq {level : Nat} (reached : Reached env start level life) {resource : Resource}
    (later : level < resource.stage) (noFeatures : resource ≠ .requiredFeatures) :
    life.setUp resource = start.setUp resource := by
  have noControls : resource ≠ .controls := ne_of_apply_ne Resource.stage (Nat.ne_zero_of_lt later)
  rw [setUp, reached.upto.untouched ⟨fun _ => noControls, fun _ => noFeatures⟩ later, setUp]

section

variable {level : Nat}

-- What each stage acquires. The backend undoes its own part if it cannot be opened.
theorem Reached.stage (begun : Begun env start) (reached : Reached env start level life) (bound : level < 10) :
    (start.plan env).Stage
      (fun resource => (level = 3 ∨ level = 5 → resource ≠ .controls) ∧
        (level = 4 → env.backend = .portAudio → resource = .audio → env.backendOpens) ∧
        (level = 8 → resource ≠ .requiredFeatures))
      (level + 1) life.ledger (openStage env life (level + 1)).ledger := by
  intro resource ⟨noControls, opens, noFeatures⟩
  have fresh {resource : Resource} (later : level < resource.stage) (noName : resource ≠ .name)
      (noFeatures : resource ≠ .requiredFeatures) : life.setUp resource = false := by
    rw [reached.setUp_eq later noFeatures, begun.fresh resource (by omega) noName]
  match level, bound with
  | 0, _ => exact load_stage reached.standing.dump reached.standing.loadArg resource
  | 1, _ => exact describePlugin_stage (reached.setUp_eq (by decide) nofun) resource
  | 2, _ => exact prepareProcess_stage resource
  | 3, _ => exact jalvCreatePorts_stage (noControls (.inl rfl))
  | 4, _ =>
    obtain ⟨acquired, given, same⟩ :=
      @jalvBackendOpen_stage env start life (fresh (by decide) nofun nofun) resource
    rw [if_neg fun fails => fails.1 (opens rfl fails.2.1 fails.2.2)] at same
    rw [← same] at given
    exact given
  | 5, _ => exact jalvCreateControls_stage (noControls (.inr rfl))
  | 6, _ =>
    unfold openStage
    cases room : env.room .featureList <;> cases resource <;>
      simp [Account.Given, plan, Resource.stage, Sets, room]
  | 7, _ => cases resource <;> simp [Account.Given, plan, Resource.stage, Sets, openStage]
  | 8, _ =>
    have differ := noFeatures rfl
    cases resource <;> simp [Account.Given, plan, Resource.stage, Sets, openStage] at differ ⊢
  | 9, _ =>
    refine jalvProcessActivate_stage (fun resource stage => fresh ?_ ?_ ?_) ?_ resource
    · omega
    · rintro rfl
      cases stage
    · rintro rfl
      cases stage
    · rw [reached.standing.numPorts, if_pos (by decide)]

theorem SameFields.state {next : Life} (same : life.SameFields next) : life.SameState next := by
  obtain ⟨_, rfl⟩ := same
  exact ⟨_, _, rfl⟩

theorem openStage_same (noPorts : level ≠ 3) (noBackend : level ≠ 4) (noControls : level ≠ 5) (noBuffers : level ≠ 9) :
    life.SameFields (openStage env life (level + 1)) := by
  have refl := SameFields.refl life
  match level with
  | 0 => exact loadWorld_same.trans openPluginState_same
  | 1 => exact describePlugin_same
  | 2 => exact prepareProcess_same
  | 6 => exact ((refl.change _ _).change _ _).ite (refl.change _ _)
  | 7 => exact refl.change _ _
  | 8 => exact (refl.change _ _).change _ _
  | _ + 10 => exact refl

theorem Reached.standing_next (begun : Begun env start) (reached : Reached env start level life) (bound : level < 10) :
    Standing env start (level + 1) (openStage env life (level + 1)) := by
  have stage := reached.stage begun bound
  have standing := reached.standing
  have unchanged (noPorts : level ≠ 3) (noControls : level ≠ 5) (resource : Resource)
      (kind : resource.IsControl ∨ resource = .controls) :
      (openStage env life (level + 1)).ledger resource = life.ledger resource := by
    have noFeatures : resource ≠ .requiredFeatures := by
      rcases kind with control | rfl
      · exact control.ne id
      · simp
    have noAudio : resource ≠ .audio := by
      rcases kind with control | rfl
      · exact control.ne id
      · simp
    refine (stage resource ⟨by omega, fun _ _ same => absurd same noAudio, fun _ => noFeatures⟩).2 fun sets => ?_
    rcases kind with control | rfl
    · cases resource with
      | portControl port => exact noPorts (Nat.succ_injective sets.1).symm
      | propertyControl number => exact noControls (Nat.succ_injective sets.1).symm
      | _ => exact control
    · exact absurd sets.1 (Nat.succ_ne_zero _).symm
  have fresh (resource : Resource) (later : level < resource.stage) (noName : resource ≠ .name)
      (noFeatures : resource ≠ .requiredFeatures) : (life.ledger resource).pointer = none := by
    have unset := begun.fresh resource (by omega) noName
    rwa [← reached.setUp_eq later noFeatures, setUp, Option.isSome_eq_false_iff, Option.isNone_iff_eq_none] at unset
  by_cases plain : level ≠ 3 ∧ level ≠ 4 ∧ level ≠ 5 ∧ level ≠ 9
  · obtain ⟨noPorts, noBackend, noControls, noBuffers⟩ := plain
    have same := @openStage_same env life level noPorts noBackend noControls noBuffers
    exact standing.next same.state (standing.sound.same same) (unchanged noPorts noControls) (by omega) (by omega)
  · obtain rfl | rfl | rfl | rfl : level = 3 ∨ level = 4 ∨ level = 5 ∨ level = 9 := by omega
    · have stored := standing.stored.jalvCreatePorts fun port =>
        fresh (.portControl port) (Nat.lt_succ_self 3) (by simp) (by simp)
      obtain ⟨ledger, controls, same⟩ := @jalvCreatePorts_frame env life
      simp only [openStage]
      rw [same] at stored ⊢
      exact ⟨standing.dump, standing.loadArg, stored, rfl, standing.log.trans (by simp), standing.started,
        standing.launched, standing.sound⟩
    · have unset : life.setUp .client = false := by
        rw [setUp, fresh .client (by decide) (by simp) (by simp)]
        rfl
      have sound := @Sound.jalvBackendOpen env life standing.sound unset
      have kept := unchanged (by simp) (by simp)
      obtain ⟨ledger, uses, same⟩ := @jalvBackendOpen_frame env life unset
      simp only [openStage] at kept ⊢
      rw [same] at kept sound ⊢
      have closed : life.log = false :=
        Bool.eq_false_iff.mpr fun opened => absurd (standing.log.mp opened).1 (by decide)
      have stored := standing.stored.congr (kept _ (.inr rfl)) rfl fun resource control =>
        kept resource (.inl control)
      exact ⟨standing.dump, standing.loadArg, stored, standing.numPorts, by simp [closed], standing.started,
        standing.launched, sound⟩
    · have stored := standing.stored.jalvCreateControls fun record =>
        fresh (.propertyControl record) (Nat.lt_succ_self 5) (by simp) (by simp)
      obtain ⟨ledger, controls, same⟩ := @jalvCreateControls_frame env life
      simp only [openStage]
      rw [same] at stored ⊢
      exact ⟨standing.dump, standing.loadArg, stored, standing.numPorts, standing.log.trans (by simp),
        standing.started, standing.launched, standing.sound⟩
    · have instantiated := (reached.upto .pluginInstance ⟨by simp, by simp⟩).1 ⟨Nat.zero_lt_succ 8, le_rfl, trivial⟩
      have there : life.setUp .pluginInstance := by
        rw [setUp, instantiated]
        rfl
      exact standing.next jalvProcessActivate_same (standing.sound.jalvProcessActivate there)
        (unchanged (by simp) (by simp))
        (by simp) (by simp)

theorem Reached.next (begun : Begun env start) (reached : Reached env start level life) (bound : level < 10)
    (opens : level = 4 → env.backendOpens) : Reached env start (level + 1) (openStage env life (level + 1)) where
  upto := (reached.upto.subset fun _ among => ⟨fun _ => among.1 (by omega), fun _ => among.2 (by omega)⟩).next
    fun resource among =>
      reached.stage begun bound resource
        ⟨fun _ => among.1 (by omega), fun here _ _ => opens here, fun _ => among.2 (by omega)⟩
  standing := reached.standing_next begun bound

end

def openTo (env : Environment) (start : Life) : Nat → Life
  | 0 => start
  | level + 1 => openStage env (openTo env start level) (level + 1)

def openUntil (env : Environment) (start : Life) : Exit → Life
  | .noInstance => (openTo env start 8).release .requiredFeatures
  | .opened =>
    let life := (openTo env start 10).release .state
    (List.range life.numPorts).foldl (jalvBackendActivatePort env) life
  | exit => openTo env start exit.level

theorem Begun.openTo (begun : Begun env start) (level : Nat) (bound : level ≤ 10)
    (opens : 5 ≤ level → env.backendOpens) : Reached env start level (openTo env start level) := by
  induction level with
  | zero => exact begun.reached
  | succ level ih =>
    exact (ih (by omega) fun later => opens (by omega)).next begun (by omega) fun here => opens (by omega)

theorem jalvOpen_checks (env : Environment) (start : Life) : start.jalvOpen env =
    if !(Life.openTo env start 1).setUp .state || !env.findsPlugin then (-2, start.openUntil env .noPlugin)
    else if (Life.openTo env start 2).openUi env then (-5, start.openUntil env .noUi)
    else if ((Life.openTo env start 3).jalvCreatePorts env).1 then (-10, start.openUntil env .unknownPort)
    else if ((Life.openTo env start 4).jalvBackendOpen env).1 then (-6, start.openUntil env .noBackend)
    else if !(Life.openTo env start 7).setUp .featureList then (-7, start.openUntil env .noFeatureList)
    else if !env.featuresSupported then (-8, start.openUntil env .noFeature)
    else if !env.instantiates then (-9, start.openUntil env .noInstance)
    else (0, start.openUntil env .opened) := rfl

section

variable {level : Nat} {resource : Resource}

theorem Reached.setUp_iff (begun : Begun env start) (reached : Reached env start level life)
    (noControls : resource ≠ .controls) (noName : resource ≠ .name) (noFeatures : resource ≠ .requiredFeatures)
    (later : 0 < resource.stage) (done : resource.stage ≤ level) : life.setUp resource ↔ start.Sets env resource := by
  have given := reached.upto resource ⟨fun _ => noControls, fun _ => noFeatures⟩
  by_cases sets : start.Sets env resource
  · rw [setUp, given.1 ⟨later, done, sets⟩]
    exact iff_of_true rfl sets
  · rw [setUp, given.2 fun all => sets all.2.2]
    exact iff_of_false (Bool.eq_false_iff.mp (begun.fresh resource later noName)) sets

theorem jalvCreatePorts_failed :
    (life.jalvCreatePorts env).1 = true ↔ ∃ port ∈ env.ports, ¬env.knows port :=
  createPortsFrom_failed 0 env.ports

theorem jalvOpen_eq (begun : Begun env start) :
    start.jalvOpen env = ((start.exit env).status, start.openUntil env (start.exit env)) := by
  have state : (Life.openTo env start 1).setUp .state = start.loadArg.any env.loadsState :=
    Bool.eq_iff_iff.mpr
      ((begun.openTo 1 (by decide) (absurd · (by decide))).setUp_iff begun (by simp) (by simp)
        (by simp) Nat.one_pos le_rfl)
  have uri : (Life.openTo env start 2).setUp .uiUri = start.setUp .uiUri := by
    have reached := begun.openTo 2 (by decide) (absurd · (by decide))
    rw [setUp, (reached.upto .uiUri ⟨by simp, by simp⟩).2 fun given => absurd given.1 (Nat.lt_irrefl 0), setUp]
  have backend : ((Life.openTo env start 4).jalvBackendOpen env).1 = !env.backendOpens := by
    have reached := begun.openTo 4 (by decide) (absurd · (by decide))
    have client : Resource.client ≠ .requiredFeatures := by simp
    refine jalvBackendOpen_failed ?_
    rw [@Reached.setUp_eq env start _ 4 reached .client (Nat.lt_succ_self 4) client]
    exact begun.fresh .client (Nat.zero_lt_succ 4) (by simp)
  have list (opens : env.backendOpens) : (Life.openTo env start 7).setUp .featureList = env.room .featureList :=
    Bool.eq_iff_iff.mpr
      ((begun.openTo 7 (by decide) fun _ => opens).setUp_iff begun (by simp) (by simp) (by simp)
        (Nat.zero_lt_succ 6) le_rfl)
  rw [jalvOpen_checks, state, openUi, uri, backend]
  unfold Life.exit
  by_cases plugin : start.loadArg.any env.loadsState ∧ env.findsPlugin
  · rw [if_neg (by simp [plugin]), if_neg (not_not_intro plugin)]
    by_cases ui : start.setUp .uiUri ∧ ¬env.findsUi
    · rw [if_pos (by simp [ui]), if_pos ui]
      rfl
    rw [if_neg (by simpa [and_comm] using ui), if_neg ui]
    by_cases unknown : ∃ port ∈ env.ports, ¬env.knows port
    · rw [if_pos (jalvCreatePorts_failed.mpr unknown), if_pos unknown]
      rfl
    rw [if_neg fun failed => unknown (jalvCreatePorts_failed.mp failed), if_neg unknown]
    by_cases opens : env.backendOpens
    · rw [if_neg (by simp [opens]), if_neg (not_not_intro opens), list opens]
      cases env.room .featureList
      · rfl
      cases env.featuresSupported
      · rfl
      cases env.instantiates <;> rfl
    · rw [if_pos (by simpa using opens), if_pos opens]
      rfl
  · rw [if_pos (by grind), if_pos plugin]
    rfl

end

-- What `jalv_open` has released again when it returns.
def Frees (env : Environment) : Exit → Resource → Prop
  | .noBackend, .audio => env.backend = .portAudio
  | .noInstance, .requiredFeatures | .opened, .requiredFeatures | .opened, .state => True
  | _, _ => False

structure Opened (env : Environment) (start : Life) (exit : Exit) (life : Life) : Prop where
  kept : ∀ resource, resource ≠ .controls → ¬Frees env exit resource → (start.ledger resource).Given
    (0 < resource.stage ∧ resource.stage ≤ exit.level ∧ start.Sets env resource) (life.ledger resource)
  freed : ∀ resource, Frees env exit resource → ∃ acquired, (start.ledger resource).Given
    (start.Sets env resource) acquired ∧ life.ledger resource = acquired.release
  standing : Standing env start exit.level life

section

variable {level : Nat}

theorem Standing.change (standing : Standing env start level life) {resource : Resource}
    {operation : Account → Account} (noControl : ¬resource.IsControl) (noArray : resource ≠ .controls) :
    Standing env start level (life.change resource operation) where
  dump := standing.dump
  loadArg := standing.loadArg
  stored := standing.stored.congr (by simp [noArray.symm]) rfl fun other control => by
    rw [change_ledger, Ledger.change_apply, if_neg (control.ne noControl)]
  numPorts := standing.numPorts
  log := standing.log
  started := standing.started
  launched := standing.launched
  sound := standing.sound

theorem jalvBackendActivatePorts (there : life.setUp .pluginInstance) (sound : life.Sound) (list : List Nat) :
    (list.foldl (jalvBackendActivatePort env) life).Sound ∧
      ∃ uses, list.foldl (jalvBackendActivatePort env) life = { life with uses } := by
  induction list generalizing life with
  | nil => exact ⟨sound, _, rfl⟩
  | cons index rest ih =>
    rw [List.foldl_cons]
    unfold jalvBackendActivatePort
    dsimp only
    split
    · obtain ⟨calls, uses, same⟩ := @ih (life.use .connectPort (life.setUp .pluginInstance)) there (sound.use there)
      exact ⟨calls, uses, same⟩
    · exact ih there sound

theorem Reached.opened {exit : Exit} (reached : Reached env start exit.level life) (early : exit.level ≤ 8)
    (frees : ∀ resource, ¬Frees env exit resource) : Opened env start exit life where
  kept resource other _ := reached.upto resource ⟨fun _ => other, fun later => absurd later (by omega)⟩
  freed resource freed := absurd freed (frees resource)
  standing := reached.standing

theorem Begun.noBackend (begun : Begun env start) (fails : ¬env.backendOpens) :
    Opened env start .noBackend (start.openUntil env .noBackend) := by
  have reached := begun.openTo 4 (by decide) (absurd · (by decide))
  refine ⟨fun resource other kept => ?_, fun resource freed => ?_, reached.standing_next begun (by decide)⟩
  · have before := reached.upto resource ⟨fun _ => other, (absurd · (by decide))⟩
    refine Ledger.Plan.given_next before ?_
    refine reached.stage begun (by decide) resource ⟨fun _ => other, fun _ portAudio same => ?_, (absurd · (by decide))⟩
    subst same
    exact absurd portAudio kept
  · cases resource with
    | audio =>
      have client : Resource.client ≠ .requiredFeatures := nofun
      have unset : (Life.openTo env start 4).setUp .client = false := by
        rw [@Reached.setUp_eq env start _ 4 reached .client (Nat.lt_succ_self 4) client]
        exact begun.fresh .client (Nat.zero_lt_succ 4) nofun
      obtain ⟨acquired, given, released⟩ := @jalvBackendOpen_stage env start _ unset .audio
      have untouched : (Life.openTo env start 4).ledger .audio = start.ledger .audio :=
        (reached.upto .audio ⟨nofun, nofun⟩).2 fun set => absurd set.2.1 (by simp [plan, Resource.stage])
      rw [untouched] at given
      rw [if_pos ⟨fails, freed, rfl⟩] at released
      exact ⟨acquired, given.congr (and_iff_right rfl), released⟩
    | _ => cases freed

theorem Begun.noInstance (begun : Begun env start) (opens : env.backendOpens) :
    Opened env start .noInstance (start.openUntil env .noInstance) := by
  have reached := begun.openTo 8 (by decide) fun _ => opens
  refine ⟨fun resource other kept => ?_, fun resource freed => ?_, reached.standing.change id nofun⟩
  · have differ : resource ≠ .requiredFeatures := by
      rintro rfl
      exact kept trivial
    have given := reached.upto resource ⟨fun _ => other, fun _ => differ⟩
    rw [Life.openUntil, change_ledger, Ledger.change_apply, if_neg differ]
    exact given
  · cases resource with
    | requiredFeatures =>
      have given := reached.upto .requiredFeatures ⟨nofun, nofun⟩
      exact ⟨_, given.congr (by simp [plan, Resource.stage]), by simp [Life.openUntil]⟩
    | _ => cases freed

theorem Begun.success (begun : Begun env start) (opens : env.backendOpens) :
    Opened env start .opened (start.openUntil env .opened) := by
  have listed := begun.openTo 8 (by decide) fun _ => opens
  have instantiated := begun.openTo 9 (by decide) fun _ => opens
  have reached := begun.openTo 10 (by decide) fun _ => opens
  have there : ((Life.openTo env start 10).release .state).setUp .pluginInstance := by
    have given := reached.upto .pluginInstance ⟨by simp, by simp⟩
    rw [setUp, change_ledger, Ledger.change_apply, if_neg (by simp),
      given.1 ⟨Nat.zero_lt_succ 8, Nat.le_succ 9, trivial⟩]
    rfl
  have standing : Standing env start 10 ((Life.openTo env start 10).release .state) :=
    reached.standing.change id (by simp)
  obtain ⟨sound, uses, same⟩ := @jalvBackendActivatePorts env _ there standing.sound
    (List.range ((Life.openTo env start 10).release .state).numPorts)
  have final : start.openUntil env .opened = { (Life.openTo env start 10).release .state with uses } := same
  rw [same] at sound
  have ledger (resource : Resource) : (start.openUntil env .opened).ledger resource =
      if resource = .state then ((Life.openTo env start 10).ledger resource).release
      else (Life.openTo env start 10).ledger resource := by
    rw [final]
    exact Ledger.change_apply _ _ _ _
  refine ⟨fun resource other kept => ?_, fun resource freed => ?_, ?_⟩
  · have noState : resource ≠ .state := by
      rintro rfl
      exact kept trivial
    have noFeatures : resource ≠ .requiredFeatures := by
      rintro rfl
      exact kept trivial
    rw [ledger, if_neg noState]
    exact reached.upto resource ⟨fun _ => other, fun _ => noFeatures⟩
  · cases resource with
    | state =>
      have given := reached.upto .state ⟨by simp, by simp⟩
      exact ⟨_, given.congr (by simp [plan, Resource.stage]), (ledger _).trans (if_pos rfl)⟩
    | requiredFeatures =>
      have given := listed.upto .requiredFeatures ⟨by simp, by simp⟩
      have buffers := (instantiated.stage begun (by decide) .requiredFeatures ⟨by simp, by simp, by simp⟩).2 fun sets =>
        absurd sets.1 (by simp [plan, Resource.stage])
      refine ⟨_, given.congr (by simp [plan, Resource.stage]), ?_⟩
      rw [ledger, if_neg (by simp)]
      exact buffers.trans (by simp [Life.openTo, openStage])
    | _ => cases freed
  · rw [final]
    exact ⟨standing.dump, standing.loadArg, standing.stored.congr rfl rfl fun _ _ => rfl, standing.numPorts,
      standing.log, standing.started, standing.launched, sound⟩

theorem Begun.opened (begun : Begun env start) : Opened env start (start.exit env) (start.jalvOpen env).2 := by
  rw [jalvOpen_eq begun]
  have opens (later : 5 < (start.exit env).level) : env.backendOpens := by
    unfold Life.exit at later
    by_contra fails
    split_ifs at later <;> simp_all [Exit.level]
  have fails (same : start.exit env = .noBackend) : ¬env.backendOpens := by
    unfold Life.exit at same
    split_ifs at same
    assumption
  generalize start.exit env = exit at opens fails
  cases exit with
  | noInstance => exact begun.noInstance (opens (by decide))
  | opened => exact begun.success (opens (by decide))
  | noBackend => exact begun.noBackend (fails rfl)
  | early => exact begun.reached.opened (by decide) fun _ => id
  | noPlugin => exact (begun.openTo 1 (by decide) (absurd · (by decide))).opened (by decide) fun _ => id
  | noUi => exact (begun.openTo 2 (by decide) (absurd · (by decide))).opened (by decide) fun _ => id
  | unknownPort => exact (begun.openTo 4 (by decide) (absurd · (by decide))).opened (by decide) fun _ => id
  | noFeatureList => exact (begun.openTo 7 (by decide) fun _ => opens (by decide)).opened (by decide) fun _ => id
  | noFeature => exact (begun.openTo 8 (by decide) fun _ => opens (by decide)).opened (by decide) fun _ => id

end

end

end Life

end Jalv
