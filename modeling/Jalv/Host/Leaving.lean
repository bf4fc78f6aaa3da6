import Jalv.Host.Closing

/-! The state in which the console program begins to end, whichever way it came there. -/

set_option autoImplicit false

namespace Jalv

open Foundation

def Environment.exit (env : Environment) : Exit :=
  if env.init.1 = 0 then env.init.2.exit env else .early

-- The state before `jalv_activate`, if that is called, and otherwise before `jalv_frontend_close`.
def Environment.opened (env : Environment) : Life :=
  if env.init.1 = 0 then (env.init.2.jalvOpen env).2 else env.init.2

def Environment.left (env : Environment) : Life :=
  if env.exit = .opened then env.opened.jalvActivate env else env.opened

section

variable (env : Environment)

theorem init_configured : Life.Configured (Life.zero.acquire .backend) env.init.2 :=
  Life.jalvFrontendInit_configured Account.empty_tidy Account.empty_tidy Account.empty_unpaid

theorem init_ledger {resource : Resource}
    (options : resource ≠ .name ∧ resource ≠ .controlArguments ∧ resource ≠ .uiUri)
    (allocated : resource ≠ .backend) : env.init.2.ledger resource = .empty := by
  have account := (init_configured env).accounts resource
  have same : env.init.2.ledger resource = (Life.zero.acquire .backend).ledger resource := by
    cases resource <;> first | exact account | simp at options
  rw [same, Life.change_ledger, Ledger.change_apply, if_neg allocated]
  rfl

theorem staged_ledger {resource : Resource} (staged : 0 < resource.stage) (noName : resource ≠ .name) :
    env.init.2.ledger resource = .empty := by
  have noArguments : resource ≠ .controlArguments := ne_of_apply_ne Resource.stage staged.ne'
  have noUri : resource ≠ .uiUri := ne_of_apply_ne Resource.stage staged.ne'
  exact init_ledger env ⟨noName, noArguments, noUri⟩ (ne_of_apply_ne Resource.stage staged.ne')

theorem init_begun : Life.Begun env env.init.2 where
  fresh resource staged noName := by
    rw [Life.setUp, staged_ledger env staged noName]
    rfl
  standing := by
    obtain ⟨ledger, dump, loadArg, same⟩ := (init_configured env).frame
    have array := @init_ledger env .controls ⟨by simp, by simp, by simp⟩ (by simp)
    have unset (resource : Resource) (control : resource.IsControl) : env.init.2.setUp resource = false := by
      have empty := init_ledger env ⟨control.ne id, control.ne id, control.ne id⟩ (control.ne id)
      rw [Life.setUp, empty]
      rfl
    refine ⟨rfl, rfl, ⟨?_, ?_, fun resource => ?_⟩, ?_, ?_, ?_, ?_, ?_⟩
    · rw [array]
      exact Account.empty_tidy
    · rw [same]
      exact .nil
    · have none : env.init.2.controls = [] := by rw [same]; rfl
      rw [none]
      refine iff_of_false List.not_mem_nil fun kept => ?_
      rw [unset resource kept.1] at kept
      exact absurd kept.2.1 (by simp)
    all_goals rw [same]; simp [Life.zero, Life.Sound]

theorem opened_opened : Life.Opened env env.init.2 env.exit env.opened := by
  unfold Environment.exit Environment.opened
  split
  · exact (init_begun env).opened
  · exact (init_begun env).reached.opened (by decide) fun _ => id

theorem status_eq_zero_iff (start : Life) : (start.exit env).status = 0 ↔ start.exit env = .opened := by
  unfold Life.exit
  split_ifs <;> decide

theorem main_eq : env.main = (env.left.jalvFrontendClose env).release .backend := by
  unfold Environment.main Environment.left Environment.exit Environment.opened
  by_cases begins : env.init.1 = 0
  · have opened := Life.jalvOpen_eq (init_begun env)
    simp only [begins, if_true, Life.jalvFrontendRun, opened]
    by_cases success : env.init.2.exit env = .opened
    · simp [success, Exit.status]
    · have failed := mt (status_eq_zero_iff env env.init.2).mp success
      simp [success, failed]
  · simp [begins]

end

namespace Life

section

variable {env : Environment} {life : Life}

theorem jalvWorkerLaunch_ledger (stopped : life.launched = false) (resource : Resource) :
    (life.jalvWorkerLaunch env).ledger resource =
      match resource with
      | .workerSem =>
        if env.semInit then
          if env.threadCreate then (life.ledger resource).acquire else (life.ledger resource).acquire.release
        else life.ledger resource
      | .workerThread =>
        if env.semInit && env.threadCreate then (life.ledger resource).acquire else life.ledger resource
      | _ => life.ledger resource := by
  unfold jalvWorkerLaunch
  cases env.semInit <;> cases env.threadCreate <;> cases resource <;> simp [stopped]

theorem jalvWorkerLaunch_frame (stopped : life.launched = false) : ∃ ledger, life.jalvWorkerLaunch env =
    { life with ledger, launched := env.semInit && env.threadCreate } := by
  obtain ⟨ledger, uses, dump, loadArg, numPorts, controls, log, started, launched⟩ := life
  cases stopped
  unfold jalvWorkerLaunch
  cases env.semInit <;> cases env.threadCreate <;> exact ⟨_, rfl⟩

def launchWorker (env : Environment) (life : Life) : Life :=
  if life.setUp .worker then life.jalvWorkerLaunch env else life

theorem launchWorker_frame (stopped : life.launched = false) : ∃ ledger, life.launchWorker env =
    { life with ledger, launched := life.setUp .worker && env.semInit && env.threadCreate } := by
  unfold launchWorker
  cases life.setUp .worker
  · obtain ⟨ledger, uses, dump, loadArg, numPorts, controls, log, started, launched⟩ := life
    cases stopped
    exact ⟨_, rfl⟩
  · exact jalvWorkerLaunch_frame stopped

theorem launchWorker_ledger (stopped : life.launched = false) (resource : Resource) (noSem : resource ≠ .workerSem)
    (noThread : resource ≠ .workerThread) : (life.launchWorker env).ledger resource = life.ledger resource := by
  unfold launchWorker
  split
  · rw [jalvWorkerLaunch_ledger stopped]
    split <;> first | rfl | contradiction
  · rfl

theorem jalvActivate_frame (there : life.setUp .pluginInstance) (stopped : life.launched = false)
    (logs : env.backend = .portAudio → life.log) (sound : life.Sound) : ∃ uses started,
    life.jalvActivate env = { life.launchWorker env with uses, started } ∧
      (started → life.started ∨ env.backend = .portAudio) ∧ ∀ made ∈ uses, made.2 = true := by
  have kept : (life.launchWorker env).setUp .pluginInstance = true := by
    rw [setUp, launchWorker_ledger stopped .pluginInstance (by simp) (by simp)]
    exact there
  obtain ⟨ledger, same⟩ := @launchWorker_frame env life stopped
  have calls : ((life.launchWorker env).use .activate true).Sound := Sound.use (by rw [same]; exact sound) rfl
  have whole : life.jalvActivate env =
      ((life.launchWorker env).use .activate ((life.launchWorker env).setUp .pluginInstance)).jalvBackendActivate env :=
    rfl
  rw [whole, kept]
  unfold jalvBackendActivate
  cases backend : env.backend with
  | jack => exact ⟨_, _, rfl, fun begun => .inl (by rw [same] at begun; exact begun), calls⟩
  | portAudio =>
    have log : (life.launchWorker env).log = true := by
      rw [same]
      exact logs backend
    dsimp only
    split
    · exact ⟨_, _, rfl, fun _ => .inr rfl, calls⟩
    · split
      · exact ⟨_, _, rfl, fun _ => .inr rfl, calls.use log⟩
      · exact ⟨_, _, rfl, fun _ => .inr rfl, calls⟩

end

end Life

section

variable (env : Environment)

theorem opened_setUp_iff (resource : Resource) (staged : 0 < resource.stage) (noName : resource ≠ .name)
    (kept : ¬Life.Frees env env.exit resource) :
    env.opened.setUp resource ↔ resource.stage ≤ env.exit.level ∧ env.init.2.Sets env resource := by
  have noControls : resource ≠ .controls := ne_of_apply_ne Resource.stage staged.ne'
  have given := (opened_opened env).kept resource noControls kept
  by_cases sets : resource.stage ≤ env.exit.level ∧ env.init.2.Sets env resource
  · rw [Life.setUp, given.1 ⟨staged, sets⟩]
    exact iff_of_true rfl sets
  · rw [Life.setUp, given.2 fun all => sets all.2]
    exact iff_of_false (Bool.eq_false_iff.mp ((init_begun env).fresh resource staged noName)) sets

theorem opened_tidy {resource : Resource} (noUri : resource ≠ .uiUri) (kept : ¬Life.Frees env env.exit resource) :
    (env.opened.ledger resource).Tidy := by
  by_cases array : resource = .controls
  · subst array
    exact (opened_opened env).standing.stored.array
  have given := (opened_opened env).kept resource array kept
  by_cases option : resource = .name ∨ resource = .controlArguments
  · have accounts := (init_configured env).accounts
    rcases option with rfl | rfl
    · refine given.tidy (accounts .name) fun sets => ?_
      have unset : env.init.2.setUp .name = false := Bool.eq_false_iff.mpr sets.2.2
      simpa [Life.setUp] using unset
    · exact given.tidy (accounts .controlArguments) fun sets => absurd sets.1 (Nat.lt_irrefl 0)
  by_cases allocated : resource = .backend
  · subst allocated
    have account : env.init.2.ledger .backend = (Life.zero.acquire .backend).ledger .backend :=
      (init_configured env).accounts .backend
    rw [given.2 fun sets => absurd sets.1 (Nat.lt_irrefl 0), account, Life.change_ledger, Ledger.change_apply]
    exact Account.empty_tidy.acquire rfl
  · have empty := @init_ledger env resource
      ⟨fun same => option (.inl same), fun same => option (.inr same), noUri⟩ allocated
    refine given.tidy ?_ fun _ => ?_
    · rw [empty]
      exact Account.empty_tidy
    · rw [empty]
      rfl

def Environment.launches (env : Environment) : Bool :=
  decide (env.exit = .opened) && (env.workInterface && env.room .worker) && env.semInit && env.threadCreate

theorem opened_worker (success : env.exit = .opened) :
    env.opened.setUp .worker = (env.workInterface && env.room .worker) := by
  refine Bool.eq_iff_iff.mpr ((opened_setUp_iff env .worker (by decide) nofun ?_).trans ?_)
  · rw [success]
    exact id
  · rw [success, Bool.and_eq_true]
    exact and_iff_right (by decide)

theorem left_frame : ∃ uses started, env.left =
      { env.opened with
        uses, started
        ledger := if env.exit = .opened then (env.opened.launchWorker env).ledger else env.opened.ledger
        launched := env.launches } ∧
    (started → env.opened.log) ∧ ∀ made ∈ uses, made.2 = true := by
  have standing := (opened_opened env).standing
  unfold Environment.left
  by_cases success : env.exit = .opened
  · have there : env.opened.setUp .pluginInstance := by
      refine (opened_setUp_iff env .pluginInstance (by decide) nofun ?_).mpr ?_
      · rw [success]
        exact id
      · rw [success]
        exact ⟨by decide, trivial⟩
    have logs (portAudio : env.backend = .portAudio) : env.opened.log := by
      rw [success] at standing
      exact standing.log.mpr ⟨by decide, portAudio⟩
    obtain ⟨uses, started, same, begun, sound⟩ :=
      Life.jalvActivate_frame there standing.launched logs standing.sound
    obtain ⟨ledger, frame⟩ := @Life.launchWorker_frame env env.opened standing.launched
    rw [if_pos success, if_pos success, same, frame]
    refine ⟨uses, started, ?_, fun starts => ?_, sound⟩
    · simp [Environment.launches, success, opened_worker env success]
    · rcases begun starts with already | portAudio
      · rw [standing.started] at already
        cases already
      · exact logs portAudio
  · have idle : env.launches = env.opened.launched := by
      rw [standing.launched]
      simp [Environment.launches, success]
    rw [if_neg success, if_neg success]
    refine ⟨env.opened.uses, env.opened.started, by rw [idle], fun begun => ?_, standing.sound⟩
    rw [standing.started] at begun
    cases begun

theorem left_ledger (resource : Resource) (noSem : resource ≠ .workerSem) (noThread : resource ≠ .workerThread) :
    env.left.ledger resource = env.opened.ledger resource := by
  obtain ⟨uses, started, same, _⟩ := left_frame env
  rw [same]
  dsimp only
  split
  · exact Life.launchWorker_ledger (opened_opened env).standing.launched resource noSem noThread
  · rfl

theorem left_setUp (resource : Resource) (noSem : resource ≠ .workerSem) (noThread : resource ≠ .workerThread) :
    env.left.setUp resource = env.opened.setUp resource := by
  rw [Life.setUp, left_ledger env resource noSem noThread, Life.setUp]

theorem left_staged {resource : Resource} (staged : 0 < resource.stage) :
    env.left.ledger resource = env.opened.ledger resource :=
  left_ledger env resource (ne_of_apply_ne Resource.stage staged.ne') (ne_of_apply_ne Resource.stage staged.ne')

theorem opened_unstaged (resource : Resource) (unstaged : resource = .workerSem ∨ resource = .workerThread) :
    env.opened.ledger resource = .empty := by
  have opened := (opened_opened env).kept
  rcases unstaged with rfl | rfl
  · have frees : ¬Life.Frees env env.exit .workerSem := by cases env.exit <;> exact id
    rw [(opened .workerSem nofun frees).2 fun sets => absurd sets.1 (Nat.lt_irrefl 0)]
    exact init_ledger env ⟨nofun, nofun, nofun⟩ nofun
  · have frees : ¬Life.Frees env env.exit .workerThread := by cases env.exit <;> exact id
    rw [(opened .workerThread nofun frees).2 fun sets => absurd sets.1 (Nat.lt_irrefl 0)]
    exact init_ledger env ⟨nofun, nofun, nofun⟩ nofun

theorem left_workerThread :
    env.left.ledger .workerThread = if env.launches then Account.empty.acquire else Account.empty := by
  have empty := opened_unstaged env .workerThread (.inr rfl)
  have stopped := (opened_opened env).standing.launched
  obtain ⟨uses, started, same, _⟩ := left_frame env
  rw [same]
  unfold Environment.launches
  by_cases success : env.exit = .opened
  · have worker := opened_worker env success
    cases set : env.workInterface && env.room .worker <;>
      simp [success, Life.launchWorker, worker, set, Life.jalvWorkerLaunch_ledger stopped, empty]
  · simp [success, empty]

theorem left_workerSem : ((env.left.ledger .workerSem).Settled ↔ ¬env.launches) := by
  have empty := opened_unstaged env .workerSem (.inl rfl)
  have stopped := (opened_opened env).standing.launched
  obtain ⟨uses, started, same, _⟩ := left_frame env
  rw [same]
  unfold Environment.launches
  have acquired : ¬Account.empty.acquire.Settled :=
    mt Account.empty_unpaid.acquire.settled_iff.mp nofun
  have released : Account.empty.acquire.release.Settled := (Account.empty_tidy.acquire rfl).release.settled
  have none : Account.empty.Settled := Account.empty_unpaid.settled_iff.mpr rfl
  by_cases success : env.exit = .opened
  · have worker := opened_worker env success
    cases set : env.workInterface && env.room .worker <;> cases sem : env.semInit <;>
      cases thread : env.threadCreate <;>
        simp [success, Life.launchWorker, worker, set, sem, thread, Life.jalvWorkerLaunch_ledger stopped, empty,
          acquired, released, none]
  · simp [success, empty, none]

theorem left_closable : env.left.Closable env := by
  have standing := (opened_opened env).standing
  obtain ⟨uses, started, same, logs, _⟩ := left_frame env
  refine ⟨?_, fun launched => ?_, standing.stored.congr (left_ledger env .controls nofun nofun) (by rw [same])
    fun resource control => left_ledger env resource (control.ne id) (control.ne id)⟩
  · rw [same]
    exact logs
  · rw [same] at launched
    simp only [Environment.launches, Bool.and_eq_true, decide_eq_true_eq] at launched
    rw [left_setUp env .worker nofun nofun, opened_worker env launched.1.1.1, Bool.and_eq_true]
    exact launched.1.1.2

theorem left_fields : env.left.numPorts = (if 4 ≤ env.exit.level then env.ports.length else 0) ∧
    (env.left.log ↔ 5 ≤ env.exit.level ∧ env.backend = .portAudio) ∧ env.left.Sound := by
  have standing := (opened_opened env).standing
  obtain ⟨uses, started, same, _, sound⟩ := left_frame env
  rw [same]
  exact ⟨standing.numPorts, standing.log, sound⟩

end

end Jalv
