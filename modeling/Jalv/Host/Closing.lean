import Jalv.Host.Opening

/-! What `jalv_frontend_close` releases, and the calls it makes without what they need. -/

set_option autoImplicit false

namespace Jalv

open Foundation

namespace Life

theorem setUp_change {life : Life} {resource other : Resource} {operation : Account → Account}
    (points : ∀ account, (operation account).pointer = account.pointer) :
    (life.change resource operation).setUp other = life.setUp other := by
  rw [setUp, change_ledger, Ledger.change_apply]
  split
  · rw [points, setUp]
  · rw [setUp]

@[simp] theorem setUp_release {life : Life} {resource other : Resource} :
    (life.release resource).setUp other = life.setUp other :=
  setUp_change fun _ => Account.release_pointer

def Misses (life : Life) (call : ResourceUse) : Prop := (call, false) ∈ life.uses

@[simp] theorem use_misses {life : Life} {call other : ResourceUse} {there : Bool} :
    (life.use other there).Misses call ↔ life.Misses call ∨ call = other ∧ there = false := by
  simp [Misses, eq_comm]

@[simp] theorem change_misses {life : Life} {call : ResourceUse} {resource : Resource} {operation : Account → Account} :
    (life.change resource operation).Misses call ↔ life.Misses call := Iff.rfl

section

variable {env : Environment} {life : Life} {call : ResourceUse}

theorem jalvWorkerExit_ledger (resource : Resource) : life.jalvWorkerExit.ledger resource =
    if life.launched ∧ resource = .workerThread then (life.ledger resource).release else life.ledger resource := by
  unfold jalvWorkerExit
  cases life.launched <;> simp

-- The backend was only started with a log.
def Logs (life : Life) : Prop := life.started → life.log

theorem jalvBackendDeactivate_frame (logs : life.Logs) : ∃ uses started,
    life.jalvBackendDeactivate env = { life with uses, started } ∧ (started → life.started) ∧
      ∀ call, (call, false) ∈ uses ↔ life.Misses call := by
  unfold jalvBackendDeactivate
  split
  · exact ⟨_, _, rfl, id, fun _ => Iff.rfl⟩
  · split
    · exact ⟨_, _, rfl, id, fun _ => Iff.rfl⟩
    · next started =>
      have log : life.log = true := logs (by simpa using started)
      dsimp only
      split
      · exact ⟨_, _, rfl, nofun, fun call => by simp [use_uses, log, Misses]⟩
      · exact ⟨_, _, rfl, nofun, fun _ => Iff.rfl⟩

/-- `jalv_deactivate` makes no call that something is missing for, and ends the thread of the worker. -/
theorem jalvDeactivate_frame (logs : life.Logs) : ∃ uses started,
    life.jalvDeactivate env =
      (if life.setUp .worker then { life with uses, started }.jalvWorkerExit else { life with uses, started }) ∧
      (started → life.started) ∧ ∀ call, (call, false) ∈ uses ↔ life.Misses call := by
  obtain ⟨uses, started, same, fewer, misses⟩ := @jalvBackendDeactivate_frame env life logs
  unfold jalvDeactivate
  rw [same]
  cases there : life.setUp .pluginInstance with
  | false =>
    refine ⟨uses, started, ?_, fewer, misses⟩
    have gone : ({ life with uses, started } : Life).setUp .pluginInstance = false := there
    simp only [gone]
    rfl
  | true =>
    refine ⟨uses ++ [(.deactivate, true)], started, ?_, fewer, fun call => by simp [misses]⟩
    have present : ({ life with uses, started } : Life).setUp .pluginInstance = true := there
    simp only [present]
    rfl

theorem jalvDeactivate_ledger (logs : life.Logs) (resource : Resource) : (life.jalvDeactivate env).ledger resource =
    if (life.setUp .worker ∧ life.launched) ∧ resource = .workerThread then (life.ledger resource).release
    else life.ledger resource := by
  obtain ⟨uses, started, same, _⟩ := @jalvDeactivate_frame env life logs
  rw [same]
  split
  · next worker => simp [jalvWorkerExit_ledger, worker]
  · next none => simp [none]

theorem jalvDeactivate_fields (logs : life.Logs) : (life.jalvDeactivate env).Logs ∧
    (life.jalvDeactivate env).numPorts = life.numPorts ∧ (life.jalvDeactivate env).controls = life.controls ∧
    (life.jalvDeactivate env).log = life.log ∧
    (life.jalvDeactivate env).launched = (life.launched && !life.setUp .worker) ∧
    ∀ call, (life.jalvDeactivate env).Misses call ↔ life.Misses call := by
  obtain ⟨uses, started, same, fewer, misses⟩ := @jalvDeactivate_frame env life logs
  rw [same]
  unfold jalvWorkerExit
  cases life.setUp .worker <;> cases launched : life.launched <;>
    exact ⟨fun begun => logs (fewer begun), rfl, rfl, rfl, by simp, misses⟩

theorem deactivatePort_ledger (index : Nat) (resource : Resource) : (life.deactivatePort index).ledger resource =
    if resource = .evbuf index then (life.ledger resource).release.drop else life.ledger resource := by
  by_cases own : resource = .evbuf index <;> simp [deactivatePort, own]

theorem deactivatePort_same (life : Life) (index : Nat) : life.SameState (life.deactivatePort index) := ⟨_, _, rfl⟩

theorem deactivatePorts_misses (list : List Nat) : (list.foldl deactivatePort life).Misses call ↔
    life.Misses call ∨ call = .connectPort ∧ list ≠ [] ∧ life.setUp .pluginInstance = false := by
  induction list generalizing life with
  | nil => simp
  | cons index rest ih =>
    have kept : (life.deactivatePort index).setUp .pluginInstance = life.setUp .pluginInstance := by
      rw [setUp, deactivatePort_ledger, if_neg (by simp), setUp]
    have first : (life.deactivatePort index).Misses call ↔
        life.Misses call ∨ call = .connectPort ∧ life.setUp .pluginInstance = false := by
      simp [deactivatePort]
    rw [List.foldl_cons, ih, kept, first]
    grind

theorem jalvProcessDeactivate_ledger (resource : Resource) : life.jalvProcessDeactivate.ledger resource =
    if resource = .processMsg ∨ ∃ index < life.numPorts, resource = .evbuf index then
      (life.ledger resource).release.drop
    else life.ledger resource := by
  unfold jalvProcessDeactivate
  by_cases buffer : ∃ index, resource = .evbuf index
  · obtain ⟨index, rfl⟩ := buffer
    have loop := @foldl_range_view Account Life deactivatePort (fun life => life.ledger (.evbuf index))
      (fun account => account.release.drop) index (fun life => by simp [deactivatePort_ledger])
      (fun life other differ => by rw [deactivatePort_ledger, if_neg (by simp [differ.symm])]) life.numPorts
      ((life.release .processMsg).drop .processMsg)
    refine loop.trans ?_
    simp [eq_comm]
  · have loop := @foldl_view Account Life Nat deactivatePort (fun life => life.ledger resource)
      (fun life index => by rw [deactivatePort_ledger, if_neg fun own => buffer ⟨index, own⟩])
      (List.range life.numPorts) ((life.release .processMsg).drop .processMsg)
    refine loop.trans ?_
    have none : ¬∃ index < life.numPorts, resource = .evbuf index := by
      rintro ⟨index, _, own⟩
      exact buffer ⟨index, own⟩
    by_cases message : resource = .processMsg <;> simp [message, none]

theorem jalvProcessDeactivate_same : life.SameState life.jalvProcessDeactivate :=
  SameState.trans ⟨_, _, rfl⟩ (foldl_sameState deactivatePort_same _)

theorem jalvProcessDeactivate_misses : life.jalvProcessDeactivate.Misses call ↔
    life.Misses call ∨ call = .connectPort ∧ 0 < life.numPorts ∧ life.setUp .pluginInstance = false := by
  have kept : ((life.release .processMsg).drop .processMsg).setUp .pluginInstance = life.setUp .pluginInstance := by
    simp [setUp]
  unfold jalvProcessDeactivate
  simp only [deactivatePorts_misses, kept, change_misses]
  simp [Nat.pos_iff_ne_zero]

theorem jalvBackendClose_ledger (resource : Resource) : (life.jalvBackendClose env).ledger resource =
    match env.backend, resource with
    | .jack, .client => (life.ledger .client).release
    | .portAudio, .audio => (life.ledger .audio).release
    | .portAudio, .stream => (life.ledger .stream).release.drop
    | _, _ => life.ledger resource := by
  unfold jalvBackendClose
  cases backend : env.backend with
  | jack =>
    cases client : life.setUp .client with
    | false =>
      have none : (life.ledger .client).pointer = none := by simpa [setUp] using client
      cases resource <;> simp [none]
    | true => cases resource <;> simp
  | portAudio =>
    cases stream : life.setUp .stream with
    | false =>
      have none : (life.ledger .stream).pointer = none := by simpa [setUp] using stream
      cases env.terminateFails <;> cases resource <;> simp [none]
    | true => cases env.terminateFails <;> cases env.closeFails <;> cases resource <;> simp

theorem jalvBackendClose_same : life.SameState (life.jalvBackendClose env) := by
  unfold jalvBackendClose
  split
  · split <;> exact ⟨_, _, rfl⟩
  · dsimp only
    split <;> split <;> (try split) <;> exact ⟨_, _, rfl⟩

theorem jalvBackendClose_misses : (life.jalvBackendClose env).Misses call ↔ life.Misses call ∨
    call = .log ∧ life.log = false ∧ env.backend = .portAudio ∧
      (env.terminateFails ∨ env.closeFails ∧ life.setUp .stream) := by
  unfold jalvBackendClose
  cases backend : env.backend with
  | jack => cases life.setUp .client <;> simp
  | portAudio =>
    cases life.setUp .stream <;> cases env.terminateFails <;> cases env.closeFails <;>
      cases log : life.log <;> simp [log]

theorem releases_ledger {list : List Resource} (once : list.Nodup) (resource : Resource) :
    (list.foldl release life).ledger resource =
      if resource ∈ list then (life.ledger resource).release else life.ledger resource := by
  induction list generalizing life with
  | nil => rfl
  | cons head rest ih =>
    obtain ⟨outside, others⟩ := List.nodup_cons.mp once
    rw [List.foldl_cons, ih others, change_ledger, Ledger.change_apply]
    by_cases here : resource = head
    · subst here
      simp [outside]
    · simp [here]

theorem releases_frame (list : List Resource) : ∃ ledger, list.foldl release life = { life with ledger } := by
  induction list generalizing life with
  | nil => exact ⟨_, rfl⟩
  | cons head rest ih =>
    obtain ⟨ledger, same⟩ := @ih (life.release head)
    exact ⟨ledger, same⟩

theorem cleanupPort_ledger (index : Nat) (resource : Resource) : (life.cleanupPort index).ledger resource =
    if resource = .label index ∨ resource = .symbol index ∨ resource = .evbuf index then
      (life.ledger resource).release
    else life.ledger resource := by
  unfold cleanupPort
  cases there : life.setUp (.evbuf index) with
  | false =>
    have none : (life.ledger (.evbuf index)).pointer = none := by simpa [setUp] using there
    cases resource <;> simp [eq_comm]
    rintro rfl
    exact (Account.release_of_none none).symm
  | true => cases resource <;> simp [eq_comm]

theorem cleanupPorts_ledger (count : Nat) (resource : Resource) :
    ((List.range count).foldl cleanupPort life).ledger resource =
      if ∃ index < count, resource = .label index ∨ resource = .symbol index ∨ resource = .evbuf index then
        (life.ledger resource).release
      else life.ledger resource := by
  by_cases own : ∃ index, resource = .label index ∨ resource = .symbol index ∨ resource = .evbuf index
  · obtain ⟨index, own⟩ := own
    have unique (other : Nat) (same : resource = .label other ∨ resource = .symbol other ∨ resource = .evbuf other) :
        other = index := by
      rcases own with rfl | rfl | rfl <;> simpa [eq_comm] using same
    have loop := @foldl_range_view Account Life cleanupPort (fun life => life.ledger resource) Account.release index
      (fun life => by rw [cleanupPort_ledger, if_pos own])
      (fun life other differ => by rw [cleanupPort_ledger, if_neg fun same => differ (unique other same)]) count life
    refine loop.trans (if_congr ⟨fun inside => ⟨index, inside, own⟩, ?_⟩ rfl rfl)
    rintro ⟨other, inside, same⟩
    rwa [← unique other same]
  · rw [if_neg fun ⟨index, _, same⟩ => own ⟨index, same⟩]
    exact @foldl_view Account Life Nat cleanupPort (fun life => life.ledger resource)
      (fun life index => by rw [cleanupPort_ledger, if_neg fun same => own ⟨index, same⟩]) _ _

theorem cleanupPorts_frame (list : List Nat) : ∃ ledger, list.foldl cleanupPort life = { life with ledger } := by
  induction list generalizing life with
  | nil => exact ⟨_, rfl⟩
  | cons head rest ih =>
    have first : ∃ ledger, life.cleanupPort head = { life with ledger } := by
      unfold cleanupPort
      dsimp only
      split <;> exact ⟨_, rfl⟩
    obtain ⟨_, same⟩ := first
    rw [List.foldl_cons, same]
    exact ih

theorem semDestroy_ledger (sem resource : Resource) : (life.semDestroy sem).ledger resource =
    if resource = sem then (life.ledger resource).release else life.ledger resource := by
  simp [semDestroy]

theorem semDestroy_misses (sem : Resource) : (life.semDestroy sem).Misses call ↔
    life.Misses call ∨ call = .semDestroy ∧ life.setUp sem = false := by
  simp [semDestroy]

-- Without a thread, a worker is only freed.
theorem jalvProcessCleanup_eq (stopped : life.launched = false) : life.jalvProcessCleanup =
    (List.range life.numPorts).foldl cleanupPort
      (((((if life.setUp .worker then (life.semDestroy .paused).release .worker else life.semDestroy .paused).release
        .stateWorker).release .uiToPlugin).release .pluginToUi).release .processMsg) := by
  have worker : (life.semDestroy .paused).setUp .worker = life.setUp .worker := by simp [setUp, semDestroy]
  have idle : (life.semDestroy .paused).jalvWorkerExit = life.semDestroy .paused := by
    rw [jalvWorkerExit, if_neg]
    simp [semDestroy, stopped]
  unfold jalvProcessCleanup
  simp only [worker, idle]
  cases life.setUp .worker <;> rfl

theorem jalvProcessCleanup_ledger (stopped : life.launched = false) (resource : Resource) :
    life.jalvProcessCleanup.ledger resource =
      if (resource = .paused ∨ resource = .worker ∨ resource = .stateWorker ∨ resource = .uiToPlugin ∨
          resource = .pluginToUi ∨ resource = .processMsg) ∨
          ∃ index < life.numPorts, resource = .label index ∨ resource = .symbol index ∨ resource = .evbuf index then
        (life.ledger resource).release
      else life.ledger resource := by
  rw [jalvProcessCleanup_eq stopped, cleanupPorts_ledger]
  cases worker : life.setUp .worker with
  | true => cases resource <;> simp [semDestroy_ledger]
  | false =>
    have none : (life.ledger .worker).pointer = none := by simpa [setUp] using worker
    cases resource <;> simp [semDestroy_ledger, none]

theorem jalvProcessCleanup_same (stopped : life.launched = false) : life.SameState life.jalvProcessCleanup := by
  rw [jalvProcessCleanup_eq stopped]
  obtain ⟨ledger, same⟩ := @cleanupPorts_frame
    (((((if life.setUp .worker then (life.semDestroy .paused).release .worker else life.semDestroy .paused).release
      .stateWorker).release .uiToPlugin).release .pluginToUi).release .processMsg) (List.range life.numPorts)
  rw [same]
  cases life.setUp .worker <;> exact ⟨_, _, rfl⟩

theorem jalvProcessCleanup_misses (stopped : life.launched = false) : life.jalvProcessCleanup.Misses call ↔
    life.Misses call ∨ call = .semDestroy ∧ life.setUp .paused = false := by
  rw [jalvProcessCleanup_eq stopped]
  obtain ⟨ledger, same⟩ := @cleanupPorts_frame
    (((((if life.setUp .worker then (life.semDestroy .paused).release .worker else life.semDestroy .paused).release
      .stateWorker).release .uiToPlugin).release .pluginToUi).release .processMsg) (List.range life.numPorts)
  rw [same]
  cases life.setUp .worker <;> exact semDestroy_misses .paused

def Closed (env : Environment) (life : Life) (account : Account) : Resource → Account
  | .backend | .uiUri | .workLock | .state | .requiredFeatures | .workerSem => account
  | .workerThread => if life.setUp .worker ∧ life.launched then account.release else account
  | .symbol port | .label port => if port < life.numPorts then account.release else account
  | .evbuf port => if port < life.numPorts then account.release.drop else account
  | .processMsg => account.release.drop
  | .portControl port => if .portControl port ∈ life.controls then account.release else account
  | .propertyControl number => if .propertyControl number ∈ life.controls then account.release else account
  | .client => if env.backend = .jack then account.release else account
  | .audio => if env.backend = .portAudio then account.release else account
  | .stream => if env.backend = .portAudio then account.release.drop else account
  | _ => account.release

def freeInstance (life : Life) : Life :=
  if life.setUp .pluginInstance then
    (life.use .free (life.setUp .pluginInstance)).release .pluginInstance
  else life

theorem freeInstance_ledger (resource : Resource) : life.freeInstance.ledger resource =
    if resource = .pluginInstance then (life.ledger resource).release else life.ledger resource := by
  unfold freeInstance
  cases there : life.setUp .pluginInstance with
  | true => simp
  | false =>
    have none : (life.ledger .pluginInstance).pointer = none := by simpa [setUp] using there
    simp only [Bool.false_eq_true, if_false]
    split
    · next same => rw [same, Account.release_of_none none]
    · rfl

theorem freeInstance_misses : life.freeInstance.Misses call ↔ life.Misses call := by
  unfold freeInstance
  cases there : life.setUp .pluginInstance <;> simp

theorem freeInstance_same : life.SameState life.freeInstance := by
  unfold freeInstance
  split <;> exact ⟨_, _, rfl⟩

def unplugged (env : Environment) (life : Life) : Life :=
  (((life.jalvDeactivate env).jalvProcessDeactivate.jalvBackendClose env).freeInstance.release .pluginName).release .ports

theorem unplugged_frame (logs : life.Logs) (stopped : life.launched = false) :
    (life.unplugged env).launched = false ∧ (life.unplugged env).numPorts = life.numPorts ∧
      (life.unplugged env).controls = life.controls := by
  obtain ⟨_, ports, controls, _, launched, _⟩ := @jalvDeactivate_fields env life logs
  obtain ⟨_, _, same⟩ := ((@jalvProcessDeactivate_same (life.jalvDeactivate env)).trans
    (@jalvBackendClose_same env _)).trans freeInstance_same
  unfold unplugged
  rw [same]
  exact ⟨launched.trans (by rw [stopped, Bool.false_and]), ports, controls⟩

theorem unplugged_ledger (logs : life.Logs) (stopped : life.launched = false) (resource : Resource) :
    (life.unplugged env).ledger resource =
      match resource with
      | .evbuf port => if port < life.numPorts then (life.ledger resource).release.drop else life.ledger resource
      | .processMsg => (life.ledger resource).release.drop
      | .client | .audio | .stream | .pluginInstance | .pluginName | .ports =>
        life.Closed env (life.ledger resource) resource
      | _ => life.ledger resource := by
  have deactivated (resource : Resource) : (life.jalvDeactivate env).ledger resource = life.ledger resource := by
    rw [jalvDeactivate_ledger logs, if_neg]
    simp [stopped]
  have ports : (life.jalvDeactivate env).numPorts = life.numPorts := (jalvDeactivate_fields logs).2.1
  unfold unplugged
  cases backend : env.backend <;> cases resource <;>
    simp [freeInstance_ledger, jalvBackendClose_ledger, jalvProcessDeactivate_ledger, deactivated, ports, backend,
      Closed]

def finish (life : Life) : Life :=
  let life := (((life.release .processPorts).release .uiMsg).release .controlsBuf).release .nodes
  let life := (life.controls.foldl release life).release .controls
  let life := (((life.release .dumper).release .uis).release .mapper).release .world
  (((life.semDestroy .done).release .featureList).release .name).release .controlArguments

theorem jalvClose_eq : life.jalvClose env = (life.unplugged env).jalvProcessCleanup.finish := rfl

theorem finish_ledger (once : life.controls.Nodup) (kinds : ∀ control ∈ life.controls, control.IsControl)
    (resource : Resource) : life.finish.ledger resource =
      match resource with
      | .processPorts | .uiMsg | .controlsBuf | .nodes | .controls | .dumper | .uis | .mapper | .world | .done
      | .featureList | .name | .controlArguments => (life.ledger resource).release
      | _ => if resource ∈ life.controls then (life.ledger resource).release else life.ledger resource := by
  have outside (other : ¬resource.IsControl) : resource ∉ life.controls := fun member => other (kinds resource member)
  cases resource with
  | portControl port => simp [finish, semDestroy_ledger, releases_ledger once]
  | propertyControl number => simp [finish, semDestroy_ledger, releases_ledger once]
  | _ => simp [finish, semDestroy_ledger, releases_ledger once, outside id]

theorem jalvClose_ledger (logs : life.Logs) (stopped : life.launched = false) (stored : Stored env life)
    (resource : Resource) : (life.jalvClose env).ledger resource = life.Closed env (life.ledger resource) resource := by
  obtain ⟨idle, ports, controls⟩ := @unplugged_frame env life logs stopped
  obtain ⟨_, _, same⟩ := jalvProcessCleanup_same idle
  have cleaned : (life.unplugged env).jalvProcessCleanup.controls = life.controls := by rw [same, ← controls]
  have kinds (control : Resource) (member : control ∈ life.controls) : control.IsControl :=
    ((stored.member control).mp member).1
  have outside (other : ¬resource.IsControl) : resource ∉ life.controls := fun member => other (kinds resource member)
  rw [jalvClose_eq, finish_ledger (by rw [cleaned]; exact stored.nodup) (by rw [cleaned]; exact kinds), cleaned,
    jalvProcessCleanup_ledger idle, unplugged_ledger logs stopped, ports]
  cases resource with
  | portControl port => simp [Closed]
  | propertyControl number => simp [Closed]
  | evbuf port =>
    have none := outside id
    by_cases inside : port < life.numPorts <;> simp [Closed, none, inside]
  | _ =>
    have none := outside id
    simp [Closed, stopped, none]

theorem unplugged_misses (logs : life.Logs) (stopped : life.launched = false) : (life.unplugged env).Misses call ↔
    (life.Misses call ∨ call = .connectPort ∧ 0 < life.numPorts ∧ life.setUp .pluginInstance = false) ∨
      call = .log ∧ life.log = false ∧ env.backend = .portAudio ∧
        (env.terminateFails ∨ env.closeFails ∧ life.setUp .stream) := by
  have deactivated (resource : Resource) : (life.jalvDeactivate env).setUp resource = life.setUp resource := by
    rw [setUp, jalvDeactivate_ledger logs, if_neg (by simp [stopped]), setUp]
  have stream : (life.jalvDeactivate env).jalvProcessDeactivate.setUp .stream = life.setUp .stream := by
    rw [← deactivated, setUp, jalvProcessDeactivate_ledger, if_neg (by simp), setUp]
  obtain ⟨_, ports, _, log, _, misses⟩ := @jalvDeactivate_fields env life logs
  obtain ⟨_, _, same⟩ := @jalvProcessDeactivate_same (life.jalvDeactivate env)
  have kept : (life.jalvDeactivate env).jalvProcessDeactivate.log = life.log := by rw [same, ← log]
  simp only [unplugged, change_misses, freeInstance_misses, jalvBackendClose_misses, jalvProcessDeactivate_misses,
    misses, deactivated, ports, kept, stream]

theorem releases_setUp (list : List Resource) (resource : Resource) :
    (list.foldl release life).setUp resource = life.setUp resource :=
  @foldl_view Bool Life Resource release (fun life => life.setUp resource) (fun _ _ => setUp_release) list life

theorem finish_misses : life.finish.Misses call ↔ life.Misses call ∨ call = .semDestroy ∧ life.setUp .done = false := by
  obtain ⟨ledger, same⟩ := @releases_frame
    ((((life.release .processPorts).release .uiMsg).release .controlsBuf).release .nodes) life.controls
  have done := @releases_setUp ((((life.release .processPorts).release .uiMsg).release .controlsBuf).release .nodes)
    life.controls .done
  have kept : (life.controls.foldl release
      ((((life.release .processPorts).release .uiMsg).release .controlsBuf).release .nodes)).Misses call ↔
        life.Misses call := by
    rw [same]
    rfl
  simp only [setUp_release] at done
  simp only [finish, change_misses, semDestroy_misses, setUp_release, change_controls, kept, done]

theorem jalvClose_misses (logs : life.Logs) (stopped : life.launched = false) : (life.jalvClose env).Misses call ↔
    life.Misses call ∨ call = .connectPort ∧ 0 < life.numPorts ∧ life.setUp .pluginInstance = false ∨
      call = .log ∧ life.log = false ∧ env.backend = .portAudio ∧
        (env.terminateFails ∨ env.closeFails ∧ life.setUp .stream) ∨
      call = .semDestroy ∧ (life.setUp .paused = false ∨ life.setUp .done = false) := by
  obtain ⟨idle, _, _⟩ := @unplugged_frame env life logs stopped
  have paused : (life.unplugged env).setUp .paused = life.setUp .paused := by
    rw [setUp, unplugged_ledger logs stopped, setUp]
  have done : (life.unplugged env).jalvProcessCleanup.setUp .done = life.setUp .done := by
    rw [setUp, jalvProcessCleanup_ledger idle, if_neg (by simp), unplugged_ledger logs stopped, setUp]
  rw [jalvClose_eq, finish_misses, done, jalvProcessCleanup_misses idle, paused, unplugged_misses logs stopped]
  grind

structure Closable (env : Environment) (life : Life) : Prop where
  logs : life.Logs
  threads : life.launched → life.setUp .worker
  stored : Stored env life

theorem Closable.stop (closable : Closable env life) :
    (life.jalvDeactivate env).launched = false ∧ Stored env (life.jalvDeactivate env) := by
  obtain ⟨_, _, controls, _, launched, _⟩ := @jalvDeactivate_fields env life closable.logs
  refine ⟨?_, closable.stored.congr ?_ controls fun resource control => ?_⟩
  · rw [launched]
    cases begun : life.launched
    · rfl
    · rw [closable.threads begun]
      rfl
  · rw [jalvDeactivate_ledger closable.logs, if_neg (by simp)]
  · rw [jalvDeactivate_ledger closable.logs, if_neg]
    rintro ⟨_, rfl⟩
    exact control

/-- `jalv_frontend_close` releases what a pointer has, but for six of them. -/
theorem jalvFrontendClose_ledger (closable : Closable env life) (resource : Resource) :
    (life.jalvFrontendClose env).ledger resource = life.Closed env (life.ledger resource) resource := by
  obtain ⟨stopped, stored⟩ := closable.stop
  obtain ⟨logs, ports, controls, _⟩ := @jalvDeactivate_fields env life closable.logs
  unfold jalvFrontendClose
  rw [jalvClose_ledger logs stopped stored, jalvDeactivate_ledger closable.logs]
  cases resource <;> simp [Closed, ports, controls, stopped]

theorem jalvFrontendClose_misses (closable : Closable env life) : (life.jalvFrontendClose env).Misses call ↔
    life.Misses call ∨ call = .connectPort ∧ 0 < life.numPorts ∧ life.setUp .pluginInstance = false ∨
      call = .log ∧ life.log = false ∧ env.backend = .portAudio ∧
        (env.terminateFails ∨ env.closeFails ∧ life.setUp .stream) ∨
      call = .semDestroy ∧ (life.setUp .paused = false ∨ life.setUp .done = false) := by
  obtain ⟨stopped, _⟩ := closable.stop
  obtain ⟨logs, ports, _, log, _, misses⟩ := @jalvDeactivate_fields env life closable.logs
  have kept (resource : Resource) (other : resource ≠ .workerThread) :
      (life.jalvDeactivate env).setUp resource = life.setUp resource := by
    rw [setUp, jalvDeactivate_ledger closable.logs, if_neg fun thread => other thread.2, setUp]
  unfold jalvFrontendClose
  rw [jalvClose_misses logs stopped, misses, ports, log, kept .pluginInstance (by simp), kept .stream (by simp),
    kept .paused (by simp), kept .done (by simp)]

end

end Life

end Jalv
