import Jalv.Host.Leaving

/-! The end of the console program: which calls lack what they need, and what is not released. -/

set_option autoImplicit false

namespace Jalv

open Foundation

/-- What becomes of a resource that is not released exactly once: it is lost, and the
initialization of PortAudio is undone twice. -/
def Environment.Unsettles (env : Environment) : Resource → Prop
  | .uiUri => env.init.2.setUp .uiUri
  | .workLock => env.exit ≠ .early
  | .state => env.exit ≠ .early ∧ env.exit ≠ .opened ∧ env.init.2.loadArg.any env.loadsState
  | .requiredFeatures => env.exit = .noFeature
  | .workerSem => env.launches
  | .audio => env.exit = .noBackend ∧ env.backend = .portAudio ∧ env.initializes
  | .portControl port => 4 ≤ env.exit.level ∧ env.Controls 0 port ∧ ¬env.Keeps (.portControl port)
  | .propertyControl number =>
    6 ≤ env.exit.level ∧ number < env.writable.length + env.readable.length ∧ ¬env.Keeps (.propertyControl number)
  | _ => False

section

variable (env : Environment)

theorem main_ledger (resource : Resource) : env.main.ledger resource =
    if resource = .backend then (env.left.ledger resource).release
    else env.left.Closed env (env.left.ledger resource) resource := by
  rw [main_eq, Life.change_ledger, Ledger.change_apply, Life.jalvFrontendClose_ledger (left_closable env)]
  split
  · next same => rw [same]; rfl
  · rfl

theorem released_settled (resource : Resource) (noUri : resource ≠ .uiUri) (noSem : resource ≠ .workerSem)
    (noThread : resource ≠ .workerThread) (kept : ¬Life.Frees env env.exit resource) :
    (env.left.ledger resource).release.Settled := by
  rw [left_ledger env resource noSem noThread]
  exact (opened_tidy env noUri kept).release.settled

theorem kept_settled_iff (resource : Resource) (staged : 0 < resource.stage) (noName : resource ≠ .name)
    (kept : ¬Life.Frees env env.exit resource) : (env.left.ledger resource).Settled ↔
      ¬(resource.stage ≤ env.exit.level ∧ env.init.2.Sets env resource) := by
  have noUri : resource ≠ .uiUri := ne_of_apply_ne Resource.stage staged.ne'
  rw [left_staged env staged, (opened_tidy env noUri kept).settled_iff,
    ← opened_setUp_iff env resource staged noName kept, Life.setUp, Option.not_isSome_iff_eq_none]

theorem not_frees {exit : Exit} {resource : Resource} (noAudio : resource ≠ .audio)
    (noFeatures : resource ≠ .requiredFeatures) (noState : resource ≠ .state) : ¬Life.Frees env exit resource := by
  unfold Life.Frees
  split <;> first | contradiction | exact id

theorem uiUri_settled_iff : (env.left.ledger .uiUri).Settled ↔ ¬env.init.2.setUp .uiUri := by
  have unpaid : (env.init.2.ledger .uiUri).Unpaid := (init_configured env).accounts .uiUri
  have given := (opened_opened env).kept .uiUri nofun (not_frees env nofun nofun nofun)
  rw [left_ledger env .uiUri nofun nofun, given.2 fun sets => absurd sets.1 (Nat.lt_irrefl 0), unpaid.settled_iff,
    Life.setUp, Option.not_isSome_iff_eq_none]

-- The resources that `jalv_open` releases itself at some exit.
theorem freed_ledger (resource : Resource) (staged : 0 < resource.stage) (noName : resource ≠ .name)
    (freed : Life.Frees env env.exit resource) : ∃ acquired,
      Account.empty.Given (env.init.2.Sets env resource) acquired ∧
      env.left.ledger resource = acquired.release := by
  obtain ⟨acquired, given, released⟩ := (opened_opened env).freed resource freed
  rw [staged_ledger env staged noName] at given
  exact ⟨acquired, given, (left_staged env staged).trans released⟩

theorem freed_settled (resource : Resource) (staged : 0 < resource.stage) (noName : resource ≠ .name)
    (freed : Life.Frees env env.exit resource) : (env.left.ledger resource).Settled := by
  obtain ⟨acquired, given, released⟩ := freed_ledger env resource staged noName freed
  rw [released]
  exact (given.tidy Account.empty_tidy fun _ => rfl).release.settled

theorem state_settled_iff : (env.left.ledger .state).Settled ↔
    ¬(env.exit ≠ .early ∧ env.exit ≠ .opened ∧ env.init.2.loadArg.any env.loadsState) := by
  by_cases success : env.exit = .opened
  · refine iff_of_true (freed_settled env .state (by decide) nofun ?_) fun lost => lost.2.1 success
    rw [success]
    trivial
  · have frees : ¬Life.Frees env env.exit .state := by
      generalize env.exit = exit at success
      cases exit <;> first | exact id | contradiction
    have begun : Resource.state.stage ≤ env.exit.level ↔ env.exit ≠ .early := by
      cases env.exit <;> decide
    rw [kept_settled_iff env .state (by decide) nofun frees, begun]
    simp [success, Life.Sets]

theorem requiredFeatures_settled_iff : (env.left.ledger .requiredFeatures).Settled ↔ ¬env.exit = .noFeature := by
  by_cases freed : Life.Frees env env.exit .requiredFeatures
  · refine iff_of_true (freed_settled env .requiredFeatures (by decide) nofun freed) fun lost => ?_
    rw [lost] at freed
    exact freed
  · rw [kept_settled_iff env .requiredFeatures (by decide) nofun freed, not_iff_not]
    refine (and_iff_left trivial).trans ?_
    generalize env.exit = exit at freed
    cases exit <;> first | decide | exact absurd trivial freed

-- The initialization of PortAudio is undone by `setup_error`, and by `jalv_backend_close`.
theorem audio_settled_iff : (env.left.Closed env (env.left.ledger .audio) .audio).Settled ↔
    ¬(env.exit = .noBackend ∧ env.backend = .portAudio ∧ env.initializes) := by
  have twice : ¬Account.empty.acquire.release.release.Settled := fun settled =>
    absurd (settled 0 Nat.one_pos) (by decide)
  unfold Life.Closed
  by_cases portAudio : env.backend = .portAudio
  · rw [if_pos portAudio]
    by_cases failed : env.exit = .noBackend
    · have freed : Life.Frees env env.exit .audio := by
        rw [failed]
        exact portAudio
      obtain ⟨acquired, given, released⟩ := freed_ledger env .audio (by decide) nofun freed
      rw [released]
      by_cases initializes : env.initializes
      · rw [given.1 ⟨portAudio, initializes⟩]
        exact iff_of_false twice (not_not_intro ⟨failed, portAudio, initializes⟩)
      · rw [given.2 fun sets => initializes sets.2]
        refine iff_of_true (fun number inside => ?_) fun lost => initializes lost.2.2
        exact absurd inside (Nat.not_lt_zero _)
    · have frees : ¬Life.Frees env env.exit .audio := by
        generalize env.exit = exit at failed
        cases exit <;> first | exact id | contradiction
      exact iff_of_true (released_settled env .audio nofun nofun nofun frees) fun lost => failed lost.1
  · rw [if_neg portAudio]
    have frees : ¬Life.Frees env env.exit .audio := by
      cases env.exit <;> first | exact id | exact portAudio
    rw [kept_settled_iff env .audio (by decide) nofun frees]
    exact iff_of_true (fun sets => portAudio sets.2.1) fun lost => portAudio lost.2.1

theorem control_settled_iff (control : Resource) (isControl : control.IsControl) :
    (if control ∈ env.left.controls then (env.left.ledger control).release else env.left.ledger control).Settled ↔
      ¬((control.stage ≤ env.exit.level ∧ env.init.2.Sets env control) ∧ ¬env.Keeps control) := by
  have staged : 0 < control.stage := by cases control <;> first | exact isControl.elim | exact Nat.zero_lt_succ _
  have differ : control ≠ .audio ∧ control ≠ .requiredFeatures ∧ control ≠ .state ∧ control ≠ .name ∧
      control ≠ .uiUri ∧ control ≠ .workerSem ∧ control ≠ .workerThread := by
    cases control <;> first | exact isControl.elim | simp
  obtain ⟨noAudio, noFeatures, noState, noName, noUri, noSem, noThread⟩ := differ
  have frees := @not_frees env env.exit control noAudio noFeatures noState
  have member := (left_closable env).stored.member control
  have set := opened_setUp_iff env control staged noName frees
  rw [← left_setUp env control noSem noThread] at set
  split
  · next stored =>
    exact iff_of_true (released_settled env control noUri noSem noThread frees)
      fun lost => lost.2 (member.mp stored).2.2
  · next lost =>
    rw [kept_settled_iff env control staged noName frees, ← set]
    refine not_congr ⟨fun there => ⟨there, fun keeps => lost (member.mpr ⟨isControl, there, keeps⟩)⟩,
      fun both => both.1⟩

theorem port_settled (resource : Resource) (port : Nat)
    (is : resource = .symbol port ∨ resource = .label port ∨ resource = .evbuf port) :
    (env.left.Closed env (env.left.ledger resource) resource).Settled := by
  have differ : 4 ≤ resource.stage ∧ resource ≠ .name ∧ resource ≠ .uiUri ∧ resource ≠ .workerSem ∧
      resource ≠ .workerThread ∧ ¬Life.Frees env env.exit resource := by
    rcases is with rfl | rfl | rfl <;>
      exact ⟨by simp [Resource.stage], by simp, by simp, by simp, by simp,
        not_frees env (by simp) (by simp) (by simp)⟩
  obtain ⟨staged, noName, noUri, noSem, noThread, frees⟩ := differ
  have freed := released_settled env resource noUri noSem noThread frees
  have unset (behind : ¬port < env.left.numPorts) : (env.left.ledger resource).Settled := by
    refine (kept_settled_iff env resource (by omega) noName frees).mpr ?_
    rintro ⟨done, sets⟩
    refine behind ?_
    rw [(left_fields env).1, if_pos (staged.trans done)]
    rcases is with rfl | rfl | rfl
    · exact sets.1
    · exact sets.1.1
    · by_contra outside
      rw [Life.Sets, Life.portType_of_length_le (Nat.le_of_not_lt outside)] at sets
      cases sets
  by_cases inside : port < env.left.numPorts
  · rcases is with rfl | rfl | rfl <;> simp only [Life.Closed, if_pos inside] <;> exact freed
  · rcases is with rfl | rfl | rfl <;> simp only [Life.Closed, if_neg inside] <;> exact unset inside

theorem backend_settled (resource : Resource) (is : resource = .client ∨ resource = .stream) :
    (env.left.Closed env (env.left.ledger resource) resource).Settled := by
  have frees : ¬Life.Frees env env.exit resource := by
    rcases is with rfl | rfl <;> exact not_frees env (by simp) (by simp) (by simp)
  cases backend : env.backend with
  | jack =>
    rcases is with rfl | rfl
    · rw [Life.Closed, if_pos backend]
      exact released_settled env .client (by simp) (by simp) (by simp) frees
    · rw [Life.Closed, if_neg (by simp [backend])]
      refine (kept_settled_iff env .stream (by decide) (by simp) frees).mpr fun sets => ?_
      rw [Life.Sets, backend] at sets
      cases sets.2.1
  | portAudio =>
    rcases is with rfl | rfl
    · rw [Life.Closed, if_neg (by simp [backend])]
      refine (kept_settled_iff env .client (by decide) (by simp) frees).mpr fun sets => ?_
      rw [Life.Sets, backend] at sets
      cases sets.2.1
    · rw [Life.Closed, if_pos backend]
      exact released_settled env .stream (by simp) (by simp) (by simp) frees

theorem workerThread_settled : (env.left.Closed env (env.left.ledger .workerThread) .workerThread).Settled := by
  obtain ⟨uses, started, same, _⟩ := left_frame env
  have launched : env.left.launched = env.launches := by rw [same]
  have released : Account.empty.acquire.release.Settled := (Account.empty_tidy.acquire rfl).release.settled
  have none : Account.empty.Settled := Account.empty_unpaid.settled_iff.mpr rfl
  rw [Life.Closed, left_workerThread]
  cases launches : env.launches with
  | true =>
    have started : env.left.launched = true := launched.trans launches
    rw [if_pos ⟨(left_closable env).threads started, started⟩]
    exact released
  | false =>
    rw [if_neg (by simp [launched, launches])]
    exact none

theorem main_settled_iff (resource : Resource) : env.main.Settled resource ↔ ¬env.Unsettles resource := by
  rw [Life.Settled, main_ledger]
  cases resource with
  | uiUri => exact uiUri_settled_iff env
  | workLock =>
    have begun : Resource.workLock.stage ≤ env.exit.level ↔ env.exit ≠ .early := by
      cases env.exit <;> decide
    refine (kept_settled_iff env .workLock (by decide) nofun (not_frees env nofun nofun nofun)).trans (not_congr ?_)
    exact (and_iff_left trivial).trans begun
  | state => exact state_settled_iff env
  | requiredFeatures => exact requiredFeatures_settled_iff env
  | workerSem => exact left_workerSem env
  | workerThread => exact iff_of_true (workerThread_settled env) id
  | audio => exact audio_settled_iff env
  | portControl port =>
    exact (control_settled_iff env (.portControl port) trivial).trans (not_congr and_assoc)
  | propertyControl number =>
    exact (control_settled_iff env (.propertyControl number) trivial).trans (not_congr and_assoc)
  | symbol port => exact iff_of_true (port_settled env _ port (.inl rfl)) id
  | label port => exact iff_of_true (port_settled env _ port (.inr (.inl rfl))) id
  | evbuf port => exact iff_of_true (port_settled env _ port (.inr (.inr rfl))) id
  | client => exact iff_of_true (backend_settled env _ (.inl rfl)) id
  | stream => exact iff_of_true (backend_settled env _ (.inr rfl)) id
  | _ => exact iff_of_true (released_settled env _ nofun nofun nofun (not_frees env nofun nofun nofun)) id

end

/-- What a run of the program is to do at its end: functions of lilv are called for an instance
that is there, `jalv_log` is called with a log, and each resource is released exactly once. -/
structure Life.TornDown (life : Life) : Prop where
  connectPort : life.UsesOnlySetUp .connectPort
  deactivate : life.UsesOnlySetUp .deactivate
  free : life.UsesOnlySetUp .free
  log : life.UsesOnlySetUp .log
  released : ∀ resource, life.Settled resource

section

variable (env : Environment)

theorem left_setUp_iff (resource : Resource) (staged : 0 < resource.stage) (noName : resource ≠ .name)
    (frees : ¬Life.Frees env env.exit resource) :
    env.left.setUp resource ↔ resource.stage ≤ env.exit.level ∧ env.init.2.Sets env resource := by
  rw [Life.setUp, left_staged env staged]
  exact opened_setUp_iff env resource staged noName frees

theorem left_disconnected : 0 < env.left.numPorts ∧ env.left.setUp .pluginInstance = false ↔
    env.ports ≠ [] ∧ 4 ≤ env.exit.level ∧ env.exit ≠ .opened := by
  have level : Resource.pluginInstance.stage ≤ env.exit.level ↔ env.exit = .opened := by
    cases env.exit <;> decide
  have set : env.left.setUp .pluginInstance ↔ env.exit = .opened :=
    (left_setUp_iff env .pluginInstance (by decide) nofun (not_frees env nofun nofun nofun)).trans
      ((and_iff_left trivial).trans level)
  rw [(left_fields env).1, ← Bool.not_eq_true, set, ← List.length_pos_iff]
  split
  · next ported => simp [ported]
  · next early => simp [early]

theorem left_logless : (env.left.log = false ∧ env.backend = .portAudio ∧
      (env.terminateFails ∨ env.closeFails ∧ env.left.setUp .stream)) ↔
    env.backend = .portAudio ∧ env.exit.level < 5 ∧ env.terminateFails := by
  have set := left_setUp_iff env .stream (by decide) nofun (not_frees env nofun nofun nofun)
  have level : Resource.stream.stage ≤ env.exit.level ↔ 5 ≤ env.exit.level := Iff.rfl
  rw [← Bool.not_eq_true, (left_fields env).2.1, set, level]
  constructor
  · rintro ⟨closed, portAudio, terminates | ⟨_, opened, _⟩⟩
    · exact ⟨portAudio, by grind, terminates⟩
    · exact absurd ⟨opened, portAudio⟩ closed
  · rintro ⟨portAudio, early, terminates⟩
    exact ⟨fun opened => absurd opened.1 (Nat.not_le_of_lt early), portAudio, .inl terminates⟩

theorem left_semless : env.left.setUp .paused = false ∨ env.left.setUp .done = false ↔ env.exit.level < 3 := by
  have paused : env.left.setUp .paused ↔ 3 ≤ env.exit.level :=
    (left_setUp_iff env .paused (by decide) nofun (not_frees env nofun nofun nofun)).trans (and_iff_left trivial)
  have done : env.left.setUp .done ↔ 1 ≤ env.exit.level :=
    (left_setUp_iff env .done (by decide) nofun (not_frees env nofun nofun nofun)).trans (and_iff_left trivial)
  rw [← Bool.not_eq_true, ← Bool.not_eq_true, paused, done]
  omega

theorem main_misses (call : ResourceUse) : ¬env.main.UsesOnlySetUp call ↔
    call = .connectPort ∧ (env.ports ≠ [] ∧ 4 ≤ env.exit.level ∧ env.exit ≠ .opened) ∨
      call = .log ∧ (env.backend = .portAudio ∧ env.exit.level < 5 ∧ env.terminateFails) ∨
      call = .semDestroy ∧ env.exit.level < 3 := by
  have sound := (left_fields env).2.2
  have none : ¬env.left.Misses call := fun missed => absurd (sound _ missed) nofun
  have closed : ¬env.main.UsesOnlySetUp call ↔ (env.left.jalvFrontendClose env).Misses call := by
    rw [main_eq, Life.UsesOnlySetUp, not_not]
    rfl
  rw [closed, Life.jalvFrontendClose_misses (left_closable env), or_iff_right none, left_disconnected, left_logless,
    left_semless]

/-- The program tears down all that it set up only if its command line ends it, without the
option for a user interface, and with a backend that needs no log. -/
theorem main_tornDown :
    (env.main.TornDown ↔ env.exit = .early ∧ ¬env.init.2.setUp .uiUri ∧
      (env.backend = .jack ∨ ¬env.terminateFails)) ∧
    env.main.UsesOnlySetUp .deactivate ∧ env.main.UsesOnlySetUp .free ∧
    (env.main.UsesOnlySetUp .connectPort ↔ env.ports = [] ∨ env.exit.level < 4 ∨ env.exit = .opened) ∧
    (env.main.UsesOnlySetUp .log ↔ env.backend = .jack ∨ 5 ≤ env.exit.level ∨ ¬env.terminateFails) ∧
    (env.main.UsesOnlySetUp .semDestroy ↔ 3 ≤ env.exit.level) ∧
    ∀ resource, env.main.Settled resource ↔ ¬env.Unsettles resource := by
  have uses (call : ResourceUse) := (not_iff_comm.mp (main_misses env call)).symm
  have deactivate : env.main.UsesOnlySetUp .deactivate := (uses .deactivate).mpr (by simp)
  have free : env.main.UsesOnlySetUp .free := (uses .free).mpr (by simp)
  have connectPort : env.main.UsesOnlySetUp .connectPort ↔
      env.ports = [] ∨ env.exit.level < 4 ∨ env.exit = .opened := (uses .connectPort).trans (by simp; grind)
  have log : env.main.UsesOnlySetUp .log ↔ env.backend = .jack ∨ 5 ≤ env.exit.level ∨ ¬env.terminateFails := by
    refine (uses .log).trans ?_
    cases env.backend <;> simp; grind
  have semDestroy : env.main.UsesOnlySetUp .semDestroy ↔ 3 ≤ env.exit.level := (uses .semDestroy).trans (by simp)
  have settled := main_settled_iff env
  refine ⟨⟨fun torn => ?_, fun ⟨early, noUri, logs⟩ => ?_⟩, deactivate, free, connectPort, log, semDestroy, settled⟩
  · have early : env.exit = .early := not_not.mp ((settled .workLock).mp (torn.released .workLock))
    refine ⟨early, (settled .uiUri).mp (torn.released .uiUri), ?_⟩
    have needed := log.mp torn.log
    rw [early] at needed
    simpa [Exit.level] using needed
  · refine ⟨connectPort.mpr (.inr (.inl ?_)), deactivate, free, log.mpr ?_, fun resource => (settled resource).mpr ?_⟩
    · rw [early]
      decide
    · exact logs.imp_right .inr
    · cases resource <;> simp [Environment.Unsettles, Environment.launches, early, noUri, Exit.level]

end

def oneInput : LilvPort :=
  { node := .uri [], symbol := [105], isInput := true, isOutput := false, isControl := false, isAudio := true
    isCV := false, isAtom := false, connectionOptional := false, minimumSize := none, default := none
    designatedControl := false, reportsLatency := false, designatedLatency := false
    designatedBeatsPerMinute := false, supportsMidi := false, supportsPosition := false }

def unconnected (backend : BackendKind) (args : List Text) : Environment :=
  { backend, useJackMetadata := true, args, strtol := fun _ => 0, loadsState := fun _ => true, findsPlugin := true
    hasUis := false, findsUi := false, workInterface := false, safeRestore := false, ports := [oneInput]
    named := fun _ => true, writable := [], readable := [], featuresSupported := true, instantiates := true
    room := fun _ => true, argumentRoom := fun _ => true, semInit := true, threadCreate := true, connects := false
    initializes := true, hasInputDevice := false, hasOutputDevice := false, opensStream := false
    startFails := false, stopFails := false, closeFails := false, terminateFails := true }

-- The JACK server is not running, and the instance of the plugin is null; then `--help`, for which PortAudio is
-- terminated without having been initialized, and without a log.
theorem main_refuted :
    (.connectPort, false) ∈ (unconnected .jack [[117]]).main.uses ∧
    (.log, false) ∈ (unconnected .portAudio [helpOption]).main.uses ∧
    ¬(unconnected .jack [[117]]).main.TornDown ∧ ¬(unconnected .portAudio [helpOption]).main.TornDown := by
  have connected : (ResourceUse.connectPort, false) ∈ (unconnected .jack [[117]]).main.uses := by decide
  have logged : (ResourceUse.log, false) ∈ (unconnected .portAudio [helpOption]).main.uses := by decide
  exact ⟨connected, logged, fun torn => torn.connectPort connected, fun torn => torn.log logged⟩

end Jalv
