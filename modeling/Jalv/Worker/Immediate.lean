import Jalv.Worker.Queues

/-! A worker without a thread beside the worker with one (`worker.c`, `jalv.c`).

A plugin whose state can be restored while it runs has a second worker for this. What is
scheduled there is worked on at once, in the thread that schedules it. Each of the workers has its
own rings, and the two share the lock around the work method.
-/

set_option autoImplicit false

namespace Jalv

open Foundation

/-- Where a thread is in `jalv_worker_schedule` of a worker without a thread: before the
lock, in the work method of the plugin, and before the lock is given back. -/
inductive ImmediateCaller where
  | idle
  | locking (request : Packet)
  | working (request : Packet)
  | unlocking (request : Packet) (status : LV2WorkerStatus)

/-- The two workers and `work_lock`. Of the record of the state worker only the responses are used.
What its callers have done is beside it: the requests that the work method was called with, and the
calls that have returned. -/
structure WorkersRun where
  workLock : Nat
  worker : WorkerRun
  stateWorker : WorkerRun
  caller : ImmediateCaller
  worked : List Packet
  returned : List (Packet × LV2WorkerStatus)

def WorkersRun.start (requests responses stateRequests stateResponses : Nat) : WorkersRun :=
  ⟨1, .start (jalvWorkerNew requests responses), .start (jalvWorkerNew stateRequests stateResponses), .idle, [], []⟩

def WorkersRun.schedule (run : WorkersRun) (request : Packet) : WorkersRun :=
  if request.size = 0 then { run with returned := run.returned ++ [(request, .errUnknown)] }
  else { run with caller := .locking request }

def WorkerThread.Working (thread : WorkerThread) : Prop := thread = .working

/-- The steps of all threads. Those of the worker with a thread are as before, except that
its thread waits for the lock before the work method and gives it back behind it. -/
inductive WorkersStep : WorkersRun → WorkersRun → Prop where
  | worker {run : WorkersRun} {next : WorkerRun} (step : WorkerStep False run.worker next)
      (outside : next.thread.Working ↔ run.worker.thread.Working) : WorkersStep run { run with worker := next }
  | enter {run : WorkersRun} {size : UInt32} {data : List Byte} {workLock : Nat}
      (loaded : run.worker.thread = .loaded size data) (free : run.workLock = workLock + 1) :
      WorkersStep run { run with worker := run.worker.threadStep true, workLock }
  | leave {run : WorkersRun} (working : run.worker.thread = .working) :
      WorkersStep run { run with worker := run.worker.threadStep true, workLock := run.workLock + 1 }
  | schedule {run : WorkersRun} (request : Packet) (idle : run.caller = .idle) : WorkersStep run (run.schedule request)
  | lock {run : WorkersRun} {request : Packet} {workLock : Nat} (locking : run.caller = .locking request)
      (free : run.workLock = workLock + 1) :
      WorkersStep run { run with workLock, caller := .working request, worked := run.worked ++ [request] }
  | respond {run : WorkersRun} {request : Packet} (response : Packet) (working : run.caller = .working request) :
      WorkersStep run { run with stateWorker := run.stateWorker.respond response }
  | finish {run : WorkersRun} {request : Packet} (status : LV2WorkerStatus) (working : run.caller = .working request) :
      WorkersStep run { run with caller := .unlocking request status }
  | unlock {run : WorkersRun} {request : Packet} {status : LV2WorkerStatus}
      (unlocking : run.caller = .unlocking request status) :
      WorkersStep run
        { run with workLock := run.workLock + 1, caller := .idle, returned := run.returned ++ [(request, status)] }
  | emit {run : WorkersRun} (idle : run.stateWorker.emitter = .idle) :
      WorkersStep run { run with stateWorker := { run.stateWorker with emitter := .scanning } }
  | emitted {run : WorkersRun} : WorkersStep run { run with stateWorker := run.stateWorker.emitStep }

def workersSystem : TransitionSystem WorkersRun where
  initial run := ∃ requests responses stateRequests stateResponses, requests < maxPacketSize ∧
    responses < maxPacketSize ∧ stateResponses < maxPacketSize ∧
    run = .start requests responses stateRequests stateResponses
  step := WorkersStep

def ImmediateCaller.Inside : ImmediateCaller → Prop
  | .idle | .locking _ => False
  | .working _ | .unlocking _ _ => True

def ImmediateCaller.request? : ImmediateCaller → List Packet
  | .idle | .locking _ => []
  | .working request | .unlocking request _ => [request]

/-- The lock is free, or one of the threads is between taking it and giving it back. -/
def WorkersRun.Exclusive (run : WorkersRun) : Prop :=
  run.workLock = 1 ∧ ¬ run.worker.thread.Working ∧ ¬ run.caller.Inside ∨
    run.workLock = 0 ∧ (run.worker.thread.Working ↔ ¬ run.caller.Inside)

def WorkerRun.Drained (worker : WorkerRun) : Prop :=
  worker.emitter = .scanning → worker.emitStep.emitter = .idle →
    worker.emitted = worker.responded.map packetContent

structure WorkersRun.Served (run : WorkersRun) : Prop where
  exclusive : run.Exclusive
  -- What is scheduled at the state worker is worked on before the call returns, unless it is empty.
  immediate : run.worked = (run.returned.filter fun call => call.1.size ≠ 0).map (·.1) ++ run.caller.request?
  empty : ∀ call ∈ run.returned, call.1.size = 0 → call.2 = .errUnknown
  worker : run.worker.emitted <+: run.worker.responded.map packetContent
  stateWorker : run.stateWorker.emitted <+: run.stateWorker.responded.map packetContent
  fits : run.worker.emitter ≠ .overrun ∧ run.stateWorker.emitter ≠ .overrun
  drained : run.worker.Drained ∧ run.stateWorker.Drained

section

variable {run next : WorkersRun}

theorem WorkersStep.exclusive (step : WorkersStep run next) (exclusive : run.Exclusive) : next.Exclusive := by
  cases step with
  | worker step outside =>
    rw [WorkersRun.Exclusive] at exclusive ⊢
    simpa only [outside] using exclusive
  | enter loaded free =>
    rcases exclusive with ⟨one, _, outside⟩ | ⟨taken, _⟩
    · refine .inr ⟨Nat.succ.inj (free.symm.trans one), iff_of_true ?_ outside⟩
      simp only [WorkerRun.threadStep, loaded]
      rfl
    · omega
  | leave working =>
    have idle : ¬ (run.worker.threadStep true).thread.Working := by
      simp only [WorkerRun.threadStep, working]
      exact fun busy => WorkerThread.noConfusion busy
    rcases exclusive with ⟨_, nobody, _⟩ | ⟨taken, owner⟩
    · exact absurd working nobody
    · exact .inl ⟨by simp [taken], idle, owner.mp working⟩
  | schedule request idle =>
    unfold WorkersRun.schedule
    split
    · exact exclusive
    · simpa only [WorkersRun.Exclusive, idle, ImmediateCaller.Inside] using exclusive
  | lock locking free =>
    rcases exclusive with ⟨one, nobody, _⟩ | ⟨taken, _⟩
    · exact .inr ⟨Nat.succ.inj (free.symm.trans one), iff_of_false nobody (not_not_intro trivial)⟩
    · omega
  | respond response working => exact exclusive
  | finish status working => simpa only [WorkersRun.Exclusive, working, ImmediateCaller.Inside] using exclusive
  | unlock unlocking =>
    rw [WorkersRun.Exclusive, unlocking] at exclusive
    rcases exclusive with ⟨_, _, outside⟩ | ⟨taken, owner⟩
    · exact absurd trivial outside
    · exact .inl ⟨by simp [taken], fun working => owner.mp working trivial, id⟩
  | emit idle => exact exclusive
  | emitted => exact exclusive

theorem WorkersStep.worker_run (step : WorkersStep run next) (reachable : (workerSystem False).Reachable run.worker) :
    (workerSystem False).Reachable next.worker := by
  cases step with
  | worker step outside => exact reachable.step step
  | enter loaded free => exact reachable.step (.thread true)
  | leave working => exact reachable.step (.thread true)
  | schedule request idle =>
    unfold WorkersRun.schedule
    split <;> exact reachable
  | lock | respond | finish | unlock | emit | emitted => exact reachable

theorem WorkersStep.responses (step : WorkersStep run next) (held : run.stateWorker.ResponsesHeld) :
    next.stateWorker.ResponsesHeld := by
  cases step with
  | schedule request idle =>
    unfold WorkersRun.schedule
    split <;> exact held
  | respond response working => exact held.respond response
  | emit idle =>
    obtain ⟨⟨unsent, responses, history⟩, capacity, inside, fits⟩ := held
    rw [idle] at responses
    exact ⟨⟨unsent, responses, history⟩, capacity, nofun, fits⟩
  | emitted => exact held.emitStep
  | worker | enter | leave | lock | finish | unlock => exact held

/-- The calls that were worked on, with the one that is being worked on. -/
def WorkersRun.Immediate (run : WorkersRun) : Prop :=
  run.worked = (run.returned.filter fun call => call.1.size ≠ 0).map (·.1) ++ run.caller.request? ∧
    (∀ request, run.caller = .locking request → request.size ≠ 0) ∧ ∀ request ∈ run.caller.request?, request.size ≠ 0

def WorkersRun.EmptyRefused (run : WorkersRun) : Prop :=
  ∀ call ∈ run.returned, call.1.size = 0 → call.2 = .errUnknown

theorem WorkersStep.immediate (step : WorkersStep run next) (immediate : run.Immediate) : next.Immediate := by
  cases step with
  | schedule request idle =>
    obtain ⟨worked, waiting, inside⟩ := immediate
    unfold WorkersRun.schedule
    split
    · next empty =>
      refine ⟨?_, waiting, inside⟩
      rw [worked]
      simp [empty]
    · next nonempty =>
      rw [idle] at worked
      refine ⟨worked, ?_, nofun⟩
      rintro other same
      cases same
      exact nonempty
  | lock locking free =>
    obtain ⟨worked, waiting, _⟩ := immediate
    rw [locking, ImmediateCaller.request?, List.append_nil] at worked
    refine ⟨by rw [worked]; rfl, nofun, ?_⟩
    intro request member
    rw [List.mem_singleton.mp member]
    exact waiting _ locking
  | finish status working =>
    obtain ⟨worked, _, inside⟩ := immediate
    rw [working] at worked inside
    exact ⟨worked, nofun, inside⟩
  | @unlock request status unlocking =>
    obtain ⟨worked, _, inside⟩ := immediate
    rw [unlocking] at worked inside
    have nonempty : request.size ≠ 0 := inside request (List.mem_singleton.mpr rfl)
    refine ⟨?_, nofun, nofun⟩
    rw [worked]
    simp [nonempty, ImmediateCaller.request?]
  | worker | enter | leave | respond | emit | emitted => exact immediate

theorem WorkersStep.emptyRefused (step : WorkersStep run next) (immediate : run.Immediate)
    (refused : run.EmptyRefused) : next.EmptyRefused := by
  cases step with
  | schedule request idle =>
    unfold WorkersRun.schedule
    split
    · exact forall_mem_concat refused fun _ => rfl
    · exact refused
  | @unlock request status unlocking =>
    have inside := immediate.2.2
    rw [unlocking] at inside
    exact forall_mem_concat refused fun empty => absurd empty (inside request (List.mem_singleton.mpr rfl))
  | worker | enter | leave | lock | respond | finish | emit | emitted => exact refused

theorem WorkerRun.ResponsesHeld.drained {worker : WorkerRun} (held : worker.ResponsesHeld) : worker.Drained := by
  intro scanning ends
  obtain ⟨⟨unsent, responses, history⟩, _, _, _⟩ := held
  rw [scanning] at responses
  cases unsent with
  | nil => simpa using history
  | cons first rest =>
    obtain ⟨_, read, _, _⟩ := responses.readSize
    simp [WorkerRun.emitStep, scanning, read] at ends

/-- However the steps of the threads come, the work of the two workers is never done at
the same time, and the responses of each arrive in order. -/
theorem workers_served (reachable : workersSystem.Reachable run) : run.Served := by
  let holds (run : WorkersRun) : Prop := run.Exclusive ∧ run.Immediate ∧ run.EmptyRefused ∧
    run.stateWorker.ResponsesHeld ∧ (workerSystem False).Reachable run.worker
  have kept : holds run := by
    refine TransitionSystem.invariant ?_ ?_ reachable
    · rintro _ ⟨requests, responses, stateRequests, stateResponses, first, second, small, rfl⟩
      exact ⟨.inl ⟨rfl, nofun, id⟩, ⟨rfl, nofun, nofun⟩, nofun, ⟨⟨[], rfl, rfl⟩, small, nofun, nofun⟩,
        _, ⟨requests, responses, first, second, rfl⟩, .refl⟩
    · rintro run next ⟨exclusive, immediate, refused, held, worker⟩ step
      exact ⟨step.exclusive exclusive, step.immediate immediate, step.emptyRefused immediate refused,
        step.responses held, step.worker_run worker⟩
  obtain ⟨exclusive, immediate, refused, held, worker⟩ := kept
  have queued := WorkerRun.queued_reachable worker
  obtain ⟨unsent, _, history⟩ := held.held
  obtain ⟨unsentWorker, _, historyWorker⟩ := queued.responses.held
  exact ⟨exclusive, immediate.1, refused, ⟨_, historyWorker⟩, ⟨_, history⟩,
    ⟨queued.responses.inside, held.inside⟩, queued.responses.drained, held.drained⟩

end

def workersTestResponse : Packet := ⟨[5, 6, 7], by decide⟩

-- A request that the state worker answers, and a cycle that emits the response.
theorem workers_served_test : ∃ run : WorkersRun, run.returned = [(workerTestRequest, .success)] ∧
    run.stateWorker.emitted = [packetContent workersTestResponse] ∧ run.Served := by
  have start : workersSystem.Reachable (.start 4095 4095 4095 4095) :=
    ⟨_, ⟨4095, 4095, 4095, 4095, by decide, by decide, by decide, rfl⟩, .refl⟩
  have working := (start.step (.schedule workerTestRequest rfl)).step (WorkersStep.lock rfl rfl)
  have finished := (working.step (.respond workersTestResponse rfl)).step (.finish .success rfl)
  have returned := finished.step (.unlock rfl)
  have emitted := ((returned.step (.emit rfl)).step .emitted).step .emitted
  exact ⟨_, rfl, rfl, workers_served emitted⟩

end Jalv
