import Jalv.Worker.Queues

/-! Launching and stopping a worker, and what becomes of its requests. -/

set_option autoImplicit false

namespace Jalv

open Foundation

def WorkerThread.held (thread : WorkerThread) : Nat := thread.unchecked + thread.checked

def WorkerRun.Stored (run : WorkerRun) : Prop := ∀ call ∈ run.returned, call.status = .success → call.stored = true

/-- While a worker is launched and no call is in progress, there is a token for each request that
is unread, and a call that succeeds has put its request into the ring. -/
structure WorkerRun.Served (run : WorkerRun) : Prop where
  tokens : run.worker.state = .launched → run.control = .idle → run.scheduler = .idle →
    ∃ unread, HoldsPackets run.worker.requests run.thread.header unread ∧
      run.taken.map TakenRequest.content ++ unread.map packetContent = run.scheduled.map packetContent ∧
      run.worker.sem + run.thread.held = unread.length
  stored : run.Stored

section

variable {run : WorkerRun}

theorem WorkerRun.RequestsHeld.tokens (held : run.RequestsHeld True) (launched : run.worker.state = .launched)
    (idle : run.scheduler = .idle) :
    ∃ unread, HoldsPackets run.worker.requests run.thread.header unread ∧
      run.taken.map TakenRequest.content ++ unread.map packetContent = run.scheduled.map packetContent ∧
      run.worker.sem + run.thread.held = unread.length := by
  obtain ⟨unread, requests, history, tokens⟩ := held
  have counted := (tokens.counted (tokens.launched launched) (by rw [launched]; decide)).2 trivial
  rw [idle] at counted
  refine ⟨unread, requests, history, ?_⟩
  rw [WorkerThread.held, ← Nat.add_assoc]
  exact counted

-- Only a call that finds the worker neither stopped nor launched succeeds without a request.
theorem WorkerRun.Stored.scheduleStep (stored : run.Stored)
    (met : ∀ request, run.scheduler = .entered request → run.worker.state = .launched) : run.scheduleStep.Stored := by
  cases place : run.scheduler with
  | idle =>
    rw [WorkerRun.scheduleStep, place]
    exact stored
  | entered request =>
    simp only [WorkerRun.scheduleStep, place, met request place, if_true]
    exact stored
  | writing request =>
    simp only [WorkerRun.scheduleStep, place]
    rcases jalvWorkerWritePacket_cases run.worker.requests request with full | ⟨next, written, kept⟩
    · rw [full]
      exact forall_mem_concat stored (by simp)
    · rw [kept]
      exact stored
  | posting request =>
    simp only [WorkerRun.scheduleStep, place]
    exact forall_mem_concat stored fun _ => rfl

theorem WorkerStep.stored {next : WorkerRun} (step : WorkerStep True run next) (stored : run.Stored) : next.Stored := by
  cases step with
  | enqueue met => exact stored.scheduleStep (met trivial)
  | schedule request _ =>
    unfold WorkerRun.schedule
    split
    · exact forall_mem_concat stored (by simp)
    · exact stored
  | thread allocated =>
    obtain ⟨_, _, _, _, _, same⟩ := run.threadStep_frame allocated
    rw [same]
    exact stored
  | emitted =>
    obtain ⟨_, _, _, same⟩ := run.emitStep_frame
    rw [same]
    exact stored
  | launch | create | fail | launched | exit | request | join | wait | respond | emit => exact stored

end

/-- In a run in which the worker is launched only while its ring of requests is empty, and a call
that does not find the worker stopped then finds it launched, no request is stranded. -/
theorem worker_served (run : WorkerRun) (reachable : (workerSystem True).Reachable run) : run.Served := by
  have queued := WorkerRun.queued_reachable reachable
  refine ⟨fun launched _ idle => queued.requests.tokens launched idle, ?_⟩
  refine TransitionSystem.invariant (fun start initial => ?_) (fun _ _ stored step => ?_) reachable
  · obtain ⟨_, _, _, _, rfl⟩ := initial
    exact nofun
  · exact WorkerStep.stored step stored

theorem worker_served_test : ∃ run : WorkerRun, run.worker.state = .launched ∧ run.scheduled = [workerTestRequest] ∧
    run.Served := by
  obtain ⟨run, reachable, launched, _, _, _, _, scheduled, _⟩ := workerTest_scheduled True
  exact ⟨run, launched, scheduled, worker_served run reachable⟩

theorem WorkerRun.relaunch {run : WorkerRun} (reachable : (workerSystem False).Reachable run)
    (launched : run.worker.state = .launched) (idle : run.control = .idle) (waiting : run.thread = .waiting) :
    (workerSystem False).Reachable { run with worker := { run.worker with sem := 0 } } := by
  obtain ⟨⟨requests, responses, sem, state⟩, thread, scheduler, emitter, control, scheduled, taken, worked, responded,
    emitted, returned⟩ := run
  dsimp only at launched idle waiting
  subst launched idle waiting
  have one := reachable.step (.exit rfl rfl)
  have two := one.step (.request rfl)
  have three := two.step (.wait rfl rfl)
  have four := three.step (.thread true)
  have five := four.step (.thread true)
  have six := five.step (.join rfl rfl)
  have seven := six.step (.launch rfl rfl nofun)
  have eight := seven.step (.create rfl)
  exact eight.step (.launched rfl)

/-- A worker that is stopped with a request in its ring and launched again has no token for it. -/
theorem worker_served_refuted : ∃ run, (workerSystem False).Reachable run ∧ ¬ run.Served := by
  obtain ⟨run, reachable, launched, idle, quiet, _, waiting, scheduled, taken⟩ := workerTest_scheduled False
  refine ⟨_, run.relaunch reachable launched idle waiting, fun served => ?_⟩
  obtain ⟨unread, _, history, tokens⟩ := served.tokens launched idle quiet
  have count := congrArg List.length history
  simp only [scheduled, taken, List.length_append, List.length_map, List.length_nil, List.length_cons] at count
  rw [waiting] at tokens
  have none : 0 = unread.length := tokens
  omega

end Jalv
