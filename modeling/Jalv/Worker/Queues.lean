import Jalv.Foundation.Lists
import Jalv.Worker.Tokens

/-! The queues of a worker: requests to its thread, and responses from it. -/

set_option autoImplicit false

namespace Jalv

open Foundation

def packetContent (packet : Packet) : UInt32 × List Byte := (packet.size, packet.data)

def TakenRequest.content (request : TakenRequest) : UInt32 × List Byte := (request.size, request.data)

def WorkerThread.pending : WorkerThread → List (UInt32 × List Byte)
  | .loaded size data => [(size, data)]
  | _ => []

def WorkerEmitter.header : WorkerEmitter → Option UInt32
  | .reading size => some size
  | _ => none

/-- Requests and responses arrive in order and byte for byte, and each response that is read
fits into the response buffer. A request that was taken is passed to the work method once,
or was skipped. -/
structure WorkerRun.InOrder (run : WorkerRun) : Prop where
  requests : run.taken.map TakenRequest.content <+: run.scheduled.map packetContent
  worked : run.worked ++ run.thread.pending = (run.taken.filter (·.kept)).map TakenRequest.content
  responses : run.emitted <+: run.responded.map packetContent
  fits : run.emitter ≠ .overrun ∧ ∀ response ∈ run.emitted, response.1.toNat ≤ maxPacketSize

/-- What the ring of requests holds has yet to be taken, and there are tokens for no more. -/
def WorkerRun.RequestsHeld (careful : Prop) (run : WorkerRun) : Prop :=
  ∃ unread, HoldsPackets run.worker.requests run.thread.header unread ∧
    run.taken.map TakenRequest.content ++ unread.map packetContent = run.scheduled.map packetContent ∧
    WorkerTokens careful run.worker.state run.worker.sem unread.length run.thread run.scheduler run.control

structure WorkerRun.ResponsesHeld (run : WorkerRun) : Prop where
  held : ∃ unsent, HoldsPackets run.worker.responses run.emitter.header unsent ∧
    run.emitted ++ unsent.map packetContent = run.responded.map packetContent
  capacity : run.worker.responses.capacity < maxPacketSize
  inside : run.emitter ≠ .overrun
  fits : ∀ response ∈ run.emitted, response.1.toNat ≤ maxPacketSize

theorem jalvWorkerWritePacket_cases (target : ZixRing) (packet : Packet) :
    jalvWorkerWritePacket target packet = (.errNoSpace, target) ∨
      ∃ next, packet.write target = some next ∧ jalvWorkerWritePacket target packet = (.success, next) := by
  unfold jalvWorkerWritePacket
  cases written : packet.write target with
  | none => exact Or.inl rfl
  | some next => exact Or.inr ⟨next, rfl, rfl⟩

theorem WorkerThread.header_eq_none {thread : WorkerThread} (absent : ¬ thread.Alive) : thread.header = none := by
  cases thread with
  | allocating | loading | skipping => exact absurd trivial absent
  | _ => rfl

theorem WorkerThread.pending_eq_nil {thread : WorkerThread} (absent : ¬ thread.Alive) : thread.pending = [] := by
  cases thread with
  | loaded => exact absurd trivial absent
  | _ => rfl

theorem WorkerRun.emitStep_frame (run : WorkerRun) : ∃ responses emitter emitted,
    run.emitStep = { run with worker := { run.worker with responses }, emitter, emitted } := by
  unfold WorkerRun.emitStep
  split
  · exact ⟨_, _, _, rfl⟩
  · exact ⟨_, _, _, rfl⟩
  · exact ⟨_, _, _, rfl⟩
  · dsimp only
    split
    · split <;> exact ⟨_, _, _, rfl⟩
    · exact ⟨_, _, _, rfl⟩

section

variable {careful : Prop} {run : WorkerRun}

theorem WorkerRun.RequestsHeld.threadStep (held : run.RequestsHeld careful) (allocated : Bool) :
    (run.threadStep allocated).RequestsHeld careful := by
  obtain ⟨unread, requests, history, tokens⟩ := held
  cases place : run.thread with
  | absent | waiting | ended =>
    rw [WorkerRun.threadStep, place]
    exact ⟨unread, requests, history, tokens⟩
  | woken =>
    rw [place] at requests tokens
    simp only [WorkerRun.threadStep, place]
    split
    · next exits =>
      rw [exits] at tokens
      refine ⟨unread, requests, history, ?_⟩
      simpa only [exits] using tokens.leave
    · next kept => exact ⟨unread, requests, history, tokens.check kept⟩
  | sizing =>
    rw [place] at requests tokens
    have held : 1 + run.scheduler.unposted ≤ unread.length := tokens.held
    cases unread with
    | nil => simp at held
    | cons first rest =>
      obtain ⟨next, read, _, left⟩ := requests.readSize
      simp only [WorkerRun.threadStep, place, read, length_word, wordValue_word, if_true]
      exact ⟨first :: rest, left, history, tokens.move Iff.rfl rfl rfl⟩
  | allocating size =>
    rw [place] at requests tokens
    simp only [WorkerRun.threadStep, place]
    cases allocated with
    | true => exact ⟨unread, requests, history, tokens.move Iff.rfl rfl rfl⟩
    | false => exact ⟨unread, requests, history, tokens.move Iff.rfl rfl rfl⟩
  | loading size =>
    rw [place] at requests tokens
    obtain ⟨first, rest, next, rfl, rfl, read, _, left⟩ := requests.readData
    simp only [WorkerRun.threadStep, place, read]
    refine ⟨rest, left, ?_, tokens.take rfl trivial rfl rfl trivial⟩
    rw [List.map_append, List.append_assoc, ← history]
    rfl
  | skipping size =>
    rw [place] at requests tokens
    obtain ⟨first, rest, next, rfl, rfl, read, _, left⟩ := requests.readData
    simp only [WorkerRun.threadStep, place, read]
    refine ⟨rest, left, ?_, tokens.take rfl trivial rfl rfl trivial⟩
    rw [List.map_append, List.append_assoc, ← history]
    rfl
  | loaded size data =>
    rw [place] at requests tokens
    simp only [WorkerRun.threadStep, place]
    exact ⟨unread, requests, history, tokens.move Iff.rfl rfl rfl⟩
  | working =>
    rw [place] at requests tokens
    simp only [WorkerRun.threadStep, place]
    exact ⟨unread, requests, history, tokens.move Iff.rfl rfl rfl⟩
  | exiting =>
    rw [place] at requests tokens
    simp only [WorkerRun.threadStep, place]
    exact ⟨unread, requests, history, tokens.finish⟩

theorem WorkerRun.RequestsHeld.scheduleStep (held : run.RequestsHeld careful) :
    run.scheduleStep.RequestsHeld careful := by
  obtain ⟨unread, requests, history, tokens⟩ := held
  cases place : run.scheduler with
  | idle =>
    rw [WorkerRun.scheduleStep, place]
    exact ⟨unread, requests, history, tokens⟩
  | entered request =>
    rw [place] at tokens
    simp only [WorkerRun.scheduleStep, place]
    split
    · exact ⟨unread, requests, history, tokens.schedule rfl⟩
    · exact ⟨unread, requests, history, tokens.schedule rfl⟩
  | writing request =>
    rw [place] at tokens
    simp only [WorkerRun.scheduleStep, place]
    rcases jalvWorkerWritePacket_cases run.worker.requests request with full | ⟨next, written, stored⟩
    · rw [full]
      exact ⟨unread, requests, history, tokens.schedule rfl⟩
    · rw [stored]
      refine ⟨unread ++ [request], (requests.write written).2, ?_, ?_⟩
      · simp only [List.map_append, ← history, List.append_assoc]
      · rw [List.length_append]
        exact tokens.write
  | posting request =>
    rw [place] at tokens
    simp only [WorkerRun.scheduleStep, place]
    exact ⟨unread, requests, history, tokens.post⟩

theorem WorkerStep.requestsHeld {next : WorkerRun} (step : WorkerStep careful run next)
    (held : run.RequestsHeld careful) : next.RequestsHeld careful := by
  cases step with
  | thread allocated => exact held.threadStep allocated
  | enqueue _ => exact held.scheduleStep
  | launch idle stopped fresh =>
    obtain ⟨unread, requests, history, tokens⟩ := held
    rw [idle] at tokens
    rw [WorkerThread.header_eq_none (tokens.stopped rfl stopped)] at requests
    refine ⟨unread, ?_, history, tokens.launch stopped fun met => ?_⟩
    · change HoldsPackets run.worker.requests run.thread.header unread
      rwa [WorkerThread.header_eq_none (tokens.stopped rfl stopped)]
    · rw [requests.eq_nil (fresh met), List.length_nil]
  | create initialized =>
    obtain ⟨unread, requests, history, tokens⟩ := held
    rw [initialized] at tokens
    rw [WorkerThread.header_eq_none (tokens.initialized rfl).1] at requests
    exact ⟨unread, requests, history, tokens.create⟩
  | fail initialized =>
    obtain ⟨unread, requests, history, tokens⟩ := held
    rw [initialized] at tokens
    exact ⟨unread, requests, history, tokens.fail⟩
  | launched created =>
    obtain ⟨unread, requests, history, tokens⟩ := held
    rw [created] at tokens
    exact ⟨unread, requests, history, tokens.announce⟩
  | exit idle launched =>
    obtain ⟨unread, requests, history, tokens⟩ := held
    rw [idle, launched] at tokens
    exact ⟨unread, requests, history, tokens.exit⟩
  | request requested =>
    obtain ⟨unread, requests, history, tokens⟩ := held
    rw [requested] at tokens
    exact ⟨unread, requests, history, tokens.request⟩
  | join joining ended =>
    obtain ⟨unread, requests, history, tokens⟩ := held
    rw [joining, ended] at tokens
    rw [ended] at requests
    exact ⟨unread, requests, history, tokens.join⟩
  | wait waiting posted =>
    obtain ⟨unread, requests, history, tokens⟩ := held
    rw [waiting, posted] at tokens
    rw [waiting] at requests
    exact ⟨unread, requests, history, tokens.wait⟩
  | respond response working =>
    obtain ⟨unread, requests, history, tokens⟩ := held
    exact ⟨unread, requests, history, tokens⟩
  | schedule request idle =>
    obtain ⟨unread, requests, history, tokens⟩ := held
    rw [idle] at tokens
    unfold WorkerRun.schedule
    split
    · exact ⟨unread, requests, history, tokens.schedule rfl⟩
    · exact ⟨unread, requests, history, tokens.schedule rfl⟩
  | emit _ =>
    obtain ⟨unread, requests, history, tokens⟩ := held
    exact ⟨unread, requests, history, tokens⟩
  | emitted =>
    obtain ⟨responses, emitter, emitted, same⟩ := run.emitStep_frame
    rw [same]
    exact held

-- Requests do not touch the responses, and responses come from the work method only.
theorem WorkerRun.ResponsesHeld.emitStep (held : run.ResponsesHeld) : run.emitStep.ResponsesHeld := by
  obtain ⟨⟨unsent, responses, history⟩, capacity, inside, fits⟩ := held
  cases place : run.emitter with
  | idle =>
    rw [WorkerRun.emitStep, place]
    exact ⟨⟨unsent, responses, history⟩, capacity, inside, fits⟩
  | overrun => exact absurd place inside
  | scanning =>
    rw [place] at responses
    simp only [WorkerRun.emitStep, place]
    cases unsent with
    | nil =>
      rw [responses.readSize_nil]
      exact ⟨⟨[], responses, history⟩, capacity, nofun, fits⟩
    | cons first rest =>
      obtain ⟨next, read, kept, left⟩ := responses.readSize
      simp only [read, length_word, wordValue_word, if_true]
      exact ⟨⟨first :: rest, left, history⟩, kept ▸ capacity, nofun, fits⟩
  | reading size =>
    rw [place] at responses
    have small := responses.size_le
    obtain ⟨first, rest, next, rfl, rfl, read, kept, left⟩ := responses.readData
    have room : first.size.toNat ≤ maxPacketSize := by omega
    simp only [WorkerRun.emitStep, place, read]
    rw [if_pos first.toNat_size.symm, if_pos room]
    refine ⟨⟨rest, left, ?_⟩, kept ▸ capacity, nofun, ?_⟩
    · rw [List.append_assoc, ← history]
      rfl
    · exact forall_mem_concat fits room

theorem WorkerRun.ResponsesHeld.respond (held : run.ResponsesHeld) (response : Packet) :
    (run.respond response).ResponsesHeld := by
  obtain ⟨⟨unsent, responses, history⟩, capacity, inside, fits⟩ := held
  rcases jalvWorkerWritePacket_cases run.worker.responses response with full | ⟨next, written, stored⟩
  · simp only [WorkerRun.respond, full]
    exact ⟨⟨unsent, responses, history⟩, capacity, inside, fits⟩
  · obtain ⟨kept, left⟩ := responses.write written
    simp only [WorkerRun.respond, stored, if_true]
    refine ⟨⟨unsent ++ [response], left, ?_⟩, kept ▸ capacity, inside, fits⟩
    simp only [List.map_append, ← history, List.append_assoc]

theorem WorkerRun.threadStep_frame (run : WorkerRun) (allocated : Bool) :
    ∃ requests state thread taken worked, run.threadStep allocated =
      { run with worker := { run.worker with requests, state }, thread, taken, worked } := by
  unfold WorkerRun.threadStep
  split <;> exact ⟨_, _, _, _, _, rfl⟩

theorem WorkerRun.scheduleStep_frame (run : WorkerRun) : ∃ requests sem scheduler scheduled returned,
    run.scheduleStep = { run with worker := { run.worker with requests, sem }, scheduler, scheduled, returned } := by
  unfold WorkerRun.scheduleStep
  split
  · exact ⟨_, _, _, _, _, rfl⟩
  · dsimp only
    split <;> exact ⟨_, _, _, _, _, rfl⟩
  · dsimp only
    split <;> exact ⟨_, _, _, _, _, rfl⟩
  · exact ⟨_, _, _, _, _, rfl⟩

theorem WorkerRun.schedule_frame (run : WorkerRun) (request : Packet) : ∃ scheduler returned,
    run.schedule request = { run with scheduler, returned } := by
  unfold WorkerRun.schedule
  split <;> exact ⟨_, _, rfl⟩

theorem WorkerStep.responsesHeld {next : WorkerRun} (step : WorkerStep careful run next) (held : run.ResponsesHeld) :
    next.ResponsesHeld := by
  cases step with
  | emitted => exact held.emitStep
  | respond response _ => exact held.respond response
  | thread allocated =>
    obtain ⟨_, _, _, _, _, same⟩ := run.threadStep_frame allocated
    rw [same]
    exact ⟨held.held, held.capacity, held.inside, held.fits⟩
  | enqueue _ =>
    obtain ⟨_, _, _, _, _, same⟩ := run.scheduleStep_frame
    rw [same]
    exact ⟨held.held, held.capacity, held.inside, held.fits⟩
  | schedule request _ =>
    obtain ⟨_, _, same⟩ := run.schedule_frame request
    rw [same]
    exact ⟨held.held, held.capacity, held.inside, held.fits⟩
  | emit idle =>
    obtain ⟨⟨unsent, responses, history⟩, capacity, inside, fits⟩ := held
    rw [idle] at responses
    exact ⟨⟨unsent, responses, history⟩, capacity, nofun, fits⟩
  | launch | create | fail | launched | exit | request | join | wait =>
    exact ⟨held.held, held.capacity, held.inside, held.fits⟩

def WorkerRun.Worked (run : WorkerRun) : Prop :=
  run.worked ++ run.thread.pending = (run.taken.filter (·.kept)).map TakenRequest.content

theorem WorkerRun.Worked.threadStep (worked : run.Worked) (allocated : Bool) : (run.threadStep allocated).Worked := by
  unfold WorkerRun.Worked at worked
  cases place : run.thread with
  | loading size =>
    rw [place] at worked
    simp only [WorkerRun.threadStep, place, WorkerRun.Worked, List.filter_append, List.map_append, ← worked]
    simp [WorkerThread.pending, TakenRequest.content]
  | skipping size =>
    rw [place] at worked
    simp only [WorkerRun.threadStep, place, WorkerRun.Worked, List.filter_append, List.map_append, ← worked]
    simp [WorkerThread.pending]
  | loaded size data =>
    rw [place] at worked
    simpa [WorkerRun.threadStep, place, WorkerRun.Worked, WorkerThread.pending] using worked
  | woken =>
    rw [place] at worked
    simp only [WorkerRun.threadStep, place, WorkerRun.Worked]
    split <;> exact worked
  | allocating size =>
    rw [place] at worked
    simp only [WorkerRun.threadStep, place, WorkerRun.Worked]
    split <;> exact worked
  | absent | waiting | sizing | working | exiting | ended =>
    rw [place] at worked
    simp only [WorkerRun.threadStep, place, WorkerRun.Worked]
    exact worked

theorem WorkerStep.worked {next : WorkerRun} (step : WorkerStep careful run next) (worked : run.Worked)
    (held : run.RequestsHeld careful) : next.Worked := by
  cases step with
  | thread allocated => exact worked.threadStep allocated
  | enqueue _ =>
    obtain ⟨_, _, _, _, _, same⟩ := run.scheduleStep_frame
    rw [same]
    exact worked
  | schedule request _ =>
    obtain ⟨_, _, same⟩ := run.schedule_frame request
    rw [same]
    exact worked
  | emitted =>
    obtain ⟨_, _, _, same⟩ := run.emitStep_frame
    rw [same]
    exact worked
  | create initialized =>
    obtain ⟨_, _, _, tokens⟩ := held
    unfold WorkerRun.Worked at worked ⊢
    rwa [WorkerThread.pending_eq_nil (tokens.initialized initialized).1] at worked
  | join _ ended =>
    unfold WorkerRun.Worked at worked ⊢
    rwa [ended] at worked
  | wait waiting _ =>
    unfold WorkerRun.Worked at worked ⊢
    rwa [waiting] at worked
  | launch | fail | launched | exit | request | respond | emit => exact worked

structure WorkerRun.Queued (careful : Prop) (run : WorkerRun) : Prop where
  requests : run.RequestsHeld careful
  responses : run.ResponsesHeld
  worked : run.Worked

theorem WorkerRun.queued_initial (initial : (workerSystem careful).initial run) : run.Queued careful := by
  obtain ⟨requests, responses, _, small, rfl⟩ := initial
  refine ⟨⟨[], rfl, rfl, ?_⟩, ⟨⟨[], rfl, rfl⟩, small, nofun, nofun⟩, rfl⟩
  have absent : ¬ WorkerThread.absent.Alive := id
  constructor <;> simp [WorkerRun.start, jalvWorkerNew, WorkerThread.checked, WorkerScheduler.unposted, absent]

theorem WorkerRun.queued_reachable (reachable : (workerSystem careful).Reachable run) : run.Queued careful := by
  refine TransitionSystem.invariant (fun _ initial => WorkerRun.queued_initial initial) (fun _ _ queued step => ?_)
    reachable
  exact ⟨step.requestsHeld queued.requests, step.responsesHeld queued.responses,
    step.worked queued.worked queued.requests⟩

end

/-- In every run, requests and responses arrive in order, and each response fits. -/
theorem worker_inOrder (run : WorkerRun) (reachable : (workerSystem False).Reachable run) : run.InOrder := by
  obtain ⟨⟨unread, _, requests, _⟩, ⟨⟨unsent, _, responses⟩, _, inside, fits⟩, worked⟩ :=
    WorkerRun.queued_reachable reachable
  exact ⟨⟨_, requests⟩, worked, ⟨_, responses⟩, inside, fits⟩

def workerTestStart : WorkerRun := .start (jalvWorkerNew 4095 4095)

def workerTestRequest : Packet := ⟨[7, 8], by decide⟩

theorem workerTest_scheduled (careful : Prop) : ∃ run, (workerSystem careful).Reachable run ∧
    run.worker.state = .launched ∧ run.control = .idle ∧ run.scheduler = .idle ∧ run.worker.sem = 1 ∧
    run.thread = .waiting ∧ run.scheduled = [workerTestRequest] ∧ run.taken = [] := by
  have start : (workerSystem careful).Reachable workerTestStart := ⟨_, ⟨_, _, by decide, by decide, rfl⟩, .refl⟩
  have one := start.step (.launch rfl rfl fun _ => rfl)
  have two := one.step (.create rfl)
  have three := two.step (.launched rfl)
  have four := three.step (.schedule workerTestRequest rfl)
  have five := four.step (.enqueue fun _ _ _ => rfl)
  have six := five.step (.enqueue fun _ _ _ => rfl)
  have seven := six.step (.enqueue fun _ _ _ => rfl)
  exact ⟨_, seven, rfl, rfl, rfl, rfl, rfl, rfl, rfl⟩

theorem worker_inOrder_test : ∃ run : WorkerRun, run.worked.length = 1 ∧ run.emitted.length = 1 ∧ run.InOrder := by
  have start : (workerSystem False).Reachable workerTestStart := ⟨_, ⟨_, _, by decide, by decide, rfl⟩, .refl⟩
  have launched := ((start.step (.launch rfl rfl nofun)).step (.create rfl)).step (.launched rfl)
  have scheduled := (((launched.step (.schedule workerTestRequest rfl)).step (.enqueue nofun)).step
    (.enqueue nofun)).step
    (.enqueue nofun)
  have checked := (scheduled.step (.wait rfl rfl)).step (.thread true)
  have loaded := ((checked.step (.thread true)).step (.thread true)).step (.thread true)
  have worked := (loaded.step (.thread true)).step (.respond workerTestRequest rfl)
  have emitted := ((worked.step (.emit rfl)).step .emitted).step .emitted
  exact ⟨_, rfl, rfl, worker_inOrder _ emitted⟩

end Jalv
