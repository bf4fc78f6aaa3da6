import Jalv.Foundation.Packets
import Jalv.Foundation.Transition
import Jalv.Message.Message

/-! A worker with a thread of its own (`worker.c`).

The audio thread schedules requests and emits responses, the worker thread does the
work, and the main thread launches and stops the worker thread. All take their steps in
any order. The lock around the work method only makes the worker thread wait, and a
worker without a thread does the work when it is scheduled, which are both left out.
-/

set_option autoImplicit false

namespace Jalv

open Foundation

-- `MAX_PACKET_SIZE`, the size of the response buffer. A ring of this size can hold one byte less.
def maxPacketSize : Nat := 4096

-- A worker without a thread has another state, which it keeps.
inductive WorkerState where | stopped | launched | mustExit
  deriving DecidableEq, Repr

inductive LV2WorkerStatus where | success | errUnknown | errNoSpace
  deriving DecidableEq, Repr

structure JalvWorker where
  requests : ZixRing
  responses : ZixRing
  sem : Nat
  state : WorkerState

/-- Where the worker thread is. A size is that of the request it has begun to read. -/
inductive WorkerThread where
  | absent
  -- At the head of the loop
  | waiting
  | woken
  | sizing
  | allocating (size : UInt32)
  | loading (size : UInt32)
  | skipping (size : UInt32)
  -- The request is in the buffer
  | loaded (size : UInt32) (data : List Byte)
  -- In the work method of the plugin
  | working
  -- Behind the loop
  | exiting
  | ended

/-- Where the audio thread is in `jalv_worker_schedule`: before the check whether the worker
is launched, before the write, and before the post. -/
inductive WorkerScheduler where
  | idle
  | entered (request : Packet)
  | writing (request : Packet)
  | posting (request : Packet)

/-- Where the audio thread is in `jalv_worker_emit_responses`. In the last place it has
written beyond the response buffer. -/
inductive WorkerEmitter where
  | idle
  | scanning
  | reading (size : UInt32)
  | overrun

/-- Where the main thread is: in `jalv_worker_launch` before the thread is created and before the
state is set, or in `jalv_worker_exit` before the post and before the thread has ended. -/
inductive WorkerControl where
  | idle
  | initialized
  | created
  | requested
  | joining
  deriving DecidableEq

structure TakenRequest where
  size : UInt32
  data : List Byte
  kept : Bool

structure ScheduleReturn where
  request : Packet
  status : LV2WorkerStatus
  stored : Bool

/-- A worker, the threads that use it, and what they have done: the requests that were
written, taken from the ring and passed to the plugin, the responses that were written and
passed to the plugin, and the calls that have returned. -/
structure WorkerRun where
  worker : JalvWorker
  thread : WorkerThread
  scheduler : WorkerScheduler
  emitter : WorkerEmitter
  control : WorkerControl
  scheduled : List Packet
  taken : List TakenRequest
  worked : List (UInt32 × List Byte)
  responded : List Packet
  emitted : List (UInt32 × List Byte)
  returned : List ScheduleReturn

def jalvWorkerNew (requests responses : Nat) : JalvWorker := ⟨.empty requests, .empty responses, 0, .stopped⟩

def WorkerRun.start (worker : JalvWorker) : WorkerRun :=
  ⟨worker, .absent, .idle, .idle, .idle, [], [], [], [], [], []⟩

def jalvWorkerWritePacket (target : ZixRing) (packet : Packet) : LV2WorkerStatus × ZixRing :=
  match packet.write target with
  | some next => (.success, next)
  | none => (.errNoSpace, target)

/-- A step of `worker_func` other than to wait for the semaphore, where the allocation
of a buffer goes well or not. What is read is not checked. -/
def WorkerRun.threadStep (allocated : Bool) (run : WorkerRun) : WorkerRun :=
  let worker := run.worker
  match run.thread with
  | .absent | .waiting | .ended => run
  | .woken => { run with thread := if worker.state = .mustExit then .exiting else .sizing }
  | .sizing =>
    -- Read the size header of the request
    let (bytes, requests) := worker.requests.read 4
    { run with
      worker := { worker with requests }
      thread := .allocating (if bytes.length = 4 then wordValue bytes else 0) }
  | .allocating size => { run with thread := if allocated then .loading size else .skipping size }
  | .loading size =>
    -- Read request into buffer
    let (data, requests) := worker.requests.read size.toNat
    { run with
      worker := { worker with requests }
      thread := .loaded size data
      taken := run.taken ++ [⟨size, data, true⟩] }
  | .skipping size =>
    -- Reallocation failed, skip request to avoid corrupting ring
    let (data, requests) := worker.requests.read size.toNat
    { run with
      worker := { worker with requests }
      thread := .waiting
      taken := run.taken ++ [⟨size, data, false⟩] }
  | .loaded size data => { run with thread := .working, worked := run.worked ++ [(size, data)] }
  | .working => { run with thread := .waiting }
  | .exiting => { run with worker := { worker with state := .stopped }, thread := .ended }

/-- `jalv_worker_respond`, which the plugin calls in its work method. -/
def WorkerRun.respond (run : WorkerRun) (response : Packet) : WorkerRun :=
  let (status, responses) := jalvWorkerWritePacket run.worker.responses response
  { run with
    worker := { run.worker with responses }
    responded := if status = .success then run.responded ++ [response] else run.responded }

def WorkerRun.finish (run : WorkerRun) (request : Packet) (status : LV2WorkerStatus) (stored : Bool) : WorkerRun :=
  { run with scheduler := .idle, returned := run.returned ++ [⟨request, status, stored⟩] }

def WorkerRun.schedule (run : WorkerRun) (request : Packet) : WorkerRun :=
  if request.size = 0 ∨ run.worker.state = .stopped then run.finish request .errUnknown false
  else { run with scheduler := .entered request }

def WorkerRun.scheduleStep (run : WorkerRun) : WorkerRun :=
  let worker := run.worker
  match run.scheduler with
  | .idle => run
  | .entered request =>
    -- Schedule a request to be executed by the worker thread
    if worker.state = .launched then { run with scheduler := .writing request }
    else run.finish request .success false
  | .writing request =>
    match jalvWorkerWritePacket worker.requests request with
    | (.success, requests) =>
      { run with
        worker := { worker with requests }
        scheduler := .posting request
        scheduled := run.scheduled ++ [request] }
    | (status, _) => run.finish request status false
  | .posting request => { run with worker := { worker with sem := worker.sem + 1 } }.finish request .success true

def WorkerRun.emitStep (run : WorkerRun) : WorkerRun :=
  let worker := run.worker
  match run.emitter with
  | .idle | .overrun => run
  | .scanning =>
    let (bytes, responses) := worker.responses.read 4
    { run with
      worker := { worker with responses }
      emitter := if bytes.length = 4 then .reading (wordValue bytes) else .idle }
  | .reading size =>
    let (data, responses) := worker.responses.read size.toNat
    let run := { run with worker := { worker with responses } }
    if data.length = size.toNat then
      if size.toNat ≤ maxPacketSize then
        { run with emitter := .scanning, emitted := run.emitted ++ [(size, data)] }
      else { run with emitter := .overrun }
    else { run with emitter := .scanning }

/-- The steps of all threads. A call that finds nothing to do is left out. If the calls are careful,
the worker is only launched while no request is in the ring, and a call of
`jalv_worker_schedule` that finds that the worker is not stopped then finds it launched. -/
inductive WorkerStep (careful : Prop) : WorkerRun → WorkerRun → Prop where
  | launch {run : WorkerRun} (idle : run.control = .idle) (stopped : run.worker.state = .stopped)
      (fresh : careful → run.worker.requests.content = []) :
      WorkerStep careful run { run with worker := { run.worker with sem := 0 }, control := .initialized }
  | create {run : WorkerRun} (initialized : run.control = .initialized) :
      WorkerStep careful run { run with thread := .waiting, control := .created }
  | fail {run : WorkerRun} (initialized : run.control = .initialized) :
      WorkerStep careful run { run with control := .idle }
  | launched {run : WorkerRun} (created : run.control = .created) :
      WorkerStep careful run { run with worker := { run.worker with state := .launched }, control := .idle }
  | exit {run : WorkerRun} (idle : run.control = .idle) (launched : run.worker.state = .launched) :
      WorkerStep careful run { run with worker := { run.worker with state := .mustExit }, control := .requested }
  | request {run : WorkerRun} (requested : run.control = .requested) :
      WorkerStep careful run
        { run with worker := { run.worker with sem := run.worker.sem + 1 }, control := .joining }
  | join {run : WorkerRun} (joining : run.control = .joining) (ended : run.thread = .ended) :
      WorkerStep careful run { run with thread := .absent, control := .idle }
  | wait {run : WorkerRun} {sem : Nat} (waiting : run.thread = .waiting) (posted : run.worker.sem = sem + 1) :
      WorkerStep careful run { run with worker := { run.worker with sem }, thread := .woken }
  | thread {run : WorkerRun} (allocated : Bool) : WorkerStep careful run (run.threadStep allocated)
  | respond {run : WorkerRun} (response : Packet) (working : run.thread = .working) :
      WorkerStep careful run (run.respond response)
  | schedule {run : WorkerRun} (request : Packet) (idle : run.scheduler = .idle) :
      WorkerStep careful run (run.schedule request)
  | enqueue {run : WorkerRun}
      (met : careful → ∀ request, run.scheduler = .entered request → run.worker.state = .launched) :
      WorkerStep careful run run.scheduleStep
  | emit {run : WorkerRun} (idle : run.emitter = .idle) : WorkerStep careful run { run with emitter := .scanning }
  | emitted {run : WorkerRun} : WorkerStep careful run run.emitStep

def workerSystem (careful : Prop) : TransitionSystem WorkerRun where
  initial run := ∃ requests responses, requests < maxPacketSize ∧ responses < maxPacketSize ∧
    run = .start (jalvWorkerNew requests responses)
  step := WorkerStep careful

end Jalv
