import Jalv.Worker.Worker

/-! The tokens of a worker: the count of its semaphore, and those that threads hold.

The audio thread has a token for a request that it has written until it posts, and the
worker thread one for a request until it has read all of it.
-/

set_option autoImplicit false

namespace Jalv

open Foundation

def WorkerThread.Alive : WorkerThread → Prop
  | .absent | .exiting | .ended => False
  | _ => True

def WorkerThread.unchecked : WorkerThread → Nat
  | .woken => 1
  | _ => 0

def WorkerThread.checked : WorkerThread → Nat
  | .sizing | .allocating _ | .loading _ | .skipping _ => 1
  | _ => 0

def WorkerThread.header : WorkerThread → Option UInt32
  | .allocating size | .loading size | .skipping size => some size
  | _ => none

def WorkerScheduler.unposted : WorkerScheduler → Nat
  | .posting _ => 1
  | _ => 0

/-- The tokens of a worker while so many requests are unread. If its calls are careful, no
request is left without a token while the worker thread can take one. -/
structure WorkerTokens (careful : Prop) (state : WorkerState) (sem unread : Nat) (thread : WorkerThread)
    (scheduler : WorkerScheduler) (control : WorkerControl) : Prop where
  held : thread.checked + scheduler.unposted ≤ unread
  counted : thread.Alive → state ≠ .mustExit →
    sem + thread.unchecked + thread.checked + scheduler.unposted ≤ unread ∧
    (careful → sem + thread.unchecked + thread.checked + scheduler.unposted = unread)
  initialized : control = .initialized → ¬ thread.Alive ∧ state = .stopped ∧ sem + scheduler.unposted ≤ unread ∧
    (careful → sem + scheduler.unposted = unread)
  stopped : control = .idle → state = .stopped → ¬ thread.Alive
  created : control = .created → thread.Alive ∧ state = .stopped
  requested : control = .requested → state = .mustExit ∨ ¬ thread.Alive
  launched : state = .launched → thread.Alive

namespace WorkerTokens

variable {careful : Prop} {state : WorkerState} {sem unread : Nat} {thread : WorkerThread}
  {scheduler : WorkerScheduler} {control : WorkerControl}

theorem launch (tokens : WorkerTokens careful state sem unread thread scheduler .idle) (stopped : state = .stopped)
    (fresh : careful → unread = 0) : WorkerTokens careful state 0 unread thread scheduler .initialized := by
  have absent := tokens.stopped rfl stopped
  have held := tokens.held
  constructor <;> grind

theorem create (tokens : WorkerTokens careful state sem unread thread scheduler .initialized) :
    WorkerTokens careful state sem unread .waiting scheduler .created := by
  obtain ⟨absent, stopped, counted, whole⟩ := tokens.initialized rfl
  have alive : WorkerThread.waiting.Alive := trivial
  constructor <;> grind [WorkerThread.unchecked, WorkerThread.checked]

theorem fail (tokens : WorkerTokens careful state sem unread thread scheduler .initialized) :
    WorkerTokens careful state sem unread thread scheduler .idle := by
  obtain ⟨absent, stopped, counted, whole⟩ := tokens.initialized rfl
  have held := tokens.held
  constructor <;> grind

theorem announce (tokens : WorkerTokens careful state sem unread thread scheduler .created) :
    WorkerTokens careful .launched sem unread thread scheduler .idle := by
  obtain ⟨alive, stopped⟩ := tokens.created rfl
  have held := tokens.held
  have counted := tokens.counted alive (by rw [stopped]; decide)
  constructor <;> grind

theorem exit (tokens : WorkerTokens careful .launched sem unread thread scheduler .idle) :
    WorkerTokens careful .mustExit sem unread thread scheduler .requested := by
  have held := tokens.held
  constructor <;> grind

theorem request (tokens : WorkerTokens careful state sem unread thread scheduler .requested) :
    WorkerTokens careful state (sem + 1) unread thread scheduler .joining := by
  have held := tokens.held
  have stopping := tokens.requested rfl
  have launched := tokens.launched
  constructor <;> grind

theorem join (tokens : WorkerTokens careful state sem unread .ended scheduler .joining) :
    WorkerTokens careful state sem unread .absent scheduler .idle := by
  have held := tokens.held
  have absent : ¬ WorkerThread.absent.Alive := id
  have launched : state ≠ .launched := fun launched => tokens.launched launched
  constructor <;> grind [WorkerThread.checked]

theorem wait (tokens : WorkerTokens careful state (sem + 1) unread .waiting scheduler control) :
    WorkerTokens careful state sem unread .woken scheduler control := by
  obtain ⟨held, counted, initialized, stopped, created, requested, launched⟩ := tokens
  have waiting : WorkerThread.waiting.Alive := trivial
  have woken : WorkerThread.woken.Alive := trivial
  constructor <;> grind [WorkerThread.unchecked, WorkerThread.checked]

theorem leave (tokens : WorkerTokens careful .mustExit sem unread .woken scheduler control) :
    WorkerTokens careful .mustExit sem unread .exiting scheduler control := by
  obtain ⟨held, counted, initialized, stopped, created, requested, launched⟩ := tokens
  have exiting : ¬ WorkerThread.exiting.Alive := id
  constructor <;> grind [WorkerThread.checked]

theorem check (tokens : WorkerTokens careful state sem unread .woken scheduler control) (kept : state ≠ .mustExit) :
    WorkerTokens careful state sem unread .sizing scheduler control := by
  obtain ⟨held, counted, initialized, stopped, created, requested, launched⟩ := tokens
  have woken : WorkerThread.woken.Alive := trivial
  have sizing : WorkerThread.sizing.Alive := trivial
  constructor <;> grind [WorkerThread.unchecked, WorkerThread.checked]

theorem move {next : WorkerThread} (tokens : WorkerTokens careful state sem unread thread scheduler control)
    (alive : next.Alive ↔ thread.Alive) (unchecked : next.unchecked = thread.unchecked)
    (checked : next.checked = thread.checked) : WorkerTokens careful state sem unread next scheduler control := by
  obtain ⟨held, counted, initialized, stopped, created, requested, launched⟩ := tokens
  constructor <;> grind

theorem take {next : WorkerThread} (tokens : WorkerTokens careful state sem (unread + 1) thread scheduler control)
    (holding : thread.checked = 1) (alive : next.Alive) (unchecked : next.unchecked = thread.unchecked)
    (checked : next.checked = 0) (before : thread.Alive) :
    WorkerTokens careful state sem unread next scheduler control := by
  obtain ⟨held, counted, initialized, stopped, created, requested, launched⟩ := tokens
  constructor <;> grind

theorem finish (tokens : WorkerTokens careful state sem unread .exiting scheduler control) :
    WorkerTokens careful .stopped sem unread .ended scheduler control := by
  obtain ⟨held, counted, initialized, stopped, created, requested, launched⟩ := tokens
  have exiting : ¬ WorkerThread.exiting.Alive := id
  have ended : ¬ WorkerThread.ended.Alive := id
  constructor <;> grind [WorkerThread.checked]

theorem schedule {next : WorkerScheduler} (tokens : WorkerTokens careful state sem unread thread scheduler control)
    (unposted : next.unposted = scheduler.unposted) : WorkerTokens careful state sem unread thread next control := by
  obtain ⟨held, counted, initialized, stopped, created, requested, launched⟩ := tokens
  constructor <;> grind

theorem write {request : Packet} (tokens : WorkerTokens careful state sem unread thread (.writing request) control) :
    WorkerTokens careful state sem (unread + 1) thread (.posting request) control := by
  obtain ⟨held, counted, initialized, stopped, created, requested, launched⟩ := tokens
  constructor <;> grind [WorkerScheduler.unposted]

theorem post {request : Packet} (tokens : WorkerTokens careful state sem unread thread (.posting request) control) :
    WorkerTokens careful state (sem + 1) unread thread .idle control := by
  obtain ⟨held, counted, initialized, stopped, created, requested, launched⟩ := tokens
  constructor <;> grind [WorkerScheduler.unposted]

end WorkerTokens

end Jalv
