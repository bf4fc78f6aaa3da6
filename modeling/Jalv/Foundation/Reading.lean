import Jalv.Foundation.Memory

/-! Computations that read runs of cells from a memory.

A computation within a limit returns and reads no cell at the limit or behind it, so
that it does the same in every memory that has the same cells before the limit.
-/

set_option autoImplicit false

namespace Foundation

variable {α β γ : Type}

inductive Reading (α β : Type) where
  | done (result : β)
  -- Undefined behavior, or a loop that does not end
  | fail
  | load (start count : Nat) (next : {cells : List α // cells.length = count} → Reading α β)

namespace Reading

def run (memory : Memory α) : Reading α β → Option β
  | done result => some result
  | fail => none
  | load start count next => (next ⟨memory.load start count, Memory.length_load _ _ _⟩).run memory

def reads (memory : Memory α) : Reading α β → List (Nat × Nat)
  | done _ => []
  | fail => []
  | load start count next =>
    (start, count) :: (next ⟨memory.load start count, Memory.length_load _ _ _⟩).reads memory

def bind : Reading α β → (β → Reading α γ) → Reading α γ
  | done result, next => next result
  | fail, _ => fail
  | load start count rest, next => load start count fun cells => (rest cells).bind next

instance : Monad (Reading α) where
  pure := done
  bind := bind

def ofOption : Option β → Reading α β
  | some result => done result
  | none => fail

def Within (memory : Memory α) (limit : Nat) (program : Reading α β) (result : β) : Prop :=
  program.run memory = some result ∧ ∀ read ∈ program.reads memory, read.1 + read.2 ≤ limit

section

variable {memory other : Memory α} {limit : Nat}

@[simp] theorem run_pure (result : β) : (pure result : Reading α β).run memory = some result := rfl

@[simp] theorem run_ofOption (result : Option β) : (ofOption result : Reading α β).run memory = result := by
  cases result <;> rfl

@[simp] theorem run_bind (program : Reading α β) (next : β → Reading α γ) :
    (program >>= next).run memory = (program.run memory).bind fun result => (next result).run memory := by
  induction program with
  | done result => rfl
  | fail => rfl
  | load start count rest ih => exact ih _

@[simp] theorem run_foldlM {σ : Type} (step : σ → β → Reading α σ) (start : σ) (values : List β) :
    (values.foldlM step start).run memory = values.foldlM (fun state value => (step state value).run memory) start := by
  induction values generalizing start with
  | nil => rfl
  | cons value rest ih =>
    rw [List.foldlM_cons, run_bind, List.foldlM_cons]
    exact Option.bind_congr fun state _ => ih state

theorem reads_bind (program : Reading α β) (next : β → Reading α γ) :
    (program >>= next).reads memory = program.reads memory ++
      ((program.run memory).map fun result => (next result).reads memory).getD [] := by
  induction program with
  | done result => rfl
  | fail => rfl
  | load start count rest ih => exact congrArg _ (ih _)

@[simp] theorem within_pure {result expected : β} :
    (pure result : Reading α β).Within memory limit expected ↔ result = expected := by
  rw [Within, run_pure, Option.some.injEq]
  exact and_iff_left (List.forall_mem_nil _)

@[simp] theorem not_within_fail {expected : β} : ¬(fail : Reading α β).Within memory limit expected := by
  rintro ⟨run, _⟩
  cases run

@[simp] theorem within_ofOption {result : Option β} {expected : β} :
    (ofOption result : Reading α β).Within memory limit expected ↔ result = some expected := by
  cases result with
  | none => exact iff_of_false not_within_fail (Option.some_ne_none expected).symm
  | some result => rw [Option.some.injEq]; exact within_pure

theorem within_load {start count : Nat} {next : {cells : List α // cells.length = count} → Reading α β} {expected : β} :
    (load start count next).Within memory limit expected ↔ start + count ≤ limit ∧
      (next ⟨memory.load start count, Memory.length_load _ _ _⟩).Within memory limit expected := by
  simp only [Within, run, reads, List.forall_mem_cons]
  exact and_left_comm

/-- The rule of composition: both parts are within the limit. -/
theorem within_bind {program : Reading α β} {next : β → Reading α γ} {expected : γ} :
    (program >>= next).Within memory limit expected ↔
      ∃ middle, program.Within memory limit middle ∧ (next middle).Within memory limit expected := by
  simp only [Within, run_bind, reads_bind, List.forall_mem_append]
  constructor
  · rintro ⟨run, before, behind⟩
    obtain ⟨middle, first, second⟩ := Option.bind_eq_some_iff.mp run
    rw [first] at behind
    exact ⟨middle, ⟨first, before⟩, second, behind⟩
  · rintro ⟨middle, ⟨first, before⟩, second, behind⟩
    rw [first]
    exact ⟨second, before, behind⟩

theorem Within.congr {program : Reading α β} {result : β} (within : program.Within memory limit result)
    (same : ∀ address, address < limit → memory address = other address) : program.Within other limit result := by
  induction program with
  | done _ => exact within
  | fail => exact absurd within not_within_fail
  | load start count next ih =>
    rw [within_load] at within ⊢
    obtain ⟨inside, rest⟩ := within
    have cells : memory.load start count = other.load start count :=
      Memory.load_congr start count fun address _ below => same address (by omega)
    simp only [cells] at rest
    exact ⟨inside, ih _ rest⟩

end

end Reading

end Foundation
