import Jalv.Foundation.Framing
import Mathlib.Logic.Function.Basic

/-! The cells and heads of a ring, and writes that are in progress.

The heads count on, and a position is in the cell that it has modulo the size. A
transaction has the heads as they were when it began. What is added to it is in the
cells at once, but the reader sees it only when it is committed.
-/

set_option autoImplicit false

namespace Foundation

variable {α μ : Type}

structure RingBuffer (α : Type) where
  size : Nat
  cells : Nat → α
  readHead : Nat
  writeHead : Nat

structure RingTransaction where
  readHead : Nat
  writeHead : Nat

namespace RingBuffer

def span (ring : RingBuffer α) (position count : Nat) : List α :=
  (List.range' position count).map fun position => ring.cells (position % ring.size)

def content (ring : RingBuffer α) : List α := ring.span ring.readHead (ring.writeHead - ring.readHead)

def put (ring : RingBuffer α) (position : Nat) (cell : α) : RingBuffer α :=
  { ring with cells := Function.update ring.cells (position % ring.size) cell }

def store (ring : RingBuffer α) (position : Nat) : List α → RingBuffer α
  | [] => ring
  | cell :: rest => (ring.put position cell).store (position + 1) rest

def beginWrite (ring : RingBuffer α) : RingTransaction := ⟨ring.readHead, ring.writeHead⟩

def amendWrite (ring : RingBuffer α) (transaction : RingTransaction) (cells : List α) :
    Option (RingBuffer α × RingTransaction) :=
  if transaction.writeHead + cells.length < transaction.readHead + ring.size then
    some (ring.store transaction.writeHead cells,
      { transaction with writeHead := transaction.writeHead + cells.length })
  else none

def commitWrite (ring : RingBuffer α) (transaction : RingTransaction) : RingBuffer α :=
  { ring with writeHead := transaction.writeHead }

def read (ring : RingBuffer α) (count : Nat) : List α × RingBuffer α :=
  if count ≤ ring.writeHead - ring.readHead then
    (ring.span ring.readHead count, { ring with readHead := ring.readHead + count })
  else ([], ring)

/-- The write head is ahead of the read head, by less than the size. -/
structure Sound (ring : RingBuffer α) : Prop where
  ordered : ring.readHead ≤ ring.writeHead
  room : ring.writeHead < ring.readHead + ring.size

structure Staged (ring : RingBuffer α) (transaction : RingTransaction) (cells : List α) : Prop where
  readHead : transaction.readHead ≤ ring.readHead
  writeHead : transaction.writeHead = ring.writeHead + cells.length
  room : transaction.writeHead < transaction.readHead + ring.size
  cells : ring.span ring.writeHead cells.length = cells

section

variable {ring next : RingBuffer α} {transaction : RingTransaction} {cells : List α}

theorem span_append (ring : RingBuffer α) (position first second : Nat) :
    ring.span position (first + second) = ring.span position first ++ ring.span (position + first) second := by
  rw [span, ← List.range'_append_1, List.map_append]
  rfl

theorem store_frame (ring : RingBuffer α) (position : Nat) (cells : List α) :
    ∃ stored, ring.store position cells = { ring with cells := stored } := by
  induction cells generalizing ring position with
  | nil => exact ⟨ring.cells, rfl⟩
  | cons cell rest ih =>
    obtain ⟨stored, same⟩ := ih (ring.put position cell) (position + 1)
    exact ⟨stored, same⟩

theorem mod_ne {size first second : Nat} (before : first < second) (near : second < first + size) :
    first % size ≠ second % size := by
  intro same
  have multiple := Nat.sub_mod_eq_zero_of_mod_eq same.symm
  rw [Nat.mod_eq_of_lt (by omega)] at multiple
  omega

theorem span_put (ring : RingBuffer α) {position count written : Nat} (cell : α)
    (apart : ∀ index < count, (position + index) % ring.size ≠ written % ring.size) :
    (ring.put written cell).span position count = ring.span position count := by
  refine List.map_congr_left fun other member => Function.update_of_ne ?_ _ _
  obtain ⟨index, inside, rfl⟩ := List.mem_range'.mp member
  rw [Nat.one_mul]
  exact apart index inside

/-- Storing cells changes no other positions, as long as all are less than a round apart. -/
theorem span_store_of_disjoint (ring : RingBuffer α) {position count written : Nat} (cells : List α)
    (below : position + count ≤ written) (near : written + cells.length ≤ position + ring.size) :
    (ring.store written cells).span position count = ring.span position count := by
  induction cells generalizing ring written with
  | nil => rfl
  | cons cell rest ih =>
    rw [List.length_cons] at near
    calc ((ring.put written cell).store (written + 1) rest).span position count
      _ = (ring.put written cell).span position count :=
        ih (ring.put written cell) (by omega) (show written + 1 + rest.length ≤ position + ring.size by omega)
      _ = ring.span position count := span_put ring cell fun index inside => mod_ne (by omega) (by omega)

theorem span_store (ring : RingBuffer α) (written : Nat) (cells : List α) (fits : cells.length ≤ ring.size) :
    (ring.store written cells).span written cells.length = cells := by
  induction cells generalizing ring written with
  | nil => rfl
  | cons cell rest ih =>
    rw [List.length_cons] at fits
    have front : ((ring.put written cell).store (written + 1) rest).span written 1 = [cell] := by
      rw [span_store_of_disjoint (ring.put written cell) rest (Nat.le_refl _)
        (show written + 1 + rest.length ≤ written + ring.size by omega)]
      exact congrArg (fun cell => [cell]) (Function.update_self _ _ _)
    rw [List.length_cons, Nat.add_comm, span_append, store, front,
      ih (ring.put written cell) (written + 1) (Nat.le_of_succ_le fits)]
    rfl

theorem beginWrite_staged (sound : ring.Sound) : ring.Staged ring.beginWrite [] where
  readHead := Nat.le_refl _
  writeHead := rfl
  room := sound.room
  cells := rfl

/-- What is added to a transaction is behind what it has added before, and is not seen yet. -/
theorem Staged.amend {part : List α} {after : RingTransaction} (staged : ring.Staged transaction cells)
    (sound : ring.Sound) (amended : ring.amendWrite transaction part = some (next, after)) :
    next.Staged after (cells ++ part) ∧ next.Sound ∧ next.content = ring.content := by
  unfold amendWrite at amended
  split at amended
  · next fits =>
    cases amended
    obtain ⟨stored, same⟩ := ring.store_frame transaction.writeHead part
    have before := staged.readHead
    have behind := staged.writeHead
    have ordered := sound.ordered
    have kept : (ring.store transaction.writeHead part).span ring.writeHead cells.length = cells := by
      rw [span_store_of_disjoint ring part (by omega) (by omega), staged.cells]
    have added : (ring.store transaction.writeHead part).span (ring.writeHead + cells.length) part.length = part := by
      rw [← behind]
      exact span_store ring _ part (by omega)
    have seen : (ring.store transaction.writeHead part).span ring.readHead (ring.writeHead - ring.readHead) =
        ring.content := span_store_of_disjoint ring part (by omega) (by omega)
    rw [same] at kept added seen ⊢
    refine ⟨⟨before, ?_, fits, ?_⟩, ⟨ordered, sound.room⟩, seen⟩
    · rw [behind, List.length_append, Nat.add_assoc]
    · rw [List.length_append, span_append, kept, added]
  · cases amended

theorem Staged.commit (staged : ring.Staged transaction cells) (sound : ring.Sound) :
    (ring.commitWrite transaction).Sound ∧ (ring.commitWrite transaction).content = ring.content ++ cells := by
  have before := staged.readHead
  have behind := staged.writeHead
  have room := staged.room
  have ordered := sound.ordered
  refine ⟨⟨?_, ?_⟩, ?_⟩
  · show ring.readHead ≤ transaction.writeHead
    omega
  · show transaction.writeHead < ring.readHead + ring.size
    omega
  · have length : transaction.writeHead - ring.readHead = (ring.writeHead - ring.readHead) + cells.length := by omega
    have ends : ring.readHead + (ring.writeHead - ring.readHead) = ring.writeHead := by omega
    show ring.span ring.readHead (transaction.writeHead - ring.readHead) = _
    rw [length, span_append, ends, staged.cells]
    rfl

/-- A read takes cells from the front, and a transaction does not notice it. -/
theorem read_content (sound : ring.Sound) {count : Nat} {bytes : List α} (taken : ring.read count = (bytes, next)) :
    ring.content = bytes ++ next.content ∧ next.Sound ∧
      (∀ transaction cells, ring.Staged transaction cells → next.Staged transaction cells) := by
  unfold read at taken
  split at taken
  · next enough =>
    cases taken
    have ordered := sound.ordered
    have room := sound.room
    refine ⟨?_, ⟨?_, ?_⟩, fun transaction cells staged => ⟨?_, staged.writeHead, staged.room, staged.cells⟩⟩
    · have parts : ring.writeHead - ring.readHead = count + (ring.writeHead - (ring.readHead + count)) := by omega
      rw [content, parts, span_append]
      rfl
    · show ring.readHead + count ≤ ring.writeHead
      omega
    · show ring.writeHead < ring.readHead + count + ring.size
      omega
    · exact Nat.le_trans staged.readHead (Nat.le_add_right _ _)
  · cases taken
    exact ⟨rfl, sound, fun _ _ staged => staged⟩

end

end RingBuffer

/-- A writer with messages to write, and the message that it is writing, with the parts that it
has yet to add to its transaction. -/
structure RingWriter (μ α : Type) where
  todo : List μ
  inside : Option (μ × List (List α) × RingTransaction)

namespace RingWriter

def Done (writer : RingWriter μ α) : Prop := writer.todo = [] ∧ writer.inside = none

/-- One step of a writer, with the messages that it commits. A message that does not fit is
dropped. -/
inductive Step (parts : μ → List (List α)) :
    RingBuffer α → RingWriter μ α → RingBuffer α → RingWriter μ α → List μ → Prop where
  | begin {ring : RingBuffer α} {message : μ} {rest : List μ} :
      Step parts ring ⟨message :: rest, none⟩ ring ⟨rest, some (message, parts message, ring.beginWrite)⟩ []
  | amend {ring next : RingBuffer α} {todo : List μ} {message : μ} {part : List α} {rest : List (List α)}
      {transaction after : RingTransaction} (amended : ring.amendWrite transaction part = some (next, after)) :
      Step parts ring ⟨todo, some (message, part :: rest, transaction)⟩
        next ⟨todo, some (message, rest, after)⟩ []
  | drop {ring : RingBuffer α} {todo : List μ} {message : μ} {part : List α} {rest : List (List α)}
      {transaction : RingTransaction} (full : ring.amendWrite transaction part = none) :
      Step parts ring ⟨todo, some (message, part :: rest, transaction)⟩ ring ⟨todo, none⟩ []
  | commit {ring : RingBuffer α} {todo : List μ} {message : μ} {transaction : RingTransaction} :
      Step parts ring ⟨todo, some (message, [], transaction)⟩
        (ring.commitWrite transaction) ⟨todo, none⟩ [message]

def Holds (parts : μ → List (List α)) (ring : RingBuffer α) (writer : RingWriter μ α) : Prop :=
  ∀ message rest transaction, writer.inside = some (message, rest, transaction) →
    ∃ added, parts message = added ++ rest ∧ ring.Staged transaction added.flatten

theorem Holds.of_outside {parts : μ → List (List α)} {ring : RingBuffer α} {writer : RingWriter μ α}
    (outside : writer.inside = none) : writer.Holds parts ring := by
  intro message rest transaction inside
  rw [outside] at inside
  cases inside

theorem Holds.mono {parts : μ → List (List α)} {ring next : RingBuffer α} {writer : RingWriter μ α}
    (holds : writer.Holds parts ring)
    (keeps : ∀ transaction cells, ring.Staged transaction cells → next.Staged transaction cells) :
    writer.Holds parts next := by
  intro message rest transaction inside
  obtain ⟨added, whole, staged⟩ := holds message rest transaction inside
  exact ⟨added, whole, keeps _ _ staged⟩

/-- A step of the only writer that is inside of a write appends the messages that it commits. -/
theorem Step.holds {parts : μ → List (List α)} {ring next : RingBuffer α} {writer after : RingWriter μ α}
    {messages : List μ} (step : Step parts ring writer next after messages) (sound : ring.Sound)
    (holds : writer.Holds parts ring) :
    next.Sound ∧ after.Holds parts next ∧
      next.content = ring.content ++ stream (fun message => (parts message).flatten) messages := by
  cases step with
  | begin =>
    refine ⟨sound, ?_, (List.append_nil _).symm⟩
    rintro _ _ _ ⟨⟩
    exact ⟨[], rfl, RingBuffer.beginWrite_staged sound⟩
  | @amend _ todo message part rest transaction after amended =>
    obtain ⟨added, whole, staged⟩ := holds message (part :: rest) transaction rfl
    obtain ⟨behind, still, same⟩ := staged.amend sound amended
    refine ⟨still, ?_, by rw [same]; exact (List.append_nil _).symm⟩
    rintro _ _ _ ⟨⟩
    refine ⟨added ++ [part], by rw [whole, List.append_assoc, List.singleton_append], ?_⟩
    rwa [List.flatten_append, List.flatten_singleton]
  | drop full => exact ⟨sound, .of_outside rfl, (List.append_nil _).symm⟩
  | @commit todo message transaction =>
    obtain ⟨added, whole, staged⟩ := holds message [] transaction rfl
    obtain ⟨still, appended⟩ := staged.commit sound
    refine ⟨still, .of_outside rfl, ?_⟩
    rw [appended, stream_cons, whole, List.append_nil, stream_nil, List.append_nil]

theorem Step.not_done {parts : μ → List (List α)} {ring next : RingBuffer α} {writer after : RingWriter μ α}
    {messages : List μ} (step : Step parts ring writer next after messages) : ¬ writer.Done := by
  rintro ⟨todo, inside⟩
  cases step with
  | begin => cases todo
  | amend | drop | commit => cases inside

end RingWriter

end Foundation
