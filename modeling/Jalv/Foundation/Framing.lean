import Mathlib.Data.List.Basic

/-! Streams of messages that are encoded one after the other. -/

set_option autoImplicit false

namespace Foundation

variable {μ α : Type}

def stream (encode : μ → List α) (messages : List μ) : List α := (messages.map encode).flatten

variable (encode : μ → List α)

@[simp] theorem stream_nil : stream encode [] = [] := rfl

@[simp] theorem stream_cons (message : μ) (rest : List μ) :
    stream encode (message :: rest) = encode message ++ stream encode rest := rfl

@[simp] theorem stream_append (first second : List μ) :
    stream encode (first ++ second) = stream encode first ++ stream encode second := by
  simp [stream]

theorem stream_concat (messages : List μ) (message : μ) :
    stream encode (messages ++ [message]) = stream encode messages ++ encode message := by
  rw [stream_append, stream_cons, stream_nil, List.append_nil]

theorem length_le_stream {encode : μ → List α} (nonempty : ∀ message, encode message ≠ []) (messages : List μ) :
    messages.length ≤ (stream encode messages).length := by
  induction messages with
  | nil => exact Nat.le_refl _
  | cons message rest ih =>
    have cells := List.length_pos_iff.mpr (nonempty message)
    rw [stream_cons, List.length_cons, List.length_append]
    omega

/-- No encoded message is the beginning of another one. -/
def PrefixFree (encode : μ → List α) : Prop :=
  ∀ first second rest others, encode first ++ rest = encode second ++ others → first = second ∧ rest = others

theorem stream_injective {encode : μ → List α} (prefixFree : PrefixFree encode)
    (nonempty : ∀ message, encode message ≠ []) : Function.Injective (stream encode) := by
  intro first second same
  induction first generalizing second with
  | nil =>
    cases second with
    | nil => rfl
    | cons message rest => exact absurd (List.append_eq_nil_iff.mp same.symm).1 (nonempty message)
  | cons message rest ih =>
    cases second with
    | nil => exact absurd (List.append_eq_nil_iff.mp same).1 (nonempty message)
    | cons other others =>
      obtain ⟨rfl, left⟩ := prefixFree _ _ _ _ same
      rw [ih left]

theorem encode_length_le_stream {messages : List μ} {message : μ} (member : message ∈ messages) :
    (encode message).length ≤ (stream encode messages).length := by
  obtain ⟨before, after, rfl⟩ := List.append_of_mem member
  rw [stream_append, stream_cons, List.length_append, List.length_append]
  omega

end Foundation
