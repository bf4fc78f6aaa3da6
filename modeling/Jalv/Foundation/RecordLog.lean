import Jalv.Foundation.Memory

/-! Logs of variable-sized records laid out one after another in a memory.

A format says how a record is encoded, how far the next record lies behind it,
and how a record is read back. `Holds` describes a region that contains exactly
a list of records. Appending at the end of a region extends the list by one
record.
-/

set_option autoImplicit false

namespace Foundation

structure RecordFormat (ρ α : Type) where
  encode : ρ → List α
  stride : ρ → Nat
  decode : Memory α → Nat → ρ
  covers : ∀ record, (encode record).length ≤ stride record
  decodes : ∀ (memory : Memory α) (start : Nat) (record : ρ),
    memory.load start (encode record).length = encode record → decode memory start = record

namespace RecordFormat

variable {ρ α : Type} (format : RecordFormat ρ α)

/-- The region from the first to the second address contains exactly these records. -/
inductive Holds (memory : Memory α) : Nat → List ρ → Nat → Prop where
  | nil (start : Nat) : Holds memory start [] start
  | cons {start stop : Nat} {record : ρ} {rest : List ρ} :
      memory.load start (format.encode record).length = format.encode record →
      Holds memory (start + format.stride record) rest stop → Holds memory start (record :: rest) stop

variable {format}

theorem Holds.le {memory : Memory α} {start stop : Nat} {records : List ρ}
    (holds : format.Holds memory start records stop) : start ≤ stop := by
  induction holds with
  | nil => exact Nat.le_refl _
  | cons _ _ ih => omega

theorem Holds.append {memory : Memory α} {start middle stop : Nat} {first second : List ρ}
    (left : format.Holds memory start first middle) (right : format.Holds memory middle second stop) :
    format.Holds memory start (first ++ second) stop := by
  induction left with
  | nil => exact right
  | cons found _ ih => exact .cons found (ih right)

theorem Holds.frame {memory : Memory α} {start stop at' : Nat} {records : List ρ} {cells : List α}
    (holds : format.Holds memory start records stop) (behind : stop ≤ at') :
    format.Holds (memory.store at' cells) start records stop := by
  induction holds with
  | nil => exact .nil _
  | @cons start stop record rest found tail ih =>
    have covered := format.covers record
    have inside := tail.le
    refine .cons ?_ (ih behind)
    rw [Memory.load_store_disjoint memory (Or.inl (by omega)), found]

theorem Holds.snoc {memory : Memory α} {start stop : Nat} {records : List ρ}
    (holds : format.Holds memory start records stop) (record : ρ) :
    format.Holds (memory.store stop (format.encode record)) start (records ++ [record])
      (stop + format.stride record) :=
  (holds.frame (Nat.le_refl stop)).append
    (.cons (Memory.load_store memory stop (format.encode record)) (.nil _))

theorem Holds.extent {memory : Memory α} {start stop : Nat} {records : List ρ}
    (holds : format.Holds memory start records stop) :
    stop = start + (records.map format.stride).sum := by
  induction holds with
  | nil => simp
  | cons _ _ ih => simp only [ih, List.map_cons, List.sum_cons]; omega

end RecordFormat

end Foundation
