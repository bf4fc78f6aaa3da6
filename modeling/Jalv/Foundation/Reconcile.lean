import Jalv.Foundation.Replica

/-! Two sides that keep each other informed about the values of keys.

The near side shows what it was given last, and asks the far side to change a value. The far
side has the values, and tells them when it is asked or when they change. A change that is on
its way meets answers that were given before it, so that what is shown is only right for keys
that nobody asks for.
-/

set_option autoImplicit false

namespace Foundation

variable {κ α : Type} [DecidableEq κ]

theorem assigned_of_mem {entries : List (κ × α)} {key : κ} (member : key ∈ entries.map Prod.fst)
    (before other : Option α) : assigned entries key before = assigned entries key other := by
  induction entries generalizing before other with
  | nil => cases member
  | cons entry rest ih =>
    by_cases later : key ∈ rest.map Prod.fst
    · exact ih later _ _
    · rw [List.map_cons, List.mem_cons] at member
      have own := (member.resolve_right later).symm
      simp only [assigned, List.foldl_cons, if_pos own]

theorem assigned_isSome {entries : List (κ × α)} {key : κ} {before : Option α} (member : key ∈ entries.map Prod.fst) :
    (assigned entries key before).isSome := by
  induction entries generalizing before with
  | nil => cases member
  | cons entry rest ih =>
    by_cases later : key ∈ rest.map Prod.fst
    · exact ih later
    · rw [List.map_cons, List.mem_cons] at member
      have own := (member.resolve_right later).symm
      rw [assigned, List.foldl_cons, if_pos own]
      exact congrArg Option.isSome (assigned_of_not_mem later _)

/-- For each key that nobody asks for, the near side will show the value of the far side, behind all that is on
the way to it, if both know one. -/
def Reconciled (given underway : List (κ × α)) (asked : κ → Prop) (has : κ → Option α) : Prop :=
  ∀ key known value, ¬asked key → assigned underway key (assigned given key none) = some known →
    has key = some value → known = value

/-- The far side tells the last value of a key, and tells each value that changes. It answers what it is asked
for, except for keys that it does not have. What is still asked for afterwards may be as it likes. -/
structure Tells (entries : List (κ × α)) (asked unanswered : κ → Prop) (before after : κ → Option α) : Prop where
  last : ∀ key, ¬unanswered key → key ∈ entries.map Prod.fst → assigned entries key none = after key
  kept : ∀ key, ¬unanswered key → key ∉ entries.map Prod.fst → after key = before key
  answered : ∀ key, ¬unanswered key → asked key → key ∈ entries.map Prod.fst ∨ after key = none

namespace Reconciled

theorem begin (asked : κ → Prop) (has : κ → Option α) : Reconciled [] [] asked has := by
  intro key known value _ shown
  cases shown

theorem of_all {asked : κ → Prop} (all : ∀ key, asked key) (given underway : List (κ × α)) (has : κ → Option α) :
    Reconciled given underway asked has := fun key _ _ other => absurd (all key) other

variable {given underway : List (κ × α)} {asked wanted : κ → Prop} {has after : κ → Option α}

theorem mono (reconciled : Reconciled given underway asked has) (more : ∀ key, asked key → wanted key) :
    Reconciled given underway wanted has :=
  fun key known value other => reconciled key known value fun own => other (more key own)

/-- What the near side gives to itself is asked of the far side as well. -/
theorem ask {entries : List (κ × α)} (reconciled : Reconciled given underway asked has)
    (more : ∀ key, asked key → wanted key) (all : ∀ key ∈ entries.map Prod.fst, wanted key) :
    Reconciled (given ++ entries) underway wanted has := by
  intro key known value other shown
  rw [assigned_append, assigned_of_not_mem fun member => other (all key member)] at shown
  exact reconciled.mono more key known value other shown

theorem receive {taken rest : List (κ × α)} (reconciled : Reconciled given (taken ++ rest) asked has) :
    Reconciled (given ++ taken) rest asked has := by
  intro key known value other shown
  rw [assigned_append, ← assigned_append] at shown
  exact reconciled key known value other shown

theorem tell {entries : List (κ × α)} (reconciled : Reconciled given underway asked has)
    (tells : Tells entries asked wanted has after) : Reconciled given (underway ++ entries) wanted after := by
  intro key known value other shown held
  rw [assigned_append] at shown
  by_cases told : key ∈ entries.map Prod.fst
  · have last := tells.last key other told
    rw [assigned_of_mem told _ none, last, held, Option.some.injEq] at shown
    exact shown.symm
  · have free : ¬asked key := fun own => by
      rcases tells.answered key other own with answer | none
      · exact told answer
      · rw [held] at none
        cases none
    rw [assigned_of_not_mem told] at shown
    rw [tells.kept key other told] at held
    exact reconciled key known value free shown held

/-- With nothing on the way for a key, the near side shows the value of the far side. -/
theorem settled {key : κ} {known value : α} (reconciled : Reconciled given underway asked has) (free : ¬asked key)
    (silent : key ∉ underway.map Prod.fst) (shown : assigned given key none = some known)
    (held : has key = some value) : known = value :=
  reconciled key known value free (by rw [assigned_of_not_mem silent, shown]) held

end Reconciled

end Foundation
