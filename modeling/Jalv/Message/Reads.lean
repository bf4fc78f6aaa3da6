import Jalv.Foundation.Reading
import Jalv.Message.Patch

/-! What the functions for patch messages read from memory.

Each computation has the result of the function that it is named after, and lists
all reads. Sizes and keys are read again wherever the source reads them again.
-/

set_option autoImplicit false

namespace Jalv

open Foundation

namespace Reads

def wordAt (address : Nat) : Reading Byte UInt32 := .load address 4 fun cells => .done (wordValue cells)

def objectEnd (object : Nat) : Reading Byte Nat := do
  return object + sizeofAtom + (← wordAt object).toNat

def nextProperty (property : Nat) : Reading Byte Nat := do
  return property + (lv2AtomPadSize (16 + (← wordAt (property + 8)))).toNat

def objectPropertiesFrom (object : Nat) : Nat → Nat → Reading Byte (List (URID × Nat))
  | 0, _ => .fail
  | fuel + 1, property => do
    if property ≥ (← objectEnd object) then return []
    else
      let key ← wordAt property
      return (key, property + 8) :: (← objectPropertiesFrom object fuel (← nextProperty property))

def objectProperties (object : Nat) : Reading Byte (List (URID × Nat)) := do
  objectPropertiesFrom object ((← objectEnd object) - object) (object + 16)

def objectGetFrom (object : Nat) : Nat → Nat → List (URID × Option Nat) → Reading Byte (List (Option Nat))
  | 0, _, _ => .fail
  | fuel + 1, property, queries => do
    if property ≥ (← objectEnd object) then return queries.map (·.2)
    else
      let queries := answerQuery (← wordAt property) (property + 8) queries
      if queries.all (·.2.isSome) then return queries.map (·.2)
      else objectGetFrom object fuel (← nextProperty property) queries

def lv2AtomObjectGet (object : Nat) (keys : List URID) : Reading Byte (List (Option Nat)) := do
  objectGetFrom object ((← objectEnd object) - object) (object + 16) (keys.map fun key => (key, none))

def patchSetGet (forge : Forge) (urids : JalvURIDs) (object : Nat) : Reading Byte (Option (Nat × Option Nat)) := do
  match ← lv2AtomObjectGet object [urids.patchProperty, urids.patchValue] with
  | [some property, value] =>
    if (← wordAt (property + 4)) ≠ forge.urid then return none
    else return some (property, value)
  | _ => return none

def patchPutGet (forge : Forge) (urids : JalvURIDs) (object : Nat) : Reading Byte (Option Nat) := do
  match ← lv2AtomObjectGet object [urids.patchBody] with
  | [some body] =>
    if !lv2AtomForgeIsObjectType forge (← wordAt (body + 4)) then return none
    else return some body
  | _ => return none

def patchChangedProperties (forge : Forge) (urids : JalvURIDs) (object : Nat) :
    Reading Byte (List (URID × Option Nat)) := do
  let otype ← wordAt (object + 12)
  if otype = urids.patchSet then
    match ← patchSetGet forge urids object with
    | some (property, value) => return [(← wordAt (property + 8), value)]
    | none => return []
  else if otype = urids.patchPut then
    match ← patchPutGet forge urids object with
    | some body => return (← objectProperties body).map fun property => (property.1, some property.2)
    | none => return []
  else return []

section

variable {memory : Memory Byte}

@[simp] theorem run_wordAt (address : Nat) :
    (wordAt address).run memory = some (wordValue (memory.load address 4)) := rfl

@[simp] theorem run_objectEnd (object : Nat) :
    (objectEnd object).run memory = some (Jalv.objectEnd memory object) := rfl

@[simp] theorem run_nextProperty (property : Nat) :
    (nextProperty property).run memory = some (Jalv.nextProperty memory property) := rfl

theorem run_objectPropertiesFrom (object fuel property : Nat) : (objectPropertiesFrom object fuel property).run memory =
    Jalv.objectPropertiesFrom memory (Jalv.objectEnd memory object) fuel property := by
  induction fuel generalizing property with
  | zero => rfl
  | succ fuel ih =>
    rw [objectPropertiesFrom, Jalv.objectPropertiesFrom, Reading.run_bind, run_objectEnd, Option.bind_some]
    split
    · rfl
    · simp only [Reading.run_bind, run_wordAt, run_nextProperty, Option.bind_some, ih, Reading.run_pure]
      exact (Option.map_eq_bind ..).symm

@[simp] theorem run_objectProperties (object : Nat) :
    (objectProperties object).run memory = Jalv.objectProperties memory object :=
  run_objectPropertiesFrom object _ _

theorem run_objectGetFrom (object fuel property : Nat) (queries : List (URID × Option Nat)) :
    (objectGetFrom object fuel property queries).run memory =
      Jalv.objectGetFrom memory (Jalv.objectEnd memory object) fuel property queries := by
  induction fuel generalizing property queries with
  | zero => rfl
  | succ fuel ih =>
    rw [objectGetFrom, Jalv.objectGetFrom, Reading.run_bind, run_objectEnd, Option.bind_some]
    split
    · rfl
    · simp only [Reading.run_bind, run_wordAt, Option.bind_some]
      split
      · rfl
      · exact ih _ _

@[simp] theorem run_lv2AtomObjectGet (object : Nat) (keys : List URID) :
    (lv2AtomObjectGet object keys).run memory = Jalv.lv2AtomObjectGet memory object keys :=
  run_objectGetFrom object _ _ _

@[simp] theorem run_patchSetGet (forge : Forge) (urids : JalvURIDs) (object : Nat) :
    (patchSetGet forge urids object).run memory = Jalv.patchSetGet forge urids memory object := by
  rw [patchSetGet, Jalv.patchSetGet, Reading.run_bind, run_lv2AtomObjectGet]
  refine Option.bind_congr fun answers _ => ?_
  match answers with
  | [some property, value] =>
    simp only [Reading.run_bind, run_wordAt, Option.bind_some]
    exact apply_ite ..
  | [] | [none] | [some _] | none :: _ :: _ | some _ :: _ :: _ :: _ => rfl

@[simp] theorem run_patchPutGet (forge : Forge) (urids : JalvURIDs) (object : Nat) :
    (patchPutGet forge urids object).run memory = Jalv.patchPutGet forge urids memory object := by
  rw [patchPutGet, Jalv.patchPutGet, Reading.run_bind, run_lv2AtomObjectGet]
  refine Option.bind_congr fun answers _ => ?_
  match answers with
  | [some body] =>
    simp only [Reading.run_bind, run_wordAt, Option.bind_some]
    exact apply_ite ..
  | [] | [none] | none :: _ :: _ | some _ :: _ :: _ => rfl

@[simp] theorem run_patchChangedProperties (forge : Forge) (urids : JalvURIDs) (object : Nat) :
    (patchChangedProperties forge urids object).run memory = Jalv.patchChangedProperties forge urids memory object := by
  rw [patchChangedProperties, Jalv.patchChangedProperties, Reading.run_bind, run_wordAt, Option.bind_some]
  split
  · rw [Reading.run_bind, run_patchSetGet]
    refine Option.bind_congr fun found _ => ?_
    split <;> rfl
  · split
    · rw [Reading.run_bind, run_patchPutGet]
      refine Option.bind_congr fun found _ => ?_
      split
      · rw [Reading.run_bind, run_objectProperties]
        rfl
      · rfl
    · rfl

end

def queriesBehind (memory : Memory Byte) (property : Nat) (queries : List (URID × Option Nat)) :
    List (URID × Option Nat) :=
  answerQuery (wordValue (memory.load property 4)) (property + 8) queries

inductive SearchInside (memory : Memory Byte) (limit object : Nat) :
    Nat → List (URID × Option Nat) → List (Option Nat) → Prop where
  | ended {property : Nat} {queries : List (URID × Option Nat)} (behind : Jalv.objectEnd memory object ≤ property) :
      SearchInside memory limit object property queries (queries.map (·.2))
  | answered {property : Nat} {queries : List (URID × Option Nat)} (before : property < Jalv.objectEnd memory object)
      (inside : property + 4 ≤ limit) (all : (queriesBehind memory property queries).all (·.2.isSome) = true) :
      SearchInside memory limit object property queries ((queriesBehind memory property queries).map (·.2))
  | passed {property : Nat} {queries : List (URID × Option Nat)} {answers : List (Option Nat)}
      (before : property < Jalv.objectEnd memory object) (inside : property + 12 ≤ limit)
      (some : (queriesBehind memory property queries).all (·.2.isSome) = false)
      (others : SearchInside memory limit object (Jalv.nextProperty memory property)
        (queriesBehind memory property queries) answers) :
      SearchInside memory limit object property queries answers

/-- The changes that a patch message reports, where all that is read to find them is inside of the limit. -/
inductive ReportsInside (forge : Forge) (urids : JalvURIDs) (memory : Memory Byte) (limit object : Nat) :
    List (URID × Option Nat) → Prop where
  | other (set : wordValue (memory.load (object + 12) 4) ≠ urids.patchSet)
      (put : wordValue (memory.load (object + 12) 4) ≠ urids.patchPut) :
      ReportsInside forge urids memory limit object []
  | noProperty {value : Option Nat} (set : wordValue (memory.load (object + 12) 4) = urids.patchSet)
      (search : SearchInside memory limit object (object + 16)
        [(urids.patchProperty, none), (urids.patchValue, none)] [none, value]) :
      ReportsInside forge urids memory limit object []
  | noUrid {property : Nat} {value : Option Nat} (set : wordValue (memory.load (object + 12) 4) = urids.patchSet)
      (search : SearchInside memory limit object (object + 16)
        [(urids.patchProperty, none), (urids.patchValue, none)] [some property, value])
      (inside : property + 8 ≤ limit) (type : (atomAt memory property).type ≠ forge.urid) :
      ReportsInside forge urids memory limit object []
  | set {property : Nat} {value : Option Nat} (set : wordValue (memory.load (object + 12) 4) = urids.patchSet)
      (search : SearchInside memory limit object (object + 16)
        [(urids.patchProperty, none), (urids.patchValue, none)] [some property, value])
      (inside : property + 12 ≤ limit) (type : (atomAt memory property).type = forge.urid) :
      ReportsInside forge urids memory limit object [(wordValue (memory.load (property + 8) 4), value)]
  | noBody (set : wordValue (memory.load (object + 12) 4) ≠ urids.patchSet)
      (put : wordValue (memory.load (object + 12) 4) = urids.patchPut)
      (search : SearchInside memory limit object (object + 16) [(urids.patchBody, none)] [none]) :
      ReportsInside forge urids memory limit object []
  | noObject {body : Nat} (set : wordValue (memory.load (object + 12) 4) ≠ urids.patchSet)
      (put : wordValue (memory.load (object + 12) 4) = urids.patchPut)
      (search : SearchInside memory limit object (object + 16) [(urids.patchBody, none)] [some body])
      (inside : body + 8 ≤ limit) (type : lv2AtomForgeIsObjectType forge (atomAt memory body).type = false) :
      ReportsInside forge urids memory limit object []
  | put {body : Nat} {parts : List (URID × Nat)} (set : wordValue (memory.load (object + 12) 4) ≠ urids.patchSet)
      (put : wordValue (memory.load (object + 12) 4) = urids.patchPut)
      (search : SearchInside memory limit object (object + 16) [(urids.patchBody, none)] [some body])
      (inside : body + 8 ≤ limit) (type : lv2AtomForgeIsObjectType forge (atomAt memory body).type = true)
      (read : Jalv.objectProperties memory body = some parts) (headers : ∀ part ∈ parts, part.2 + 4 ≤ limit) :
      ReportsInside forge urids memory limit object (parts.map fun part => (part.1, some part.2))

section

variable {memory : Memory Byte} {limit object : Nat}

@[simp] theorem within_wordAt {address : Nat} {value : UInt32} : (wordAt address).Within memory limit value ↔
    address + 4 ≤ limit ∧ wordValue (memory.load address 4) = value := by
  rw [wordAt, Reading.within_load]
  exact and_congr_right fun _ => Reading.within_pure

@[simp] theorem within_objectEnd {stop : Nat} : (objectEnd object).Within memory limit stop ↔
    object + 4 ≤ limit ∧ Jalv.objectEnd memory object = stop := by
  simp only [objectEnd, Reading.within_bind, within_wordAt, Reading.within_pure]
  constructor
  · rintro ⟨size, ⟨inside, rfl⟩, rfl⟩
    exact ⟨inside, rfl⟩
  · rintro ⟨inside, rfl⟩
    exact ⟨_, ⟨inside, rfl⟩, rfl⟩

@[simp] theorem within_nextProperty {property next : Nat} : (nextProperty property).Within memory limit next ↔
    property + 12 ≤ limit ∧ Jalv.nextProperty memory property = next := by
  simp only [nextProperty, Reading.within_bind, within_wordAt, Reading.within_pure]
  constructor
  · rintro ⟨size, ⟨inside, rfl⟩, rfl⟩
    exact ⟨inside, rfl⟩
  · rintro ⟨inside, rfl⟩
    exact ⟨_, ⟨inside, rfl⟩, rfl⟩

theorem within_objectPropertiesFrom_succ {fuel property : Nat} {parts : List (URID × Nat)} :
    (objectPropertiesFrom object (fuel + 1) property).Within memory limit parts ↔ object + 4 ≤ limit ∧
      if Jalv.objectEnd memory object ≤ property then parts = []
      else property + 12 ≤ limit ∧ ∃ rest,
        (objectPropertiesFrom object fuel (Jalv.nextProperty memory property)).Within memory limit rest ∧
          parts = (wordValue (memory.load property 4), property + 8) :: rest := by
  rw [objectPropertiesFrom, Reading.within_bind]
  simp only [within_objectEnd]
  constructor
  · rintro ⟨stop, ⟨inside, rfl⟩, turn⟩
    refine ⟨inside, ?_⟩
    split at turn
    · next behind => rw [if_pos behind, Reading.within_pure.mp turn]
    · next before =>
      rw [if_neg before]
      simp only [Reading.within_bind, within_wordAt, within_nextProperty, Reading.within_pure] at turn
      obtain ⟨key, ⟨_, rfl⟩, next, ⟨header, rfl⟩, rest, others, same⟩ := turn
      exact ⟨header, rest, others, same.symm⟩
  · rintro ⟨inside, turn⟩
    refine ⟨_, ⟨inside, rfl⟩, ?_⟩
    split at turn
    · next behind => rw [if_pos behind, turn]; exact Reading.within_pure.mpr rfl
    · next before =>
      obtain ⟨header, rest, others, rfl⟩ := turn
      rw [if_neg before]
      simp only [Reading.within_bind, within_wordAt, within_nextProperty, Reading.within_pure]
      exact ⟨_, ⟨by omega, rfl⟩, _, ⟨header, rfl⟩, rest, others, rfl⟩

theorem within_objectPropertiesFrom {fuel property : Nat} {parts : List (URID × Nat)} :
    (objectPropertiesFrom object fuel property).Within memory limit parts ↔
      Jalv.objectPropertiesFrom memory (Jalv.objectEnd memory object) fuel property = some parts ∧
        object + 4 ≤ limit ∧ ∀ part ∈ parts, part.2 + 4 ≤ limit := by
  induction fuel generalizing property parts with
  | zero => exact iff_of_false Reading.not_within_fail (by simp [Jalv.objectPropertiesFrom])
  | succ fuel ih =>
    rw [within_objectPropertiesFrom_succ, Jalv.objectPropertiesFrom]
    split
    · rw [Option.some.injEq]
      constructor
      · rintro ⟨inside, rfl⟩
        exact ⟨rfl, inside, List.forall_mem_nil _⟩
      · rintro ⟨rfl, inside, _⟩
        exact ⟨inside, rfl⟩
    · simp only [ih, Option.map_eq_some_iff]
      constructor
      · rintro ⟨inside, header, rest, ⟨read, _, headers⟩, rfl⟩
        exact ⟨⟨rest, read, rfl⟩, inside, List.forall_mem_cons.mpr ⟨header, headers⟩⟩
      · rintro ⟨⟨rest, read, rfl⟩, inside, headers⟩
        obtain ⟨header, headers⟩ := List.forall_mem_cons.mp headers
        exact ⟨inside, header, rest, ⟨read, inside, headers⟩, rfl⟩

@[simp] theorem within_objectProperties {parts : List (URID × Nat)} :
    (objectProperties object).Within memory limit parts ↔ Jalv.objectProperties memory object = some parts ∧
      object + 4 ≤ limit ∧ ∀ part ∈ parts, part.2 + 4 ≤ limit := by
  simp only [objectProperties, Reading.within_bind, within_objectEnd, within_objectPropertiesFrom]
  constructor
  · rintro ⟨stop, ⟨_, rfl⟩, read⟩
    exact read
  · intro read
    exact ⟨_, ⟨read.2.1, rfl⟩, read⟩

def unanswered (queries : List (URID × Option Nat)) : Nat := queries.countP (·.2.isNone)

theorem answerQuery_progress (key : URID) (value : Nat) (queries : List (URID × Option Nat)) :
    unanswered (answerQuery key value queries) < unanswered queries ∨ answerQuery key value queries = queries := by
  unfold unanswered
  induction queries with
  | nil => exact Or.inr rfl
  | cons query rest ih =>
    obtain ⟨wanted, answer⟩ := query
    simp only [answerQuery]
    split
    · next found =>
      left
      rw [found.2, List.countP_cons, List.countP_cons]
      simp
    · rcases ih with less | same
      · left
        rw [List.countP_cons, List.countP_cons]
        exact Nat.add_lt_add_right less _
      · exact Or.inr (by rw [same])

theorem within_objectGetFrom_succ {fuel property : Nat} {queries : List (URID × Option Nat)}
    {answers : List (Option Nat)} :
    (objectGetFrom object (fuel + 1) property queries).Within memory limit answers ↔ object + 4 ≤ limit ∧
      if Jalv.objectEnd memory object ≤ property then queries.map (·.2) = answers
      else property + 4 ≤ limit ∧
        if (queriesBehind memory property queries).all (·.2.isSome) then
          (queriesBehind memory property queries).map (·.2) = answers
        else property + 12 ≤ limit ∧ (objectGetFrom object fuel (Jalv.nextProperty memory property)
          (queriesBehind memory property queries)).Within memory limit answers := by
  rw [objectGetFrom, Reading.within_bind]
  simp only [within_objectEnd]
  constructor
  · rintro ⟨stop, ⟨inside, rfl⟩, turn⟩
    refine ⟨inside, ?_⟩
    split at turn
    · next behind => rw [if_pos behind]; exact Reading.within_pure.mp turn
    · next before =>
      rw [if_neg before]
      obtain ⟨key, read, turn⟩ := Reading.within_bind.mp turn
      obtain ⟨header, rfl⟩ := within_wordAt.mp read
      refine ⟨header, ?_⟩
      split at turn
      · next all => rw [queriesBehind, if_pos all]; exact Reading.within_pure.mp turn
      · next some =>
        obtain ⟨next, read, turn⟩ := Reading.within_bind.mp turn
        obtain ⟨passed, rfl⟩ := within_nextProperty.mp read
        rw [queriesBehind, if_neg some]
        exact ⟨passed, turn⟩
  · rintro ⟨inside, turn⟩
    refine ⟨_, ⟨inside, rfl⟩, ?_⟩
    split at turn
    · next behind => rw [if_pos behind]; exact Reading.within_pure.mpr turn
    · next before =>
      obtain ⟨header, turn⟩ := turn
      rw [if_neg before]
      refine Reading.within_bind.mpr ⟨_, within_wordAt.mpr ⟨header, rfl⟩, ?_⟩
      unfold queriesBehind at turn
      split at turn
      · next all => simp only [if_pos all]; exact Reading.within_pure.mpr turn
      · next some =>
        obtain ⟨passed, turn⟩ := turn
        simp only [if_neg some]
        exact Reading.within_bind.mpr ⟨_, within_nextProperty.mpr ⟨passed, rfl⟩, turn⟩

/-- A turn that neither moves nor answers a query would be repeated without an end, so that the
number of turns has a bound. -/
theorem SearchInside.within {property : Nat} {queries : List (URID × Option Nat)} {answers : List (Option Nat)}
    (search : SearchInside memory limit object property queries answers) (inside : object + 4 ≤ limit) {fuel : Nat}
    (enough : Jalv.objectEnd memory object - property + unanswered queries < fuel) :
    (objectGetFrom object fuel property queries).Within memory limit answers := by
  induction search generalizing fuel with
  | @ended property queries behind =>
    obtain ⟨fuel, rfl⟩ := Nat.exists_eq_add_one_of_ne_zero (Nat.ne_of_gt (Nat.zero_lt_of_lt enough))
    exact within_objectGetFrom_succ.mpr ⟨inside, by rw [if_pos behind]⟩
  | @answered property queries before key all =>
    obtain ⟨fuel, rfl⟩ := Nat.exists_eq_add_one_of_ne_zero (Nat.ne_of_gt (Nat.zero_lt_of_lt enough))
    refine within_objectGetFrom_succ.mpr ⟨inside, ?_⟩
    rw [if_neg (Nat.not_le.mpr before), if_pos all]
    exact ⟨key, rfl⟩
  | @passed property queries answers before header some others ih =>
    by_cases stays : Jalv.nextProperty memory property = property ∧ queriesBehind memory property queries = queries
    · rw [stays.1, stays.2] at ih
      exact ih enough
    · obtain ⟨fuel, rfl⟩ := Nat.exists_eq_add_one_of_ne_zero (Nat.ne_of_gt (Nat.zero_lt_of_lt enough))
      have forward : property ≤ Jalv.nextProperty memory property := Nat.le_add_right _ _
      have less : Jalv.objectEnd memory object - Jalv.nextProperty memory property +
          unanswered (queriesBehind memory property queries) < fuel := by
        rcases answerQuery_progress (wordValue (memory.load property 4)) (property + 8) queries with fewer | same
        · unfold queriesBehind
          omega
        · have moves : Jalv.nextProperty memory property ≠ property := fun place => stays ⟨place, same⟩
          rw [queriesBehind, same]
          omega
      refine within_objectGetFrom_succ.mpr ⟨inside, ?_⟩
      rw [if_neg (Nat.not_le.mpr before), if_neg (Bool.eq_false_iff.mp some)]
      exact ⟨by omega, header, ih less⟩

theorem searchInside_of_within {fuel property : Nat} {queries : List (URID × Option Nat)} {answers : List (Option Nat)}
    (within : (objectGetFrom object fuel property queries).Within memory limit answers) :
    object + 4 ≤ limit ∧ SearchInside memory limit object property queries answers := by
  induction fuel generalizing property queries with
  | zero => exact absurd within Reading.not_within_fail
  | succ fuel ih =>
    obtain ⟨inside, turn⟩ := within_objectGetFrom_succ.mp within
    refine ⟨inside, ?_⟩
    split at turn
    · next behind =>
      cases turn
      exact .ended behind
    · next before =>
      have before := Nat.lt_of_not_le before
      obtain ⟨header, turn⟩ := turn
      split at turn
      · next all =>
        cases turn
        exact .answered before header all
      · next some => exact .passed before turn.1 (Bool.eq_false_iff.mpr some) (ih turn.2).2

theorem within_lv2AtomObjectGet {keys : List URID} (few : keys.length ≤ 7) {answers : List (Option Nat)} :
    (lv2AtomObjectGet object keys).Within memory limit answers ↔ object + 4 ≤ limit ∧
      SearchInside memory limit object (object + 16) (keys.map fun key => (key, none)) answers := by
  simp only [lv2AtomObjectGet, Reading.within_bind, within_objectEnd]
  constructor
  · rintro ⟨stop, ⟨_, rfl⟩, got⟩
    exact searchInside_of_within got
  · rintro ⟨inside, search⟩
    refine ⟨_, ⟨inside, rfl⟩, search.within inside ?_⟩
    have most : unanswered (keys.map fun key => (key, (none : Option Nat))) ≤ keys.length :=
      List.countP_le_length.trans (List.length_map _).le
    unfold Jalv.objectEnd sizeofAtom
    omega

theorem length_answerQuery (key : URID) (value : Nat) (queries : List (URID × Option Nat)) :
    (answerQuery key value queries).length = queries.length := by
  induction queries with
  | nil => rfl
  | cons query rest ih =>
    rw [answerQuery]
    split
    · rfl
    · exact congrArg (· + 1) ih

theorem SearchInside.length {property : Nat} {queries : List (URID × Option Nat)} {answers : List (Option Nat)}
    (search : SearchInside memory limit object property queries answers) : answers.length = queries.length := by
  induction search with
  | ended _ => exact List.length_map _
  | answered _ _ _ => exact (List.length_map _).trans (length_answerQuery _ _ _)
  | passed _ _ _ _ ih => exact ih.trans (length_answerQuery _ _ _)

section

variable {forge : Forge} {urids : JalvURIDs}

theorem within_patchSetGet {found : Option (Nat × Option Nat)} :
    (patchSetGet forge urids object).Within memory limit found ↔ object + 4 ≤ limit ∧
      ((∃ value, SearchInside memory limit object (object + 16)
          [(urids.patchProperty, none), (urids.patchValue, none)] [none, value] ∧ found = none) ∨
        ∃ property value, SearchInside memory limit object (object + 16)
            [(urids.patchProperty, none), (urids.patchValue, none)] [some property, value] ∧
          property + 8 ≤ limit ∧
          found = if (atomAt memory property).type ≠ forge.urid then none else some (property, value)) := by
  have got (answers : List (Option Nat)) :
      (lv2AtomObjectGet object [urids.patchProperty, urids.patchValue]).Within memory limit answers ↔ _ :=
    within_lv2AtomObjectGet (by simp)
  rw [patchSetGet, Reading.within_bind]
  simp only [got]
  constructor
  · rintro ⟨answers, ⟨inside, search⟩, rest⟩
    refine ⟨inside, ?_⟩
    obtain ⟨property, value, rfl⟩ := List.length_eq_two.mp search.length
    cases property with
    | none => exact Or.inl ⟨value, search, (Reading.within_pure.mp rest).symm⟩
    | some property =>
      obtain ⟨type, read, rest⟩ := Reading.within_bind.mp rest
      obtain ⟨header, rfl⟩ := within_wordAt.mp read
      rw [← apply_ite pure] at rest
      exact Or.inr ⟨property, value, search, header, (Reading.within_pure.mp rest).symm⟩
  · rintro ⟨inside, ⟨value, search, rfl⟩ | ⟨property, value, search, header, rfl⟩⟩
    · exact ⟨_, ⟨inside, search⟩, Reading.within_pure.mpr rfl⟩
    · refine ⟨_, ⟨inside, search⟩, Reading.within_bind.mpr ⟨_, within_wordAt.mpr ⟨header, rfl⟩, ?_⟩⟩
      rw [← apply_ite pure]
      exact Reading.within_pure.mpr rfl

theorem within_patchPutGet {found : Option Nat} :
    (patchPutGet forge urids object).Within memory limit found ↔ object + 4 ≤ limit ∧
      ((SearchInside memory limit object (object + 16) [(urids.patchBody, none)] [none] ∧ found = none) ∨
        ∃ body, SearchInside memory limit object (object + 16) [(urids.patchBody, none)] [some body] ∧
          body + 8 ≤ limit ∧
          found = if !lv2AtomForgeIsObjectType forge (atomAt memory body).type then none else some body) := by
  have got (answers : List (Option Nat)) :
      (lv2AtomObjectGet object [urids.patchBody]).Within memory limit answers ↔ _ :=
    within_lv2AtomObjectGet (by simp)
  rw [patchPutGet, Reading.within_bind]
  simp only [got]
  constructor
  · rintro ⟨answers, ⟨inside, search⟩, rest⟩
    refine ⟨inside, ?_⟩
    obtain ⟨body, rfl⟩ := List.length_eq_one_iff.mp search.length
    cases body with
    | none => exact Or.inl ⟨search, (Reading.within_pure.mp rest).symm⟩
    | some body =>
      obtain ⟨type, read, rest⟩ := Reading.within_bind.mp rest
      obtain ⟨header, rfl⟩ := within_wordAt.mp read
      rw [← apply_ite pure] at rest
      exact Or.inr ⟨body, search, header, (Reading.within_pure.mp rest).symm⟩
  · rintro ⟨inside, ⟨search, rfl⟩ | ⟨body, search, header, rfl⟩⟩
    · exact ⟨_, ⟨inside, search⟩, Reading.within_pure.mpr rfl⟩
    · refine ⟨_, ⟨inside, search⟩, Reading.within_bind.mpr ⟨_, within_wordAt.mpr ⟨header, rfl⟩, ?_⟩⟩
      rw [← apply_ite pure]
      exact Reading.within_pure.mpr rfl

theorem reportsInside_of_within {changes : List (URID × Option Nat)}
    (within : (patchChangedProperties forge urids object).Within memory limit changes) :
    object + 16 ≤ limit ∧ ReportsInside forge urids memory limit object changes := by
  rw [patchChangedProperties, Reading.within_bind] at within
  obtain ⟨otype, read, rest⟩ := within
  obtain ⟨inside, rfl⟩ := within_wordAt.mp read
  refine ⟨inside, ?_⟩
  split at rest
  · next set =>
    obtain ⟨found, got, rest⟩ := Reading.within_bind.mp rest
    obtain ⟨_, ⟨value, search, rfl⟩ | ⟨property, value, search, header, rfl⟩⟩ := within_patchSetGet.mp got
    · cases Reading.within_pure.mp rest
      exact .noProperty set search
    · by_cases type : (atomAt memory property).type = forge.urid
      · rw [if_neg (not_not.mpr type)] at rest
        obtain ⟨key, read, rest⟩ := Reading.within_bind.mp rest
        obtain ⟨body, rfl⟩ := within_wordAt.mp read
        cases Reading.within_pure.mp rest
        exact .set set search body type
      · rw [if_pos type] at rest
        cases Reading.within_pure.mp rest
        exact .noUrid set search header type
  · next set =>
    split at rest
    · next put =>
      obtain ⟨found, got, rest⟩ := Reading.within_bind.mp rest
      obtain ⟨_, ⟨search, rfl⟩ | ⟨body, search, header, rfl⟩⟩ := within_patchPutGet.mp got
      · cases Reading.within_pure.mp rest
        exact .noBody set put search
      · cases type : lv2AtomForgeIsObjectType forge (atomAt memory body).type with
        | true =>
          rw [type] at rest
          obtain ⟨parts, read, rest⟩ := Reading.within_bind.mp rest
          obtain ⟨read, _, headers⟩ := within_objectProperties.mp read
          cases Reading.within_pure.mp rest
          exact .put set put search header type read headers
        | false =>
          rw [type] at rest
          cases Reading.within_pure.mp rest
          exact .noObject set put search header type
    · next put =>
      cases Reading.within_pure.mp rest
      exact .other set put

theorem ReportsInside.within {changes : List (URID × Option Nat)}
    (reports : ReportsInside forge urids memory limit object changes) (inside : object + 16 ≤ limit) :
    (patchChangedProperties forge urids object).Within memory limit changes := by
  rw [patchChangedProperties, Reading.within_bind]
  refine ⟨_, within_wordAt.mpr ⟨by omega, rfl⟩, ?_⟩
  have size : object + 4 ≤ limit := by omega
  cases reports with
  | other set put => rw [if_neg set, if_neg put]; exact Reading.within_pure.mpr rfl
  | noProperty set search =>
    rw [if_pos set]
    exact Reading.within_bind.mpr ⟨none, within_patchSetGet.mpr ⟨size, Or.inl ⟨_, search, rfl⟩⟩,
      Reading.within_pure.mpr rfl⟩
  | noUrid set search header type =>
    rw [if_pos set]
    refine Reading.within_bind.mpr ⟨none, within_patchSetGet.mpr ⟨size, Or.inr ⟨_, _, search, header, ?_⟩⟩,
      Reading.within_pure.mpr rfl⟩
    rw [if_pos type]
  | @set property value set search body type =>
    rw [if_pos set]
    refine Reading.within_bind.mpr
      ⟨some (property, value), within_patchSetGet.mpr ⟨size, Or.inr ⟨_, _, search, ?_, ?_⟩⟩,
      Reading.within_bind.mpr ⟨_, within_wordAt.mpr ⟨body, rfl⟩, Reading.within_pure.mpr rfl⟩⟩
    · omega
    · rw [if_neg (not_not.mpr type)]
  | noBody set put search =>
    rw [if_neg set, if_pos put]
    exact Reading.within_bind.mpr ⟨none, within_patchPutGet.mpr ⟨size, Or.inl ⟨search, rfl⟩⟩,
      Reading.within_pure.mpr rfl⟩
  | noObject set put search header type =>
    rw [if_neg set, if_pos put]
    refine Reading.within_bind.mpr ⟨none, within_patchPutGet.mpr ⟨size, Or.inr ⟨_, search, header, ?_⟩⟩,
      Reading.within_pure.mpr rfl⟩
    rw [type]
    rfl
  | @put body parts set put search header type read headers =>
    rw [if_neg set, if_pos put]
    refine Reading.within_bind.mpr ⟨some body, within_patchPutGet.mpr ⟨size, Or.inr ⟨_, search, header, ?_⟩⟩,
      Reading.within_bind.mpr ⟨parts, within_objectProperties.mpr ⟨read, by omega, headers⟩,
        Reading.within_pure.mpr rfl⟩⟩
    rw [type]
    rfl

/-- A message is read inside of the limit exactly if its layout is. -/
theorem within_patchChangedProperties {changes : List (URID × Option Nat)} :
    (patchChangedProperties forge urids object).Within memory limit changes ↔
      object + 16 ≤ limit ∧ ReportsInside forge urids memory limit object changes := by
  constructor
  · intro within
    exact reportsInside_of_within within
  · rintro ⟨inside, reports⟩
    exact reports.within inside

end

end

end Reads

end Jalv
