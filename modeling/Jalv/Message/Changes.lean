import Jalv.Message.Patch

/-! Which changes a patch message reports (`patch.c`).

An object is well-formed if its properties cover its body, and if so do those of the
objects inside of it.
-/

set_option autoImplicit false

namespace Jalv

open Foundation

/-- The properties between two addresses, each with the address of its value. All of them
have their header and value before the end, which may lack the padding of the last one. -/
inductive HoldsProperties (memory : Memory Byte) (stop : Nat) : Nat → List (URID × Nat) → Prop where
  | nil {place : Nat} (ended : stop ≤ place) : HoldsProperties memory stop place []
  | cons {place : Nat} {properties : List (URID × Nat)}
      (inside : place + 16 + (wordValue (memory.load (place + 8) 4)).toNat ≤ stop)
      (others : HoldsProperties memory stop
        (place + paddedEventSize (wordValue (memory.load (place + 8) 4)).toNat) properties) :
      HoldsProperties memory stop place ((wordValue (memory.load place 4), place + 8) :: properties)

structure HoldsObject (memory : Memory Byte) (object : Nat) (properties : List (URID × Nat)) : Prop where
  -- `sizeof(LV2_Atom_Object_Body)`
  size : 8 ≤ (wordValue (memory.load object 4)).toNat
  held : HoldsProperties memory (objectEnd memory object) (object + 16) properties

inductive WellFormedAtom (forge : Forge) (memory : Memory Byte) : Nat → Prop where
  | object {address : Nat} (properties : List (URID × Nat)) (held : HoldsObject memory address properties)
      (values : ∀ property ∈ properties, WellFormedAtom forge memory property.2) :
      WellFormedAtom forge memory address
  | other {address : Nat} (other : lv2AtomForgeIsObjectType forge (atomAt memory address).type = false) :
      WellFormedAtom forge memory address

section

variable {memory : Memory Byte} {stop place object : Nat} {properties : List (URID × Nat)}

theorem HoldsProperties.length (held : HoldsProperties memory stop place properties) :
    properties.length ≤ stop - place := by
  induction held with
  | nil => exact Nat.zero_le _
  | @cons place _ inside _ ih =>
    have bounds := paddedEventSize_bounds (wordValue (memory.load (place + 8) 4)).toNat
    unfold sizeofAtomEvent at bounds
    rw [List.length_cons]
    omega

/-- A property inside of an object is too small for its padded size to overflow. -/
theorem nextProperty_eq (near : stop + 8 ≤ place + 2 ^ 32)
    (inside : place + 16 + (wordValue (memory.load (place + 8) 4)).toNat ≤ stop) :
    nextProperty memory place = place + paddedEventSize (wordValue (memory.load (place + 8) 4)).toNat := by
  rw [nextProperty, toNat_padded (by omega)]

theorem objectPropertiesFrom_eq (held : HoldsProperties memory stop place properties) (near : stop + 8 ≤ place + 2 ^ 32)
    {fuel : Nat} (enough : properties.length < fuel) :
    objectPropertiesFrom memory stop fuel place = some properties := by
  induction held generalizing fuel with
  | nil ended =>
    obtain ⟨fuel, rfl⟩ := Nat.exists_eq_add_one_of_ne_zero (Nat.ne_of_gt (Nat.zero_lt_of_lt enough))
    rw [objectPropertiesFrom, if_pos ended]
  | @cons place properties inside others ih =>
    obtain ⟨fuel, rfl⟩ := Nat.exists_eq_add_one_of_ne_zero (Nat.ne_of_gt (Nat.zero_lt_of_lt enough))
    have before : ¬place ≥ stop := by omega
    rw [objectPropertiesFrom, if_neg before, nextProperty_eq near inside,
      ih (by omega) (Nat.lt_of_succ_lt_succ enough), Option.map_some]

/-- The first property with the key of a query answers it, unless it has been answered before. -/
def answeredBy (properties : List (URID × Nat)) (query : URID × Option Nat) : URID × Option Nat :=
  (query.1, query.2.or (properties.lookup query.1))

theorem answeredBy_other {key : URID} {value : Nat} {query : URID × Option Nat}
    (other : query.1 ≠ key ∨ query.2 ≠ none) :
    answeredBy [(key, value)] query = query := by
  obtain ⟨wanted, answer⟩ := query
  cases answer with
  | some answer => rfl
  | none =>
    have differs : wanted ≠ key := other.resolve_right fun answered => answered rfl
    simp [answeredBy, List.lookup_cons, beq_false_of_ne differs]

theorem answerQuery_eq (key : URID) (value : Nat) {queries : List (URID × Option Nat)}
    (distinct : (queries.map (·.1)).Nodup) :
    answerQuery key value queries = queries.map (answeredBy [(key, value)]) := by
  induction queries with
  | nil => rfl
  | cons query rest ih =>
    obtain ⟨other, others⟩ := List.nodup_cons.mp distinct
    obtain ⟨wanted, answer⟩ := query
    rw [List.map_cons, answerQuery]
    split
    · next first =>
      obtain ⟨rfl, rfl⟩ := first
      have kept : rest.map (answeredBy [(key, value)]) = rest :=
        List.map_congr_left (fun query member => answeredBy_other (Or.inl fun same =>
          other (List.mem_map.mpr ⟨query, member, same⟩))) |>.trans (List.map_id _)
      rw [kept]
      simp [answeredBy]
    · next behind =>
      have differs : wanted ≠ key ∨ answer ≠ none := by
        rw [← Classical.not_and_iff_not_or_not]
        exact fun ⟨same, unanswered⟩ => behind ⟨same.symm, unanswered⟩
      rw [ih others, answeredBy_other differs]

theorem answeredBy_cons (key : URID) (value : Nat) (properties : List (URID × Nat)) (query : URID × Option Nat) :
    answeredBy properties (answeredBy [(key, value)] query) = answeredBy ((key, value) :: properties) query := by
  obtain ⟨wanted, answer⟩ := query
  cases answer with
  | some answer => rfl
  | none =>
    simp only [answeredBy, Option.none_or, List.lookup_cons]
    cases wanted == key <;> simp

theorem objectGetFrom_eq (held : HoldsProperties memory stop place properties) (near : stop + 8 ≤ place + 2 ^ 32)
    {fuel : Nat} (enough : properties.length < fuel) {queries : List (URID × Option Nat)}
    (distinct : (queries.map (·.1)).Nodup) :
    objectGetFrom memory stop fuel place queries = some (queries.map fun query => (answeredBy properties query).2) := by
  induction held generalizing fuel queries with
  | nil ended =>
    obtain ⟨fuel, rfl⟩ := Nat.exists_eq_add_one_of_ne_zero (Nat.ne_of_gt (Nat.zero_lt_of_lt enough))
    rw [objectGetFrom, if_pos ended]
    simp [answeredBy]
  | @cons place properties inside others ih =>
    obtain ⟨fuel, rfl⟩ := Nat.exists_eq_add_one_of_ne_zero (Nat.ne_of_gt (Nat.zero_lt_of_lt enough))
    have before : ¬place ≥ stop := by omega
    have keys (part : List (URID × Nat)) : ((queries.map (answeredBy part)).map (·.1)).Nodup := by
      rw [List.map_map]
      exact distinct
    rw [objectGetFrom, if_neg before, answerQuery_eq _ _ distinct]
    simp only
    split
    · next answered =>
      -- The loop ends early, since no later property has a query to answer
      rw [Option.some.injEq, List.map_map]
      refine List.map_congr_left fun query member => ?_
      have known : (answeredBy [(wordValue (memory.load place 4), place + 8)] query).2.isSome :=
        List.all_eq_true.mp answered _ (List.mem_map_of_mem member)
      rw [← answeredBy_cons _ _ properties query]
      exact (Option.or_of_isSome known).symm
    · rw [nextProperty_eq near inside, ih (by omega) (Nat.lt_of_succ_lt_succ enough) (keys _), List.map_map]
      simp only [Function.comp_def, answeredBy_cons]

theorem HoldsObject.near (_ : HoldsObject memory object properties) :
    objectEnd memory object + 8 ≤ object + 16 + 2 ^ 32 := by
  have bound := (wordValue (memory.load object 4)).toNat_lt
  unfold objectEnd sizeofAtom
  omega

theorem HoldsObject.enough (held : HoldsObject memory object properties) :
    properties.length < objectEnd memory object - object := by
  have length := held.held.length
  have size := held.size
  unfold objectEnd sizeofAtom at length ⊢
  omega

theorem HoldsObject.read (held : HoldsObject memory object properties) :
    objectProperties memory object = some properties :=
  objectPropertiesFrom_eq held.held held.near held.enough

/-- `lv2_atom_object_get` gives to each key the first property that has it, or null. -/
theorem HoldsObject.get (held : HoldsObject memory object properties) {keys : List URID} (distinct : keys.Nodup) :
    lv2AtomObjectGet memory object keys = some (keys.map fun key => properties.lookup key) := by
  have unanswered : ((keys.map fun key => (key, (none : Option Nat))).map (·.1)).Nodup := by
    rw [List.map_map]
    exact distinct.map_on fun _ _ _ _ same => same
  rw [lv2AtomObjectGet, objectGetFrom_eq held.held held.near held.enough unanswered, List.map_map]
  rfl

end

section

variable (forge : Forge) (urids : JalvURIDs) (memory : Memory Byte) (object : Nat) (properties : List (URID × Nat))

def objectType : URID := wordValue (memory.load (object + 12) 4)

structure PatchSetOf (property : Nat) : Prop where
  otype : objectType memory object = urids.patchSet
  found : properties.lookup urids.patchProperty = some property
  type : (atomAt memory property).type = forge.urid

structure PatchPutOf (body : Nat) : Prop where
  otype : objectType memory object = urids.patchPut
  other : objectType memory object ≠ urids.patchSet
  found : properties.lookup urids.patchBody = some body
  type : lv2AtomForgeIsObjectType forge (atomAt memory body).type

structure Reported (calls : List (URID × Option Nat)) : Prop where
  set : ∀ property value, PatchSetOf forge urids memory object properties property →
    properties.lookup urids.patchValue = some value →
      calls = [(wordValue (memory.load (property + 8) 4), some value)]
  put : ∀ body parts, PatchPutOf forge urids memory object properties body → HoldsObject memory body parts →
    calls = parts.map fun part => (part.1, some part.2)
  other : (∀ property value, PatchSetOf forge urids memory object properties property →
      properties.lookup urids.patchValue ≠ some value) →
    (∀ body, ¬PatchPutOf forge urids memory object properties body) → calls = []
  nonnull : ∀ call ∈ calls, call.2.isSome

end

section

variable {forge : Forge} {urids : JalvURIDs} {memory : Memory Byte} {object : Nat} {properties : List (URID × Nat)}

theorem HoldsObject.getSet (held : HoldsObject memory object properties)
    (distinct : urids.patchProperty ≠ urids.patchValue) :
    lv2AtomObjectGet memory object [urids.patchProperty, urids.patchValue] =
      some [properties.lookup urids.patchProperty, properties.lookup urids.patchValue] :=
  held.get (List.nodup_cons.mpr ⟨by simpa using distinct, List.nodup_singleton _⟩)

theorem patchChangedProperties_set (held : HoldsObject memory object properties)
    (distinct : urids.patchProperty ≠ urids.patchValue)
    {property : Nat} (set : PatchSetOf forge urids memory object properties property) :
    patchChangedProperties forge urids memory object =
      some [(wordValue (memory.load (property + 8) 4), properties.lookup urids.patchValue)] := by
  have otype : wordValue (memory.load (object + 12) 4) = urids.patchSet := set.otype
  have found := held.getSet distinct
  simp [patchChangedProperties, otype, patchSetGet, found, set.found, set.type]

theorem patchChangedProperties_put (held : HoldsObject memory object properties) {body : Nat}
    (put : PatchPutOf forge urids memory object properties body) {parts : List (URID × Nat)}
    (inner : HoldsObject memory body parts) :
    patchChangedProperties forge urids memory object = some (parts.map fun part => (part.1, some part.2)) := by
  have otype : wordValue (memory.load (object + 12) 4) = urids.patchPut := put.otype
  have other : wordValue (memory.load (object + 12) 4) ≠ urids.patchSet := put.other
  have found := held.get (List.nodup_singleton urids.patchBody)
  rw [otype] at other
  simp [patchChangedProperties, otype, other, patchPutGet, found, put.found, put.type, inner.read]

theorem patchChangedProperties_other (held : HoldsObject memory object properties)
    (distinct : urids.patchProperty ≠ urids.patchValue)
    (set : ∀ property, ¬PatchSetOf forge urids memory object properties property)
    (put : ∀ body, ¬PatchPutOf forge urids memory object properties body) :
    patchChangedProperties forge urids memory object = some [] := by
  by_cases isSet : objectType memory object = urids.patchSet
  · have otype : wordValue (memory.load (object + 12) 4) = urids.patchSet := isSet
    have got := held.getSet distinct
    cases found : properties.lookup urids.patchProperty with
    | none => simp [patchChangedProperties, otype, patchSetGet, got, found]
    | some property =>
      have type : (atomAt memory property).type ≠ forge.urid := fun type => set property ⟨isSet, found, type⟩
      simp [patchChangedProperties, otype, patchSetGet, got, found, type]
  · have other : wordValue (memory.load (object + 12) 4) ≠ urids.patchSet := isSet
    by_cases isPut : objectType memory object = urids.patchPut
    · have otype : wordValue (memory.load (object + 12) 4) = urids.patchPut := isPut
      have got := held.get (List.nodup_singleton urids.patchBody)
      rw [otype] at other
      cases found : properties.lookup urids.patchBody with
      | none => simp [patchChangedProperties, otype, other, patchPutGet, got, found]
      | some body =>
        have type : ¬lv2AtomForgeIsObjectType forge (atomAt memory body).type := fun type =>
          put body ⟨isPut, isSet, found, type⟩
        simp [patchChangedProperties, otype, other, patchPutGet, got, found, type]
    · have otype : wordValue (memory.load (object + 12) 4) ≠ urids.patchPut := isPut
      simp [patchChangedProperties, otype, other]

theorem HoldsObject.unique {first second : List (URID × Nat)} (held : HoldsObject memory object first)
    (again : HoldsObject memory object second) : first = second :=
  Option.some.inj (held.read.symm.trans again.read)

theorem WellFormedAtom.holds (wellFormed : WellFormedAtom forge memory object)
    (isObject : lv2AtomForgeIsObjectType forge (atomAt memory object).type) :
    ∃ properties, HoldsObject memory object properties ∧
      ∀ property ∈ properties, WellFormedAtom forge memory property.2 := by
  cases wellFormed with
  | object properties held values => exact ⟨properties, held, values⟩
  | other other =>
    rw [other] at isObject
    cases isObject

theorem reported_set (held : HoldsObject memory object properties) (distinct : urids.patchProperty ≠ urids.patchValue)
    {property value : Nat} (set : PatchSetOf forge urids memory object properties property)
    (found : properties.lookup urids.patchValue = some value) :
    ∃ calls, patchChangedProperties forge urids memory object = some calls ∧
      Reported forge urids memory object properties calls := by
  refine ⟨_, patchChangedProperties_set held distinct set, ?_⟩
  rw [found]
  constructor
  case set =>
    intro property' value' set' found'
    cases set.found.symm.trans set'.found
    cases found.symm.trans found'
    rfl
  case put => exact fun _ _ put _ => absurd set.otype put.other
  case other => exact fun incomplete _ => absurd found (incomplete property value set)
  case nonnull => simp

theorem reported_put (held : HoldsObject memory object properties) {body : Nat} {parts : List (URID × Nat)}
    (put : PatchPutOf forge urids memory object properties body) (inner : HoldsObject memory body parts) :
    ∃ calls, patchChangedProperties forge urids memory object = some calls ∧
      Reported forge urids memory object properties calls := by
  refine ⟨_, patchChangedProperties_put held put inner, ?_⟩
  constructor
  case set => exact fun _ _ set => absurd set.otype put.other
  case put =>
    intro body' parts' put' inner'
    cases put.found.symm.trans put'.found
    rw [inner.unique inner']
  case other => exact fun _ incomplete => absurd put (incomplete body)
  case nonnull =>
    intro call member
    obtain ⟨part, _, rfl⟩ := List.mem_map.mp member
    rfl

/-- A well-formed object is read to its end and reports what it asks for, unless it is a
patch:Set of a property without a value. -/
theorem reported_iff (isObject : lv2AtomForgeIsObjectType forge (atomAt memory object).type)
    (wellFormed : WellFormedAtom forge memory object) (held : HoldsObject memory object properties)
    (distinct : urids.patchProperty ≠ urids.patchValue) :
    (∃ calls, patchChangedProperties forge urids memory object = some calls ∧
        Reported forge urids memory object properties calls) ↔
      ∀ property, PatchSetOf forge urids memory object properties property →
        (properties.lookup urids.patchValue).isSome := by
  constructor
  · rintro ⟨calls, called, reported⟩ property set
    cases (patchChangedProperties_set held distinct set).symm.trans called
    exact reported.nonnull _ (List.mem_singleton_self _)
  · intro complete
    by_cases isSet : ∃ property, PatchSetOf forge urids memory object properties property
    · obtain ⟨property, set⟩ := isSet
      obtain ⟨value, found⟩ := Option.isSome_iff_exists.mp (complete property set)
      exact reported_set held distinct set found
    · have noSet := not_exists.mp isSet
      by_cases isPut : ∃ body, PatchPutOf forge urids memory object properties body
      · obtain ⟨body, put⟩ := isPut
        obtain ⟨properties', held', values⟩ := wellFormed.holds isObject
        rw [held'.unique held] at values
        have member : (urids.patchBody, body) ∈ properties := by
          obtain ⟨before, behind, same, _⟩ := List.lookup_eq_some_iff.mp put.found
          simp [same]
        obtain ⟨parts, inner, _⟩ := (values _ member).holds put.type
        exact reported_put held put inner
      · refine ⟨[], patchChangedProperties_other held distinct noSet (not_exists.mp isPut), ?_⟩
        constructor
        case set => exact fun property _ set => absurd set (noSet property)
        case put => exact fun body _ put => absurd ⟨body, put⟩ isPut
        case other => exact fun _ _ => rfl
        case nonnull => simp

end

def patchForge : Forge := ⟨20, 21, 22, 23, 24, 25, 26, 27, 28, 29, 30, 31⟩

/-- A patch:Set with a property of type URID and no value. -/
def setWithoutValue : Memory Byte := Memory.store (fun _ => 0) 0 <|
  word 32 ++ word patchForge.object ++ word 0 ++ word testUrids.patchSet ++
    word testUrids.patchProperty ++ word 0 ++ word 4 ++ word patchForge.urid ++ word 40 ++ word 0

theorem setWithoutValue_holds : HoldsObject setWithoutValue 0 [(testUrids.patchProperty, 24)] where
  size := by decide
  held := .cons (by decide) (.nil (by decide))

theorem setWithoutValue_wellFormed : WellFormedAtom patchForge setWithoutValue 0 :=
  .object _ setWithoutValue_holds fun property member => by
    cases List.mem_singleton.mp member
    exact .other (by decide)

def setWithValue : Memory Byte := Memory.store (fun _ => 0) 0 <|
  word 56 ++ word patchForge.object ++ word 0 ++ word testUrids.patchSet ++
    word testUrids.patchProperty ++ word 0 ++ word 4 ++ word patchForge.urid ++ word 40 ++ word 0 ++
    word testUrids.patchValue ++ word 0 ++ word 4 ++ word patchForge.int ++ word 5 ++ word 0

def setWithValueProperties : List (URID × Nat) := [(testUrids.patchProperty, 24), (testUrids.patchValue, 48)]

theorem setWithValue_holds : HoldsObject setWithValue 0 setWithValueProperties where
  size := by decide
  held := .cons (by decide) (.cons (by decide) (.nil (by decide)))

theorem reported_iff_test : ∃ calls, patchChangedProperties patchForge testUrids setWithValue 0 = some calls ∧
    Reported patchForge testUrids setWithValue 0 setWithValueProperties calls := by
  have wellFormed : WellFormedAtom patchForge setWithValue 0 :=
    .object _ setWithValue_holds fun property member => by
      rcases List.mem_pair.mp member with rfl | rfl <;> exact .other (by decide)
  exact (reported_iff (by decide) wellFormed setWithValue_holds (by decide)).mpr fun _ _ => rfl

/-- The callback is called with null. -/
theorem reported_refuted : WellFormedAtom patchForge setWithoutValue 0 ∧
    patchChangedProperties patchForge testUrids setWithoutValue 0 = some [(40, none)] ∧
    ¬∃ calls, patchChangedProperties patchForge testUrids setWithoutValue 0 = some calls ∧
      Reported patchForge testUrids setWithoutValue 0 [(testUrids.patchProperty, 24)] calls := by
  have called : patchChangedProperties patchForge testUrids setWithoutValue 0 = some [(40, none)] := by decide
  refine ⟨setWithoutValue_wellFormed, called, ?_⟩
  rintro ⟨calls, again, reported⟩
  cases called.symm.trans again
  exact absurd (reported.nonnull _ (List.mem_singleton_self _)) Bool.false_ne_true

end Jalv
