import Jalv.Message.Changes
import Jalv.Message.Forge

/-! Objects that a forge has written, read back from memory.

What `lv2_atom_object_get` finds in an object are the values that were forged for its keys.
-/

set_option autoImplicit false

namespace Jalv

open Foundation

abbrev ForgedProperty := URID × URID × List Byte

namespace ForgedProperty

def bytes (property : ForgedProperty) : List Byte := propertyBytes property.1 property.2.1 property.2.2

def value (property : ForgedProperty) : Atom := .ofBytes property.2.1 property.2.2

end ForgedProperty

def objectBytes (otype : URID) (properties : List ForgedProperty) : List Byte :=
  word 0 ++ word otype ++ (properties.map ForgedProperty.bytes).flatten

/-- The keys of the properties that stand in memory from a place on, and the addresses of their values. -/
def valuePlaces : Nat → List ForgedProperty → List (URID × Nat)
  | _, [] => []
  | place, property :: rest => (property.1, place + 8) :: valuePlaces (place + property.bytes.length) rest

section

variable {memory : Memory Byte} {place : Nat} {property : ForgedProperty} {properties : List ForgedProperty}

theorem ForgedProperty.length_bytes (property : ForgedProperty) :
    property.bytes.length = paddedEventSize property.2.2.length := by
  simp only [bytes, propertyBytes, List.length_append, length_word, length_padded, paddedEventSize, sizeofAtomEvent]
  omega

theorem load_split {first second : List Byte} (loaded : memory.load place (first ++ second).length = first ++ second) :
    memory.load place first.length = first ∧ memory.load (place + first.length) second.length = second := by
  rw [List.length_append, Memory.load_append] at loaded
  exact List.append_inj loaded (Memory.length_load _ _ _)

theorem load_words_split {value : UInt32} {rest : List Byte}
    (loaded : memory.load place (word value ++ rest).length = word value ++ rest) :
    wordValue (memory.load place 4) = value ∧ memory.load (place + 4) rest.length = rest := by
  obtain ⟨first, behind⟩ := load_split loaded
  rw [length_word] at first behind
  exact ⟨by rw [first, wordValue_word], behind⟩

structure HoldsProperty (memory : Memory Byte) (place : Nat) (property : ForgedProperty) : Prop where
  key : wordValue (memory.load place 4) = property.1
  size : (wordValue (memory.load (place + 8) 4)).toNat = property.2.2.length
  value : atomAt memory (place + 8) = property.value

theorem holdsProperty (small : property.2.2.length < 2 ^ 32)
    (loaded : memory.load place property.bytes.length = property.bytes) : HoldsProperty memory place property := by
  simp only [ForgedProperty.bytes, propertyBytes, padded, List.append_assoc] at loaded
  obtain ⟨key, behindKey⟩ := load_words_split loaded
  obtain ⟨_, behindContext⟩ := load_words_split behindKey
  obtain ⟨size, behindSize⟩ := load_words_split behindContext
  obtain ⟨type, behindType⟩ := load_words_split behindSize
  obtain ⟨body, _⟩ := load_split behindType
  simp only [Nat.add_assoc, Nat.reduceAdd] at size type body
  have length : (UInt32.ofNat property.2.2.length).toNat = property.2.2.length := by
    rw [UInt32.toNat_ofNat', Nat.mod_eq_of_lt small]
  refine ⟨key, by rw [size, length], Atom.ext type ?_⟩
  rw [atomAt_body, ForgedProperty.value, Atom.ofBytes_body _ small]
  rw [show (atomAt memory (place + 8)).size = UInt32.ofNat property.2.2.length from size, length, Nat.add_assoc]
  exact body

/-- Properties in memory are where the reader of an object looks for them. -/
theorem holdsProperties (small : ∀ property ∈ properties, property.2.2.length < 2 ^ 32)
    (loaded : memory.load place ((properties.map ForgedProperty.bytes).flatten).length =
      (properties.map ForgedProperty.bytes).flatten) :
    HoldsProperties memory (place + ((properties.map ForgedProperty.bytes).flatten).length) place
        (valuePlaces place properties) ∧
      (valuePlaces place properties).map (fun found => (found.1, atomAt memory found.2)) =
        properties.map fun property => (property.1, property.value) := by
  induction properties generalizing place with
  | nil => exact ⟨.nil (Nat.le_refl _), rfl⟩
  | cons property rest ih =>
    obtain ⟨first, others⟩ := List.forall_mem_cons.mp small
    rw [List.map_cons, List.flatten_cons] at loaded
    obtain ⟨here, behind⟩ := load_split loaded
    have held := holdsProperty first here
    obtain ⟨laterHeld, laterValues⟩ := ih others behind
    have stride : paddedEventSize (wordValue (memory.load (place + 8) 4)).toNat = property.bytes.length := by
      rw [held.size, property.length_bytes]
    have whole : place + ((property :: rest).map ForgedProperty.bytes).flatten.length =
        place + property.bytes.length + (rest.map ForgedProperty.bytes).flatten.length := by
      rw [List.map_cons, List.flatten_cons, List.length_append, Nat.add_assoc]
    rw [whole]
    refine ⟨?_, ?_⟩
    · rw [valuePlaces, ← held.key]
      refine .cons ?_ (by rw [stride]; exact laterHeld)
      have bounds := paddedEventSize_bounds property.2.2.length
      rw [held.size, property.length_bytes]
      unfold sizeofAtomEvent at bounds
      omega
    · rw [valuePlaces, List.map_cons, List.map_cons, laterValues, held.value]

theorem holdsObject {object : Nat} {type otype : URID}
    (small : (objectBytes otype properties).length < 2 ^ 32)
    (held : atomAt memory object = .ofBytes type (objectBytes otype properties)) :
    objectType memory object = otype ∧ HoldsObject memory object (valuePlaces (object + 16) properties) ∧
      (valuePlaces (object + 16) properties).map (fun found => (found.1, atomAt memory found.2)) =
        properties.map fun property => (property.1, property.value) := by
  let values := (properties.map ForgedProperty.bytes).flatten
  have length : (objectBytes otype properties).length = 8 + values.length := by
    simp only [objectBytes, List.length_append, length_word, values]
  have size : (wordValue (memory.load object 4)).toNat = 8 + values.length := by
    have same : wordValue (memory.load object 4) = UInt32.ofNat (objectBytes otype properties).length :=
      congrArg Atom.size held
    rw [same, UInt32.toNat_ofNat', Nat.mod_eq_of_lt small, length]
  have loaded : memory.load (object + 8) (objectBytes otype properties).length = objectBytes otype properties := by
    have body := congrArg Atom.body held
    rw [Atom.ofBytes_body _ small, atomAt_body] at body
    rw [length, ← size]
    exact body
  rw [objectBytes, List.append_assoc] at loaded
  obtain ⟨_, behind⟩ := load_words_split loaded
  obtain ⟨otype, behind⟩ := load_words_split behind
  simp only [Nat.add_assoc, Nat.reduceAdd] at otype behind
  have each : ∀ property ∈ properties, property.2.2.length < 2 ^ 32 := by
    intro property member
    have part := (List.sublist_flatten_of_mem (List.mem_map_of_mem (f := ForgedProperty.bytes) member)).length_le
    have bounds := paddedEventSize_bounds property.2.2.length
    rw [property.length_bytes] at part
    simp only [values] at length
    unfold sizeofAtomEvent at bounds
    omega
  obtain ⟨properties, found⟩ := holdsProperties each behind
  have stop : objectEnd memory object = object + 16 + values.length := by
    rw [objectEnd, size]
    unfold sizeofAtom
    omega
  exact ⟨otype, ⟨by omega, by rw [stop]; exact properties⟩, found⟩

/-- A lookup by key finds the same place in two lists with the same keys. -/
theorem lookup_map {α β : Type} (change : α → β) (key : URID) (list : List (URID × α)) :
    (list.map fun found => (found.1, change found.2)).lookup key = (list.lookup key).map change := by
  induction list with
  | nil => rfl
  | cons first rest ih =>
    rw [List.map_cons, List.lookup_cons, List.lookup_cons, ih]
    cases key == first.1 <;> rfl

/-- Each of the keys of a list is found with its own value, and no other key is. -/
theorem map_lookup {β : Type} (list : List (URID × β)) (rest : List URID) (distinct : (list.map (·.1) ++ rest).Nodup) :
    (list.map (·.1) ++ rest).map (fun key => list.lookup key) = list.map (fun found => some found.2) ++ rest.map fun _ => none := by
  induction list with
  | nil => rfl
  | cons first others ih =>
    rw [List.map_cons, List.cons_append, List.nodup_cons] at distinct
    obtain ⟨absent, distinct⟩ := distinct
    rw [List.map_cons, List.cons_append, List.map_cons, List.lookup_cons, beq_self_eq_true, List.map_cons,
      List.cons_append, ← ih distinct]
    refine congrArg (List.cons (some first.2)) (List.map_congr_left fun key member => ?_)
    have other : key ≠ first.1 := fun same => absent (same ▸ member)
    rw [List.lookup_cons, beq_false_of_ne other]

/-- What `lv2_atom_object_get` finds in an object that was forged are the values of its properties. -/
theorem lv2AtomObjectGet_forged {object : Nat} {type otype : URID} {keys : List URID} (distinct : keys.Nodup)
    (small : (objectBytes otype properties).length < 2 ^ 32)
    (held : atomAt memory object = .ofBytes type (objectBytes otype properties)) :
    ∃ answers, lv2AtomObjectGet memory object keys = some answers ∧
      answers.map (Option.map (atomAt memory)) =
        keys.map fun key => (properties.lookup key).map fun value => .ofBytes value.1 value.2 := by
  obtain ⟨_, read, values⟩ := holdsObject small held
  refine ⟨_, read.get distinct, ?_⟩
  rw [List.map_map]
  refine List.map_congr_left fun key _ => ?_
  rw [Function.comp_apply, ← lookup_map, ← lookup_map, values]
  rfl

end

end Jalv
