import Jalv.Control.Control

/-! Writing an object atom into a buffer with an atom forge.

A part that does not fit into the buffer is left out, and the parts after it are
still written. `none` is a write outside of the buffer, after the offset in
32 bits has overflowed.
-/

set_option autoImplicit false

namespace Jalv

open Foundation

structure AtomForge where
  size : UInt32
  buffer : List Byte

/-- `lv2_atom_forge_raw`, and whether the bytes were written. -/
def lv2AtomForgeRaw (forge : AtomForge) (bytes : List Byte) : Option (Bool × AtomForge) :=
  if UInt32.ofNat forge.buffer.length + UInt32.ofNat bytes.length > forge.size then some (false, forge)
  else if forge.buffer.length + bytes.length ≤ forge.size.toNat then
    some (true, { forge with buffer := forge.buffer ++ bytes })
  else none

def lv2AtomForgeWrite (forge : AtomForge) (bytes : List Byte) : Option AtomForge := do
  let (written, forge) ← lv2AtomForgeRaw forge bytes
  if written then
    let size := UInt32.ofNat bytes.length
    let (_, forge) ← lv2AtomForgeRaw forge (List.replicate (lv2AtomPadSize size - size).toNat 0)
    return forge
  else return forge

/-- A forge after `lv2_atom_forge_object`. The size of the object, in its first word, is
kept up to date by all later writes. Without room for the object there is no atom to write to. -/
def lv2AtomForgeObject (types : Forge) (size : UInt32) (id otype : URID) : Option AtomForge := do
  let header := word 8 ++ word types.object ++ word id ++ word otype
  let (written, forge) ← lv2AtomForgeRaw ⟨size, []⟩ header
  if written then return forge else none

def lv2AtomForgeKey (forge : AtomForge) (key : URID) : Option AtomForge :=
  lv2AtomForgeWrite forge (word key ++ word 0)

def lv2AtomForgePrimitive (forge : AtomForge) (type : URID) (body : List Byte) : Option AtomForge :=
  lv2AtomForgeWrite forge (word (UInt32.ofNat body.length) ++ word type ++ body)

def lv2AtomForgeAtom (forge : AtomForge) (size : UInt32) (type : URID) : Option AtomForge :=
  (lv2AtomForgeRaw forge (word size ++ word type)).map (·.2)

def AtomForge.object (forge : AtomForge) (types : Forge) : Atom :=
  .ofBytes types.object (forge.buffer.drop sizeofAtom)

def padded (bytes : List Byte) : List Byte :=
  bytes ++ List.replicate ((bytes.length + 7) / 8 * 8 - bytes.length) 0

def propertyBytes (key type : URID) (body : List Byte) : List Byte :=
  word key ++ word 0 ++ padded (word (UInt32.ofNat body.length) ++ word type ++ body)

def AtomForge.append (forge : AtomForge) (bytes : List Byte) : AtomForge :=
  { forge with buffer := forge.buffer ++ bytes }

theorem length_padded (bytes : List Byte) : (padded bytes).length = (bytes.length + 7) / 8 * 8 := by
  rw [padded, List.length_append, List.length_replicate]
  omega

@[simp] theorem AtomForge.append_size (forge : AtomForge) (bytes : List Byte) :
    (forge.append bytes).size = forge.size := rfl

@[simp] theorem AtomForge.length_append (forge : AtomForge) (bytes : List Byte) :
    (forge.append bytes).buffer.length = forge.buffer.length + bytes.length := List.length_append

@[simp] theorem AtomForge.append_append (forge : AtomForge) (first second : List Byte) :
    (forge.append first).append second = forge.append (first ++ second) := by
  simp only [append, List.append_assoc]

theorem lv2AtomForgeRaw_room (forge : AtomForge) (bytes : List Byte)
    (room : forge.buffer.length + bytes.length ≤ forge.size.toNat) :
    lv2AtomForgeRaw forge bytes = some (true, forge.append bytes) := by
  have bound := forge.size.toNat_lt
  have offset : ¬ UInt32.ofNat forge.buffer.length + UInt32.ofNat bytes.length > forge.size := by
    simp only [gt_iff_lt, UInt32.not_lt, UInt32.le_iff_toNat_le, UInt32.toNat_add, UInt32.toNat_ofNat']
    omega
  rw [lv2AtomForgeRaw, if_neg offset, if_pos room, AtomForge.append]

theorem toNat_padding {bytes : List Byte} (small : bytes.length < 2 ^ 32) :
    (lv2AtomPadSize (UInt32.ofNat bytes.length) - UInt32.ofNat bytes.length).toNat =
      (bytes.length + 7) / 8 * 8 - bytes.length := by
  simp only [UInt32.toNat_sub, toNat_lv2AtomPadSize, UInt32.toNat_ofNat']
  omega

theorem lv2AtomForgeWrite_room (forge : AtomForge) (bytes : List Byte)
    (room : forge.buffer.length + (padded bytes).length ≤ forge.size.toNat) :
    lv2AtomForgeWrite forge bytes = some (forge.append (padded bytes)) := by
  have bound := forge.size.toNat_lt
  rw [length_padded] at room
  have padding := @toNat_padding bytes (by omega)
  have first := lv2AtomForgeRaw_room forge bytes (by omega)
  have second := lv2AtomForgeRaw_room (forge.append bytes)
    (List.replicate ((bytes.length + 7) / 8 * 8 - bytes.length) 0) (by
      rw [AtomForge.length_append, List.length_replicate, AtomForge.append_size]
      omega)
  simp only [lv2AtomForgeWrite, first, Option.bind_eq_bind, Option.bind_some, if_true, padding, second,
    AtomForge.append_append, Option.pure_def, padded]

/-- With room for the bytes and not for their padding, the padding is left out, or written outside of
the buffer where the offset overflows. -/
theorem lv2AtomForgeWrite_unpadded (forge : AtomForge) (bytes : List Byte)
    (room : forge.buffer.length + bytes.length ≤ forge.size.toNat)
    (full : forge.size.toNat < forge.buffer.length + (padded bytes).length) :
    lv2AtomForgeWrite forge bytes =
      if forge.buffer.length + (padded bytes).length < 2 ^ 32 then some (forge.append bytes) else none := by
  have bound := forge.size.toNat_lt
  rw [length_padded] at full ⊢
  have padding := @toNat_padding bytes (by omega)
  have first := lv2AtomForgeRaw_room forge bytes room
  have second : lv2AtomForgeRaw (forge.append bytes) (List.replicate ((bytes.length + 7) / 8 * 8 - bytes.length) 0) =
      if forge.buffer.length + (bytes.length + 7) / 8 * 8 < 2 ^ 32 then some (false, forge.append bytes) else none := by
    have offset : UInt32.ofNat (forge.append bytes).buffer.length +
          UInt32.ofNat (List.replicate ((bytes.length + 7) / 8 * 8 - bytes.length) (0 : Byte)).length >
        (forge.append bytes).size ↔ forge.buffer.length + (bytes.length + 7) / 8 * 8 < 2 ^ 32 := by
      simp only [gt_iff_lt, UInt32.lt_iff_toNat_lt, UInt32.toNat_add, UInt32.toNat_ofNat', AtomForge.length_append,
        List.length_replicate, AtomForge.append_size]
      omega
    have outside : ¬(forge.append bytes).buffer.length +
        (List.replicate ((bytes.length + 7) / 8 * 8 - bytes.length) (0 : Byte)).length ≤
          (forge.append bytes).size.toNat := by
      rw [AtomForge.length_append, List.length_replicate, AtomForge.append_size]
      omega
    rw [lv2AtomForgeRaw, if_neg outside]
    exact if_congr offset rfl rfl
  simp only [lv2AtomForgeWrite, first, Option.bind_eq_bind, Option.bind_some, if_true, padding, second]
  split <;> rfl

theorem lv2AtomForgeWrite_full (forge : AtomForge) (bytes : List Byte)
    (full : forge.size.toNat < forge.buffer.length + bytes.length) :
    lv2AtomForgeWrite forge bytes = none ∨ lv2AtomForgeWrite forge bytes = some forge := by
  have first : lv2AtomForgeRaw forge bytes = none ∨ lv2AtomForgeRaw forge bytes = some (false, forge) := by
    unfold lv2AtomForgeRaw
    split
    · exact Or.inr rfl
    · exact Or.inl (if_neg (Nat.not_le.mpr full))
  rcases first with outside | left
  · exact Or.inl (by rw [lv2AtomForgeWrite, outside]; rfl)
  · exact Or.inr (by rw [lv2AtomForgeWrite, left]; rfl)

theorem lv2AtomForge_property (forge : AtomForge) (key type : URID) (body : List Byte)
    (room : forge.buffer.length + (propertyBytes key type body).length ≤ forge.size.toNat) :
    (do lv2AtomForgePrimitive (← lv2AtomForgeKey forge key) type body) =
      some (forge.append (propertyBytes key type body)) := by
  have keyBytes : padded (word key ++ word 0) = word key ++ word 0 := by simp [padded]
  rw [propertyBytes, List.length_append] at room
  have first := lv2AtomForgeWrite_room forge (word key ++ word 0) (by rw [keyBytes]; omega)
  rw [keyBytes] at first
  have second := lv2AtomForgeWrite_room (forge.append (word key ++ word 0))
    (word (UInt32.ofNat body.length) ++ word type ++ body) (by
      rw [AtomForge.length_append, AtomForge.append_size]
      omega)
  simp only [lv2AtomForgeKey, first, lv2AtomForgePrimitive, Option.bind_eq_bind, Option.bind_some, second,
    AtomForge.append_append, propertyBytes]

end Jalv
