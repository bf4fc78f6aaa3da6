import Jalv.Event.Atom
import Jalv.Foundation.Heap
import Mathlib.Data.UInt

/-! The value of a control (`any_value.c`).

A value of at most the size of a pointer is stored inline, a longer one in a
block of its own. Pointers have 64 bits. `none` is the result of passing an
invalid pointer to the allocator, or of writing outside a block.
-/

set_option autoImplicit false

namespace Jalv

open Foundation

def sizeofPointer : Nat := 8

/-- The union of `number` and `pointer` is one 64-bit word. -/
structure AnyValue where
  size : UInt32
  type : URID
  value : UInt64
  deriving DecidableEq

def AnyValue.zero : AnyValue := ⟨0, 0, 0⟩

structure ValueStore where
  value : AnyValue
  heap : Heap UInt64 Byte

def ValueStore.initial : ValueStore := ⟨.zero, .empty⟩

def anyValueReset (store : ValueStore) : Option ValueStore :=
  if store.value.size.toNat > sizeofPointer then
    (store.heap.free store.value.value).map fun heap => ⟨.zero, heap⟩
  else some ⟨.zero, store.heap⟩

def memcpyNumber (number : UInt64) (body : List Byte) : UInt64 :=
  UInt64.ofNat (littleValue (body ++ (little 8 number.toNat).drop body.length))

/-- Returns the status and the store. `proposal` is the answer of `realloc`. -/
def anyValueSet (proposal : Option UInt64) (store : ValueStore) (atom : Atom) :
    Option (Nat × ValueStore) := do
  let store ←
    if store.value.size.toNat > sizeofPointer ∧ atom.size.toNat < sizeofPointer then
      anyValueReset store
    else some store
  if atom.size.toNat > sizeofPointer then
    if atom.size > store.value.size then
      -- Grow allocation to accommodate new value
      let (newData, heap) ← store.heap.realloc store.value.value atom.size.toNat proposal
      match newData with
      | none =>
        let store ← anyValueReset ⟨store.value, heap⟩
        return (1, store)
      | some pointer =>
        let heap ← heap.overwrite pointer atom.body
        return (0, ⟨⟨atom.size, atom.type, pointer⟩, heap⟩)
    else
      let heap ← store.heap.overwrite store.value.value atom.body
      return (0, ⟨⟨atom.size, atom.type, store.value.value⟩, heap⟩)
  else
    return (0, ⟨⟨atom.size, atom.type, memcpyNumber store.value.value atom.body⟩, store.heap⟩)

def anyValueData (store : ValueStore) : Option (List Byte) :=
  if store.value.size.toNat > sizeofPointer then
    (store.heap.block store.value.value).map (·.take store.value.size.toNat)
  else some ((little 8 store.value.value.toNat).take store.value.size.toNat)

end Jalv
