import Jalv.Foundation.Bytes
import Mathlib.Data.List.Basic

/-! The string interner (`symap.c`).

Symbols are kept in the order in which they were mapped. The index holds their
IDs sorted by symbol, so that a symbol is found by binary search. `none` is the
result of a read outside an array or through a null pointer.
-/

set_option autoImplicit false

namespace Jalv

open Foundation

/-- A string of C: bytes without a terminator among them. -/
structure CString where
  bytes : List Byte
  terminated : 0 ∉ bytes
  deriving DecidableEq

/-- The comparison of `strcmp`: unsigned bytes, the end of a string counting as zero. -/
def strcmpBytes : List Byte → List Byte → Int
  | [], [] => 0
  | [], second :: _ => 0 - second.toNat
  | first :: _, [] => first.toNat - 0
  | first :: firsts, second :: seconds =>
    if first = second then strcmpBytes firsts seconds else first.toNat - second.toNat

def strcmp (first second : CString) : Int := strcmpBytes first.bytes second.bytes

structure Symap where
  symbols : List CString
  index : List UInt32
  size : UInt32
  deriving DecidableEq

def symapNew : Symap := ⟨[], [], 0⟩

-- `symbols[id - 1]`
def Symap.symbolOf (map : Symap) (id : UInt32) : Option CString := map.symbols[(id - 1).toNat]?

def Symap.symbolAt (map : Symap) (i : Nat) : Option CString := map.index[i]?.bind map.symbolOf

/-- The loop of `symap_search`, with the value that `i` has when it ends. -/
def symapSearchLoop (map : Symap) (sym : CString) (lower upper i : Nat) : Option (Nat × Bool) :=
  if lower ≤ upper then
    let i := lower + (upper - lower) / 2
    match map.symbolAt i with
    | none => none
    | some symbol =>
      let cmp := strcmp symbol sym
      if cmp = 0 then some (i, true)
      else if cmp > 0 then
        if i = 0 then some (i, false) -- Avoid underflow
        else symapSearchLoop map sym lower (i - 1) i
      else symapSearchLoop map sym (i + 1) upper (i + 1)
  else some (i, false)
termination_by upper + 1 - lower
decreasing_by all_goals omega

/-- The index of `sym`, or the index where it should be inserted, and whether it was found. -/
def symapSearch (map : Symap) (sym : CString) : Option (Nat × Bool) :=
  if map.size = 0 then some (0, false)
  else
    match map.symbolAt (map.size - 1).toNat with
    | none => none
    | some symbol =>
      if strcmp symbol sym < 0 then some (map.size.toNat, false)
      else symapSearchLoop map sym 0 (map.size - 1).toNat (map.size - 1).toNat

def symapTryMap (map : Symap) (sym : CString) : Option UInt32 := do
  let (index, exact) ← symapSearch map sym
  if exact then map.index[index]? else some 0

/-- Which of the allocations of `symap_map` succeed. -/
structure SymapAllocations where
  symbols : Bool
  index : Bool
  copy : Bool
  deriving DecidableEq

def SymapAllocations.all : SymapAllocations := ⟨true, true, true⟩

def symapMap (allocations : SymapAllocations) (map : Symap) (sym : CString) :
    Option (UInt32 × Symap) := do
  let (index, exact) ← symapSearch map sym
  if exact then
    let id ← map.index[index]?
    return (id, map)
  let id := map.size + 1
  if !allocations.symbols then return (0, map)
  if !allocations.index then return (0, map)
  -- The result of malloc is passed to memcpy unchecked
  if !allocations.copy then none
  -- The index elements behind the insertion place move up by one
  return (id, ⟨map.symbols ++ [sym], map.index.take index ++ id :: map.index.drop index, id⟩)

def symapUnmap (map : Symap) (id : UInt32) : Option CString :=
  if id = 0 then none
  else if id ≤ map.size then map.symbolOf id
  else none

end Jalv
