import Jalv.Host.Addressing
import Jalv.Host.Lookup
import Jalv.Message.Reads

/-! Events from a user interface that are not sent to the plugin.

The main thread looks into an event and stores the values that it reports before it
checks its size, and before it knows whether there is room to send it.
-/

set_option autoImplicit false

namespace Jalv

open Foundation

namespace Reads

def cellsAt (address count : Nat) : Reading Byte {cells : List Byte // cells.length = count} :=
  .load address count .done

/-- `any_value_set`, where the bytes of the value are behind `body`. -/
def anyValueSet (proposal : Option UInt64) (store : ValueStore) (size : UInt32) (type : URID) (body : Nat) :
    Reading Byte (Nat × ValueStore) := do
  let store ← .ofOption <|
    if store.value.size.toNat > sizeofPointer ∧ size.toNat < sizeofPointer then anyValueReset store else some store
  if size.toNat > sizeofPointer then
    if size > store.value.size then
      match ← .ofOption (store.heap.realloc store.value.value size.toNat proposal) with
      | (none, heap) => return (1, ← .ofOption (anyValueReset ⟨store.value, heap⟩))
      | (some pointer, heap) =>
        let heap ← .ofOption (heap.overwrite pointer (← cellsAt body size.toNat))
        return (0, ⟨⟨size, type, pointer⟩, heap⟩)
    else
      let heap ← .ofOption (store.heap.overwrite store.value.value (← cellsAt body size.toNat))
      return (0, ⟨⟨size, type, store.value.value⟩, heap⟩)
  else
    return (0, ⟨⟨size, type, memcpyNumber store.value.value (← cellsAt body size.toNat)⟩, store.heap⟩)

def propertyChanged (jalv : JalvImpl) (change : URID × Option Nat) : Reading Byte JalvImpl :=
  match getPropertyControl jalv.controls change.1 with
  | some pointer => do
    let value ← .ofOption change.2
    let size ← wordAt value
    let type ← wordAt (value + 4)
    let control ← .ofOption jalv.controls[pointer]?
    let (_, stored) ← anyValueSet (jalv.proposal 0) control.value size type (value + 8)
    return { jalv with
      proposal := jalv.nextProposals
      controls := jalv.controls.set pointer { control with value := stored } }
  | none => return jalv

def changeProperties (jalv : JalvImpl) : Reading Byte JalvImpl := do
  if lv2AtomForgeIsObjectType jalv.forge (← wordAt 4) then
    (← patchChangedProperties jalv.forge jalv.urids 0).foldlM propertyChanged jalv
  else return jalv

-- The size of the atom is only read if the buffer has room for its header.
def sendEvent (jalv : JalvImpl) (uiToPlugin : ZixRing) (portIndex bufferSize : UInt32) :
    Reading Byte (JalvImpl × ZixRing) :=
  if bufferSize.toNat < sizeofAtom then return (jalv, uiToPlugin)
  else do
    let size ← wordAt 0
    if sizeofAtom + size.toNat ≠ bufferSize.toNat then return (jalv, uiToPlugin)
    else
      let type ← wordAt 4
      let body ← cellsAt 8 size.toNat
      return (jalv, (jalvWriteEvent uiToPlugin portIndex ⟨size, type, body.val, body.property⟩).2)

def jalvSendToPlugin (jalv : JalvImpl) (uiToPlugin : ZixRing) (portIndex bufferSize protocol : UInt32) :
    Reading Byte (JalvImpl × ZixRing) :=
  if portIndex.toNat ≥ jalv.ports.length then return (jalv, uiToPlugin)
  else if protocol = 0 then
    if bufferSize ≠ 4 then return (jalv, uiToPlugin)
    else do return (jalv, (jalvWriteControl uiToPlugin portIndex (← wordAt 0)).2)
  else if protocol = jalv.urids.atomEventTransfer then do
    sendEvent (← changeProperties jalv) uiToPlugin portIndex bufferSize
  else return (jalv, uiToPlugin)

section

variable {memory : Memory Byte}

@[simp] theorem run_cellsAt (address count : Nat) :
    (cellsAt address count).run memory = some ⟨memory.load address count, Memory.length_load _ _ _⟩ := rfl

theorem run_anyValueSet (proposal : Option UInt64) (store : ValueStore) (value : Nat) :
    (anyValueSet proposal store (atomAt memory value).size (atomAt memory value).type (value + 8)).run memory =
      Jalv.anyValueSet proposal store (atomAt memory value) := by
  by_cases release : store.value.size.toNat > sizeofPointer ∧ (atomAt memory value).size.toNat < sizeofPointer
  · have short : ¬(atomAt memory value).size.toNat > sizeofPointer := by omega
    rw [anyValueSet_release proposal release.1 release.2, anyValueSet, if_pos release]
    simp only [Reading.run_bind, Reading.run_ofOption, if_neg short, run_cellsAt]
    rfl
  · rw [anyValueSet, if_neg release]
    simp only [Reading.run_bind, Reading.run_ofOption, Option.bind_some]
    split
    · next long =>
      split
      · next grows =>
        rw [anyValueSet_grow proposal long grows]
        simp only [Reading.run_bind, Reading.run_ofOption]
        refine Option.bind_congr fun moved _ => ?_
        obtain ⟨newData, heap⟩ := moved
        cases newData <;> simp only [Reading.run_bind, Reading.run_ofOption, run_cellsAt] <;> rfl
      · next fits =>
        rw [anyValueSet_fit proposal long fits]
        simp only [Reading.run_bind, Reading.run_ofOption, run_cellsAt]
        rfl
    · next short =>
      rw [anyValueSet_short proposal release (Nat.not_lt.mp short)]
      rfl

@[simp] theorem run_propertyChanged (jalv : JalvImpl) (change : URID × Option Nat) :
    (propertyChanged jalv change).run memory = Jalv.propertyChanged memory jalv change := by
  rw [propertyChanged, Jalv.propertyChanged]
  cases found : getPropertyControl jalv.controls change.1 with
  | none => rfl
  | some pointer =>
    simp only [Reading.run_bind, Reading.run_ofOption, run_wordAt, Option.bind_some, Option.bind_eq_bind]
    cases change.2 with
    | none => rfl
    | some value =>
      simp only [Option.bind_some, setControlValue]
      cases jalv.controls[pointer]? with
      | none => rfl
      | some control =>
        refine (congrArg (Option.bind · _) (run_anyValueSet (jalv.proposal 0) control.value value)).trans ?_
        cases set : Jalv.anyValueSet (jalv.proposal 0) control.value (atomAt memory value) <;> simp [set]

@[simp] theorem run_changeProperties (jalv : JalvImpl) :
    (changeProperties jalv).run memory = Jalv.changeProperties jalv memory := by
  rw [changeProperties, Jalv.changeProperties, Reading.run_bind, run_wordAt, Option.bind_some]
  refine (apply_ite (Reading.run memory) _ _ _).trans (if_congr Iff.rfl ?_ rfl)
  simp only [Reading.run_bind, run_patchChangedProperties, Reading.run_foldlM, run_propertyChanged]
  rfl

theorem run_jalvSendToPlugin (jalv : JalvImpl) (uiToPlugin : ZixRing) (portIndex bufferSize protocol : UInt32) :
    (jalvSendToPlugin jalv uiToPlugin portIndex bufferSize protocol).run memory =
      Jalv.jalvSendToPlugin jalv uiToPlugin portIndex bufferSize protocol memory := by
  rw [jalvSendToPlugin, Jalv.jalvSendToPlugin]
  split
  · rfl
  · split
    · split <;> rfl
    · split
      · rw [Reading.run_bind, run_changeProperties]
        refine Option.bind_congr fun next _ => ?_
        by_cases header : bufferSize.toNat < sizeofAtom
        · rw [sendEvent, if_pos header, if_pos (Or.inl header)]
          rfl
        · rw [sendEvent, if_neg header, Reading.run_bind, run_wordAt, Option.bind_some]
          by_cases size : sizeofAtom + (atomAt memory 0).size.toNat ≠ bufferSize.toNat
          · rw [if_pos (Or.inr size)]
            exact congrArg (Reading.run memory) (if_pos size)
          · rw [if_neg (not_or.mpr ⟨header, size⟩)]
            exact congrArg (Reading.run memory) (if_neg size)
      · rfl

end

end Reads

/-- A value that leaves a store as it is: the value that is in the store, with all bytes inside of
the limit, or one for which a store without a value gets no block. -/
inductive ValueStore.Keeps (store : ValueStore) (proposal : Option UInt64) (buffer : Memory Byte) (limit value : Nat) :
    Prop where
  | held (inside : value + 8 + (atomAt buffer value).size.toNat ≤ limit) (held : store.Holds (atomAt buffer value))
  | failed (zero : store.value = .zero) (long : sizeofPointer < (atomAt buffer value).size.toNat)
      (failed : store.heap.realloc 0 (atomAt buffer value).size.toNat proposal = some (none, store.heap))

section

variable {store : ValueStore} {proposal : Option UInt64} {buffer : Memory Byte} {limit value : Nat}

theorem Reads.within_cellsAt {address count : Nat} {cells : {cells : List Byte // cells.length = count}} :
    (cellsAt address count).Within buffer limit cells ↔ address + count ≤ limit ∧
      buffer.load address count = cells.val := by
  rw [cellsAt, Reading.within_load]
  exact and_congr_right fun _ => Reading.within_pure.trans Subtype.ext_iff

theorem Reads.within_anyValueSet_short
    (kept : ¬(store.value.size.toNat > sizeofPointer ∧ (atomAt buffer value).size.toNat < sizeofPointer))
    (short : (atomAt buffer value).size.toNat ≤ sizeofPointer) :
    (∃ status, (anyValueSet proposal store (atomAt buffer value).size (atomAt buffer value).type (value + 8)).Within
      buffer limit (status, store)) ↔
    value + 8 + (atomAt buffer value).size.toNat ≤ limit ∧ store.Holds (atomAt buffer value) := by
  have fits : (atomAt buffer value).body.length ≤ 8 := (atomAt buffer value).sized.trans_le short
  have data (same : store.value.size = (atomAt buffer value).size) :
      anyValueData store = some (atomAt buffer value).body ↔
      memcpyNumber store.value.value (atomAt buffer value).body = store.value.value := by
    rw [memcpyNumber_self_iff _ fits, anyValueData, same, if_neg (Nat.not_lt.mpr short), Option.some.injEq,
      (atomAt buffer value).sized]
  rw [anyValueSet, if_neg kept]
  simp only [Reading.within_bind, Reading.within_ofOption, Option.some.injEq, exists_eq_left',
    if_neg (Nat.not_lt.mpr short), Reading.within_pure, within_cellsAt, Prod.mk.injEq]
  constructor
  · rintro ⟨status, cells, ⟨inside, loaded⟩, _, same⟩
    have size := congrArg (fun store => store.value.size) same
    have number := congrArg (fun store => store.value.value) same
    rw [← loaded] at number
    exact ⟨inside, size.symm, (congrArg (fun store => store.value.type) same).symm, (data size.symm).mpr number⟩
  · rintro ⟨inside, size, type, held⟩
    have number := (data size).mp held
    refine ⟨0, ⟨(atomAt buffer value).body, (atomAt buffer value).sized⟩, ⟨inside, rfl⟩, rfl, ?_⟩
    rw [number, ← size, ← type]

theorem Reads.within_anyValueSet_fit (long : sizeofPointer < (atomAt buffer value).size.toNat)
    (fits : ¬store.value.size < (atomAt buffer value).size) :
    (∃ status, (anyValueSet proposal store (atomAt buffer value).size (atomAt buffer value).type (value + 8)).Within
      buffer limit (status, store)) ↔
    value + 8 + (atomAt buffer value).size.toNat ≤ limit ∧ store.Holds (atomAt buffer value) := by
  have kept : ¬(store.value.size.toNat > sizeofPointer ∧ (atomAt buffer value).size.toNat < sizeofPointer) := by omega
  have data (same : store.value.size = (atomAt buffer value).size) :
      anyValueData store = some (atomAt buffer value).body ↔
      store.heap.overwrite store.value.value (atomAt buffer value).body = some store.heap := by
    rw [Heap.overwrite_self_iff, anyValueData, same, if_pos long, Option.map_eq_some_iff, (atomAt buffer value).sized]
  rw [anyValueSet, if_neg kept]
  simp only [Reading.within_bind, Reading.within_ofOption, Option.some.injEq, exists_eq_left',
    if_pos long, if_neg fits, Reading.within_pure, within_cellsAt, Prod.mk.injEq]
  constructor
  · rintro ⟨status, cells, ⟨inside, loaded⟩, heap, written, _, same⟩
    have size := congrArg (fun store => store.value.size) same
    have kept := congrArg (fun store => store.heap) same
    simp only at kept
    rw [← loaded, kept] at written
    exact ⟨inside, size.symm, (congrArg (fun store => store.value.type) same).symm, (data size.symm).mpr written⟩
  · rintro ⟨inside, size, type, held⟩
    refine ⟨0, ⟨(atomAt buffer value).body, (atomAt buffer value).sized⟩, ⟨inside, rfl⟩, _,
      (data size).mp held, rfl, ?_⟩
    rw [← size, ← type]

theorem Reads.within_anyValueSet_grow (long : sizeofPointer < (atomAt buffer value).size.toNat)
    (grows : store.value.size < (atomAt buffer value).size) :
    (∃ status, (anyValueSet proposal store (atomAt buffer value).size (atomAt buffer value).type (value + 8)).Within
      buffer limit (status, store)) ↔
    store.value = .zero ∧ store.heap.realloc 0 (atomAt buffer value).size.toNat proposal = some (none, store.heap) := by
  have kept : ¬(store.value.size.toNat > sizeofPointer ∧ (atomAt buffer value).size.toNat < sizeofPointer) := by omega
  rw [anyValueSet, if_neg kept]
  simp only [Reading.within_bind, Reading.within_ofOption, Option.some.injEq, exists_eq_left', if_pos long,
    if_pos grows]
  constructor
  · rintro ⟨status, ⟨newData, heap⟩, moved, stored⟩
    cases newData with
    | none =>
      obtain ⟨next, reset, same⟩ := Reading.within_bind.mp stored
      cases Reading.within_pure.mp same
      have heap := Heap.realloc_none moved
      subst heap
      have zero : store.value = .zero := anyValueReset_value (Reading.within_ofOption.mp reset)
      rw [zero] at moved
      exact ⟨zero, moved⟩
    | some pointer =>
      -- The new value is longer than the one that was kept
      obtain ⟨cells, _, rest⟩ := Reading.within_bind.mp stored
      obtain ⟨heap, _, same⟩ := Reading.within_bind.mp rest
      have size := congrArg (fun result => result.2.value.size) (Reading.within_pure.mp same)
      simp only at size
      rw [size] at grows
      exact absurd grows (UInt32.lt_irrefl _)
  · rintro ⟨zero, failed⟩
    refine ⟨1, (none, store.heap), by rw [zero]; exact failed,
      Reading.within_bind.mpr ⟨store, ?_, Reading.within_pure.mpr rfl⟩⟩
    exact Reading.within_ofOption.mpr (anyValueReset_zero zero)

/-- A value leaves a store as it is exactly if the store has it, or has no value and does not grow. -/
theorem Reads.within_anyValueSet_iff : (∃ status, (anyValueSet proposal store (atomAt buffer value).size
      (atomAt buffer value).type (value + 8)).Within buffer limit (status, store)) ↔
    store.Keeps proposal buffer limit value := by
  have keeps : store.Keeps proposal buffer limit value ↔
      (value + 8 + (atomAt buffer value).size.toNat ≤ limit ∧ store.Holds (atomAt buffer value)) ∨
        store.value = .zero ∧ sizeofPointer < (atomAt buffer value).size.toNat ∧
          store.heap.realloc 0 (atomAt buffer value).size.toNat proposal = some (none, store.heap) := by
    constructor
    · rintro (⟨inside, held⟩ | ⟨zero, long, failed⟩)
      · exact Or.inl ⟨inside, held⟩
      · exact Or.inr ⟨zero, long, failed⟩
    · rintro (⟨inside, held⟩ | ⟨zero, long, failed⟩)
      · exact .held inside held
      · exact .failed zero long failed
  rw [keeps]
  by_cases long : sizeofPointer < (atomAt buffer value).size.toNat
  · by_cases grows : store.value.size < (atomAt buffer value).size
    · rw [within_anyValueSet_grow long grows]
      refine ⟨fun ⟨zero, failed⟩ => Or.inr ⟨zero, long, failed⟩, ?_⟩
      rintro (⟨_, held⟩ | ⟨zero, _, failed⟩)
      · rw [held.size] at grows
        exact absurd grows (UInt32.lt_irrefl _)
      · exact ⟨zero, failed⟩
    · rw [within_anyValueSet_fit long grows]
      refine (or_iff_left ?_).symm
      rintro ⟨zero, _, _⟩
      rw [zero, UInt32.lt_iff_toNat_lt] at grows
      exact grows (Nat.zero_lt_of_lt long)
  · have short := Nat.not_lt.mp long
    have noBlock : ¬(store.value = .zero ∧ sizeofPointer < (atomAt buffer value).size.toNat ∧
        store.heap.realloc 0 (atomAt buffer value).size.toNat proposal = some (none, store.heap)) := fun failed =>
      long failed.2.1
    rw [or_iff_left noBlock]
    by_cases kept : store.value.size.toNat > sizeofPointer ∧ (atomAt buffer value).size.toNat < sizeofPointer
    · -- The block of the longer value is freed
      refine iff_of_false ?_ ?_
      · rintro ⟨status, stored⟩
        rw [anyValueSet, if_pos kept] at stored
        simp only [Reading.within_bind, Reading.within_ofOption, if_neg long, Reading.within_pure,
          Prod.mk.injEq] at stored
        obtain ⟨_, _, _, _, _, same⟩ := stored
        have size := congrArg (fun store => store.value.size) same
        simp only at size
        rw [size] at kept
        omega
      · rintro ⟨_, held⟩
        rw [held.size] at kept
        omega
    · exact within_anyValueSet_short kept short

end

def JalvImpl.answered (jalv : JalvImpl) : JalvImpl := { jalv with proposal := jalv.nextProposals }

/-- Reported changes of which each has no control, or leaves its control as it is. -/
inductive Unchanging (buffer : Memory Byte) (limit : Nat) : JalvImpl → List (URID × Option Nat) → Prop where
  | nil {jalv : JalvImpl} : Unchanging buffer limit jalv []
  | unknown {jalv : JalvImpl} {change : URID × Option Nat} {rest : List (URID × Option Nat)}
      (unknown : getPropertyControl jalv.controls change.1 = none) (others : Unchanging buffer limit jalv rest) :
      Unchanging buffer limit jalv (change :: rest)
  | known {jalv : JalvImpl} {change : URID × Option Nat} {pointer value : Nat} {control : Control}
      {rest : List (URID × Option Nat)} (known : getPropertyControl jalv.controls change.1 = some pointer)
      (nonnull : change.2 = some value) (found : jalv.controls[pointer]? = some control) (header : value + 8 ≤ limit)
      (kept : control.value.Keeps (jalv.proposal 0) buffer limit value)
      (others : Unchanging buffer limit jalv.answered rest) : Unchanging buffer limit jalv (change :: rest)

section

variable {jalv : JalvImpl} {buffer : Memory Byte} {limit : Nat}

theorem Reads.within_propertyChanged_iff {change : URID × Option Nat} {middle : JalvImpl} :
    (propertyChanged jalv change).Within buffer limit middle ∧ middle.controls = jalv.controls ↔
      getPropertyControl jalv.controls change.1 = none ∧ middle = jalv ∨
        ∃ pointer value control, getPropertyControl jalv.controls change.1 = some pointer ∧ change.2 = some value ∧
          jalv.controls[pointer]? = some control ∧ value + 8 ≤ limit ∧
          control.value.Keeps (jalv.proposal 0) buffer limit value ∧ middle = jalv.answered := by
  unfold propertyChanged
  cases known : getPropertyControl jalv.controls change.1 with
  | none =>
    simp only [Reading.within_pure]
    constructor
    · rintro ⟨rfl, _⟩
      exact Or.inl ⟨trivial, rfl⟩
    · rintro (⟨_, rfl⟩ | ⟨pointer, _, _, known, _⟩)
      · exact ⟨rfl, rfl⟩
      · cases known
  | some pointer =>
    simp only [Reading.within_bind, Reading.within_ofOption, within_wordAt, Reading.within_pure]
    constructor
    · rintro ⟨⟨value, nonnull, size, ⟨_, rfl⟩, type, ⟨header, rfl⟩, control, found, ⟨status, stored⟩, set, rfl⟩, same⟩
      obtain ⟨inside, _⟩ := List.getElem?_eq_some_iff.mp found
      have here := congrArg (·[pointer]?) same
      simp only [List.getElem?_set_self inside, found, Option.some.injEq] at here
      have kept : stored = control.value := congrArg Control.value here
      subst kept
      refine Or.inr ⟨pointer, value, control, rfl, nonnull, found, header, within_anyValueSet_iff.mp ⟨status, set⟩, ?_⟩
      simp only at same
      rw [same]
      rfl
    · rintro (⟨none, _⟩ | ⟨_, value, control, same, nonnull, found, header, keeps, rfl⟩)
      · cases none
      · cases same
        obtain ⟨status, set⟩ := within_anyValueSet_iff.mpr keeps
        have same : jalv.controls.set pointer control = jalv.controls := by
          obtain ⟨inside, rfl⟩ := List.getElem?_eq_some_iff.mp found
          exact List.set_getElem_self inside
        refine ⟨⟨value, nonnull, _, ⟨by omega, rfl⟩, _, ⟨header, rfl⟩, control, found,
          (status, control.value), set, ?_⟩, rfl⟩
        simp only
        rw [same]
        rfl

/-- All changes are read inside of the limit, and no state on the way has other controls. -/
theorem Reads.within_changes_iff {changes : List (URID × Option Nat)} :
    (∃ next, (changes.foldlM propertyChanged jalv).Within buffer limit next ∧
      ∀ part, part <+: changes → ∀ state, part.foldlM (Jalv.propertyChanged buffer) jalv = some state →
        state.controls = jalv.controls) ↔
    Unchanging buffer limit jalv changes := by
  induction changes generalizing jalv with
  | nil =>
    refine iff_of_true ⟨jalv, Reading.within_pure.mpr rfl, fun part before state folded => ?_⟩ .nil
    cases List.prefix_nil.mp before
    cases folded
    rfl
  | cons change rest ih =>
    constructor
    · rintro ⟨next, within, steps⟩
      obtain ⟨middle, first, others⟩ := Reading.within_bind.mp within
      have ran : Jalv.propertyChanged buffer jalv change = some middle :=
        (run_propertyChanged jalv change).symm.trans first.1
      have kept := steps [change] (List.prefix_append [change] rest) middle (by
        rw [List.foldlM_cons, ran]
        rfl)
      have unchanging : Unchanging buffer limit middle rest := by
        refine ih.mp ⟨next, others, fun part before state folded => ?_⟩
        rw [kept]
        refine steps (change :: part) ((List.prefix_cons_inj change).mpr before) state ?_
        rw [List.foldlM_cons, ran]
        exact folded
      rcases within_propertyChanged_iff.mp ⟨first, kept⟩ with
        ⟨unknown, rfl⟩ | ⟨pointer, value, control, known, nonnull, found, header, keeps, rfl⟩
      · exact .unknown unknown unchanging
      · exact .known known nonnull found header keeps unchanging
    · intro unchanging
      obtain ⟨middle, first, kept, others⟩ : ∃ middle, (propertyChanged jalv change).Within buffer limit middle ∧
          middle.controls = jalv.controls ∧ Unchanging buffer limit middle rest := by
        cases unchanging with
        | unknown unknown others =>
          obtain ⟨first, kept⟩ := within_propertyChanged_iff.mpr (Or.inl ⟨unknown, rfl⟩)
          exact ⟨_, first, kept, others⟩
        | known known nonnull found header keeps others =>
          obtain ⟨first, kept⟩ := within_propertyChanged_iff.mpr
            (Or.inr ⟨_, _, _, known, nonnull, found, header, keeps, rfl⟩)
          exact ⟨_, first, kept, others⟩
      obtain ⟨next, within, steps⟩ := ih.mpr others
      have ran : Jalv.propertyChanged buffer jalv change = some middle :=
        (run_propertyChanged jalv change).symm.trans first.1
      refine ⟨next, Reading.within_bind.mpr ⟨middle, first, within⟩, fun part before state folded => ?_⟩
      cases part with
      | nil =>
        cases folded
        rfl
      | cons head part =>
        obtain ⟨rfl, others⟩ := List.cons_prefix_cons.mp before
        rw [List.foldlM_cons, ran] at folded
        exact (steps part others state folded).trans kept

end

/-- The call returns without a message, has the same controls in each state that it comes
through, and reads nothing behind the bytes that it was given. -/
structure ChangesNothing (jalv : JalvImpl) (ring : ZixRing) (portIndex bufferSize : UInt32)
    (buffer : Memory Byte) : Prop where
  returns : ∃ next, jalvSendToPlugin jalv ring portIndex bufferSize jalv.urids.atomEventTransfer buffer =
    some (next, ring) ∧
    next.controls = jalv.controls
  steps : portIndex.toNat < jalv.ports.length → lv2AtomForgeIsObjectType jalv.forge (atomAt buffer 0).type →
    ∀ changes, patchChangedProperties jalv.forge jalv.urids buffer 0 = some changes → ∀ part, part <+: changes →
      ∀ state, part.foldlM (propertyChanged buffer) jalv = some state → state.controls = jalv.controls
  inside : ∀ read ∈ (Reads.jalvSendToPlugin jalv ring portIndex bufferSize jalv.urids.atomEventTransfer).reads buffer,
    read.1 + read.2 ≤ bufferSize.toNat

/-- There are bytes for the header of an atom, and an object has a whole header, reports its
changes inside of its bytes, and gives no control another value. -/
structure Harmless (jalv : JalvImpl) (bufferSize : UInt32) (buffer : Memory Byte) : Prop where
  header : sizeofAtom ≤ bufferSize.toNat
  object : lv2AtomForgeIsObjectType jalv.forge (atomAt buffer 0).type → 16 ≤ bufferSize.toNat ∧
    ∃ changes, Reads.ReportsInside jalv.forge jalv.urids buffer bufferSize.toNat 0 changes ∧
      Unchanging buffer bufferSize.toNat jalv changes

section

variable {jalv : JalvImpl} {ring : ZixRing} {portIndex bufferSize : UInt32} {buffer : Memory Byte}

theorem Reads.within_changeProperties {limit : Nat} {next : JalvImpl} :
    (changeProperties jalv).Within buffer limit next ↔ 8 ≤ limit ∧
      if lv2AtomForgeIsObjectType jalv.forge (atomAt buffer 0).type then
        ∃ changes, (16 ≤ limit ∧ ReportsInside jalv.forge jalv.urids buffer limit 0 changes) ∧
          (changes.foldlM propertyChanged jalv).Within buffer limit next
      else next = jalv := by
  have reports (changes : List (URID × Option Nat)) :
      (patchChangedProperties jalv.forge jalv.urids 0).Within buffer limit changes ↔ _ := within_patchChangedProperties
  have type : wordValue (buffer.load 4 4) = (atomAt buffer 0).type := rfl
  rw [changeProperties, Reading.within_bind]
  constructor
  · rintro ⟨_, read, rest⟩
    obtain ⟨header, rfl⟩ := within_wordAt.mp read
    refine ⟨header, ?_⟩
    rw [type] at rest
    split at rest
    · next isObject =>
      rw [if_pos isObject]
      simpa only [Reading.within_bind, reports, Nat.zero_add] using rest
    · next other =>
      rw [if_neg other]
      exact (Reading.within_pure.mp rest).symm
  · rintro ⟨header, rest⟩
    refine ⟨_, within_wordAt.mpr ⟨header, type⟩, ?_⟩
    split at rest
    · next isObject =>
      rw [if_pos isObject]
      simpa only [Reading.within_bind, reports, Nat.zero_add] using rest
    · next other =>
      rw [if_neg other]
      exact Reading.within_pure.mpr rest.symm

theorem Reads.within_sendEvent {next : JalvImpl}
    (refuses : sizeofAtom + (atomAt buffer 0).size.toNat ≠ bufferSize.toNat ∨
      ring.writeSpace < 20 + (atomAt buffer 0).size.toNat) :
    (sendEvent jalv ring portIndex bufferSize).Within buffer bufferSize.toNat (next, ring) ↔ next = jalv := by
  have size : wordValue (buffer.load 0 4) = (atomAt buffer 0).size := rfl
  unfold sendEvent
  split
  · rw [Reading.within_pure, Prod.mk.injEq]
    exact (and_iff_left rfl).trans eq_comm
  · next header =>
    unfold sizeofAtom at header refuses ⊢
    simp only [Reading.within_bind, within_wordAt]
    constructor
    · rintro ⟨_, ⟨_, rfl⟩, rest⟩
      split at rest
      · exact (congrArg Prod.fst (Reading.within_pure.mp rest)).symm
      · simp only [Reading.within_bind, Reading.within_pure] at rest
        obtain ⟨_, _, _, _, same⟩ := rest
        exact (congrArg Prod.fst same).symm
    · rintro rfl
      refine ⟨_, ⟨by omega, size⟩, ?_⟩
      split
      · exact Reading.within_pure.mpr rfl
      · next matched =>
        -- The event has the right size, so that there is no room for it
        have full := (or_iff_right matched).mp refuses
        have kept := (jalvWriteEvent_kept_iff ring portIndex (atomAt buffer 0)).mpr full
        simp only [Reading.within_bind, within_wordAt, within_cellsAt, Reading.within_pure]
        refine ⟨_, ⟨by omega, rfl⟩, ⟨(atomAt buffer 0).body, (atomAt buffer 0).sized⟩, ⟨by omega, rfl⟩, ?_⟩
        exact congrArg (Prod.mk next) kept

/-- A refused event is only looked into. -/
theorem Reads.within_jalvSendToPlugin {next : JalvImpl} (inside : portIndex.toNat < jalv.ports.length)
    (refused : jalv.Refuses ring portIndex bufferSize jalv.urids.atomEventTransfer buffer) :
    (jalvSendToPlugin jalv ring portIndex bufferSize jalv.urids.atomEventTransfer).Within buffer bufferSize.toNat
      (next, ring) ↔ (changeProperties jalv).Within buffer bufferSize.toNat next := by
  have known := jalv.urids.transferNonzero
  have refuses : sizeofAtom + (atomAt buffer 0).size.toNat ≠ bufferSize.toNat ∨
      ring.writeSpace < 20 + (atomAt buffer 0).size.toNat := by
    rcases refused with outside | ⟨zero, _⟩ | ⟨_, refuses⟩ | ⟨_, other⟩
    · omega
    · exact absurd zero known
    · exact refuses
    · exact absurd rfl other
  rw [jalvSendToPlugin, if_neg (Nat.not_le.mpr inside), if_neg known, if_pos rfl, Reading.within_bind]
  simp only [within_sendEvent refuses, exists_eq_right']

/-- A refused event changes nothing exactly if its port does not exist or it is harmless. -/
theorem changesNothing_iff
    (refused : jalv.Refuses ring portIndex bufferSize jalv.urids.atomEventTransfer buffer) :
    ChangesNothing jalv ring portIndex bufferSize buffer ↔
      (portIndex.toNat < jalv.ports.length → Harmless jalv bufferSize buffer) := by
  constructor
  · rintro ⟨⟨next, returned, kept⟩, steps, reads⟩ inside
    rw [← Reads.run_jalvSendToPlugin] at returned
    have within := (Reads.within_jalvSendToPlugin inside refused).mp ⟨returned, reads⟩
    obtain ⟨header, rest⟩ := Reads.within_changeProperties.mp within
    refine ⟨header, fun isObject => ?_⟩
    rw [if_pos isObject] at rest
    obtain ⟨changes, ⟨whole, reports⟩, folded⟩ := rest
    have called := (Reads.within_patchChangedProperties.mpr ⟨whole, reports⟩).1
    rw [Reads.run_patchChangedProperties] at called
    exact ⟨whole, changes, reports, Reads.within_changes_iff.mp ⟨next, folded, steps inside isObject changes called⟩⟩
  · intro harmless
    by_cases inside : portIndex.toNat < jalv.ports.length
    · obtain ⟨header, object⟩ := harmless inside
      by_cases isObject : lv2AtomForgeIsObjectType jalv.forge (atomAt buffer 0).type
      · obtain ⟨whole, changes, reports, unchanging⟩ := object isObject
        obtain ⟨next, folded, steps⟩ := Reads.within_changes_iff.mpr unchanging
        have changed := Reads.within_changeProperties.mpr
          ⟨header, by rw [if_pos isObject]; exact ⟨changes, ⟨whole, reports⟩, folded⟩⟩
        obtain ⟨returned, reads⟩ := (Reads.within_jalvSendToPlugin inside refused).mpr changed
        rw [Reads.run_jalvSendToPlugin] at returned
        have ran := folded.1
        simp only [Reading.run_foldlM, Reads.run_propertyChanged] at ran
        refine ⟨⟨next, returned, steps changes List.prefix_rfl next ran⟩, fun _ _ others called => ?_, reads⟩
        have same := (Reads.within_patchChangedProperties.mpr ⟨whole, reports⟩).1
        rw [Reads.run_patchChangedProperties] at same
        cases same.symm.trans called
        exact steps
      · have changed : (Reads.changeProperties jalv).Within buffer bufferSize.toNat jalv :=
          Reads.within_changeProperties.mpr ⟨header, by rw [if_neg isObject]⟩
        obtain ⟨returned, reads⟩ := (Reads.within_jalvSendToPlugin inside refused).mpr changed
        rw [Reads.run_jalvSendToPlugin] at returned
        exact ⟨⟨jalv, returned, rfl⟩, fun _ isObject' => absurd isObject' isObject, reads⟩
    · have outside := Nat.not_lt.mp inside
      refine ⟨⟨jalv, by rw [jalvSendToPlugin, if_pos outside], rfl⟩, fun valid => absurd valid inside, ?_⟩
      rw [Reads.jalvSendToPlugin, if_pos outside]
      exact List.forall_mem_nil _

/-- What the call does then does not depend on what stands behind the given bytes. -/
theorem ChangesNothing.returns_congr (nothing : ChangesNothing jalv ring portIndex bufferSize buffer)
    {other : Memory Byte} (same : ∀ address, address < bufferSize.toNat → buffer address = other address) :
    ∃ next, jalvSendToPlugin jalv ring portIndex bufferSize jalv.urids.atomEventTransfer other = some (next, ring) ∧
      next.controls = jalv.controls := by
  obtain ⟨next, returned, kept⟩ := nothing.returns
  rw [← Reads.run_jalvSendToPlugin] at returned
  have within := Reading.Within.congr ⟨returned, nothing.inside⟩ same
  exact ⟨next, (Reads.run_jalvSendToPlugin _ _ _ _ _).symm.trans within.1, kept⟩

end

def rejectedHost : JalvImpl := { lookupTestHost with
  ports := [⟨[], .event, .input, 0⟩]
  controls := [⟨.property 40, .blank [], [], 0, .initial, true, false⟩] }

/-- A patch:Set of the property to the integer 5, an object of 64 bytes. -/
def rejectedSet : Memory Byte := Memory.store (fun _ => 0) 0 <|
  word 56 ++ word rejectedHost.forge.object ++ word 0 ++ word testUrids.patchSet ++
    propertyBytes testUrids.patchProperty rejectedHost.forge.urid (word 40) ++
    propertyBytes testUrids.patchValue rejectedHost.forge.int (word 5)

theorem rejectedSet_refused :
    rejectedHost.Refuses (.empty 4095) 0 72 rejectedHost.urids.atomEventTransfer rejectedSet :=
  Or.inr (Or.inr (Or.inl ⟨rfl, Or.inl (by decide)⟩))

/-- The float 1.0 with a size of 16 bytes is refused and changes nothing. -/
theorem changesNothing_iff_test : ChangesNothing rejectedHost (.empty 4095) 0 16
    (Memory.store (fun _ => 0) 0 (word 4 ++ word rejectedHost.forge.float ++ word 0x3F800000)) := by
  refine (changesNothing_iff ?_).mpr fun _ => ⟨by decide, fun isObject => ?_⟩
  · exact Or.inr (Or.inr (Or.inl ⟨rfl, Or.inl (by decide)⟩))
  · exact absurd isObject (by decide)

/-- With a size that does not match the object, the property is set and nothing is sent. With no
bytes at all, the type of the atom is read. -/
theorem changesNothing_refuted :
    (rejectedHost.Refuses (.empty 4095) 0 72 rejectedHost.urids.atomEventTransfer rejectedSet ∧
        ¬ChangesNothing rejectedHost (.empty 4095) 0 72 rejectedSet) ∧
      rejectedHost.Refuses (.empty 4095) 0 0 rejectedHost.urids.atomEventTransfer rejectedSet ∧
        ¬ChangesNothing rejectedHost (.empty 4095) 0 0 rejectedSet := by
  refine ⟨⟨rejectedSet_refused, ?_⟩, Or.inr (Or.inr (Or.inl ⟨rfl, Or.inl (by decide)⟩)), ?_⟩
  · rintro ⟨⟨next, returned, same⟩, _, _⟩
    have value : (jalvSendToPlugin rejectedHost (.empty 4095) 0 72 rejectedHost.urids.atomEventTransfer rejectedSet).map
        (fun result => result.1.controls.map fun control => control.value.value) = some [⟨4, 1, 5⟩] := by decide
    rw [returned, Option.map_some, same] at value
    exact absurd value (by decide)
  · rintro ⟨_, _, inside⟩
    exact absurd (inside (4, 4) (by decide)) (by decide)

end Jalv
