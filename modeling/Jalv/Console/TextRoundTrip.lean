import Jalv.Console.PrintControl
import Jalv.Host.SetAgain

/-! Setting a control to the text that is printed for it.

A text is printed between quotes as it is, and read up to the first quote that is not
behind a backslash, where an escaped quote and the character after it are skipped.
-/

set_option autoImplicit false

namespace Jalv

open Foundation

inductive Scans : Text → Prop where
  | nil : Scans []
  | plain {char : Byte} {rest : Text} (quote : char ≠ 34) (backslash : char ≠ 92) : Scans rest → Scans (char :: rest)
  | escaped {char : Byte} {rest : Text} : Scans rest → Scans (92 :: 34 :: char :: rest)

section

variable {start before text rest : Text}

theorem charAt_append (before : Text) (char : Byte) (rest : Text) :
    charAt (before ++ char :: rest) before.length = some char := by
  have inside : before.length < (before ++ char :: rest).length := by simp
  rw [charAt, if_pos inside, List.getElem?_append_right (Nat.le_refl _), Nat.sub_self]
  rfl

/-- The scan stops at a quote, not before the position at which it begins. -/
theorem quotedLength_stops {fuel len stop : Nat} (scanned : quotedLength start fuel len = some (.ok stop)) :
    len ≤ stop ∧ stop < start.length := by
  induction fuel generalizing len with
  | zero => cases scanned
  | succ fuel ih =>
    obtain ⟨char, here, scanned⟩ := Option.bind_eq_some_iff.mp scanned
    split at scanned
    · next quote =>
      cases scanned
      refine ⟨Nat.le_refl _, ?_⟩
      by_contra behind
      unfold charAt at here
      rw [if_neg behind, quote] at here
      split at here <;> cases here
    · split at scanned
      · obtain ⟨escaped, next, scanned⟩ := Option.bind_eq_some_iff.mp scanned
        split at scanned
        · have later := ih scanned
          omega
        · cases scanned
      · have later := ih scanned
        omega

theorem quotedLength_complete (scans : Scans text) (before rest : Text) {fuel : Nat} (enough : text.length < fuel) :
    quotedLength (before ++ text ++ 34 :: rest) fuel before.length = some (.ok (before.length + text.length)) := by
  induction scans generalizing before fuel with
  | nil =>
    obtain _ | fuel := fuel
    · cases enough
    simp only [List.append_nil, quotedLength, charAt_append]
    rfl
  | @plain char others quote backslash _ ih =>
    obtain _ | fuel := fuel
    · cases enough
    have later := ih (before ++ [char]) (Nat.lt_of_succ_lt_succ enough)
    have length : (before ++ [char]).length = before.length + 1 := List.length_append
    rw [length, List.append_assoc before, List.singleton_append] at later
    simp only [List.append_assoc, List.cons_append] at later ⊢
    rw [quotedLength, charAt_append, Option.bind_eq_bind, Option.bind_some, if_neg quote, if_neg backslash, later,
      List.length_cons, Nat.add_assoc, Nat.add_comm 1]
  | @escaped char others _ ih =>
    obtain _ | fuel := fuel
    · cases enough
    have behind : others.length < fuel := by
      simp only [List.length_cons] at enough
      omega
    have later := ih (before ++ [92, 34, char]) behind
    have length : (before ++ [92, 34, char]).length = before.length + 3 := List.length_append
    have next := charAt_append (before ++ [92]) 34 (char :: (others ++ 34 :: rest))
    have nextLength : (before ++ [92]).length = before.length + 1 := List.length_append
    rw [length] at later
    rw [nextLength] at next
    simp only [List.append_assoc, List.cons_append, List.nil_append] at later next ⊢
    rw [quotedLength, charAt_append, Option.bind_eq_bind, Option.bind_some, if_neg (by decide), if_pos rfl, next,
      Option.bind_some, if_pos rfl, later, List.length_cons, List.length_cons, List.length_cons, Nat.add_assoc,
      Nat.add_comm 3]

theorem quotedLength_sound {fuel : Nat}
    (scanned : quotedLength (before ++ text ++ [34]) fuel before.length = some (.ok (before.length + text.length))) :
    Scans text := by
  induction fuel generalizing before text with
  | zero => cases scanned
  | succ fuel ih =>
    cases text with
    | nil => exact .nil
    | cons char others =>
      rw [List.append_assoc, List.cons_append, quotedLength, charAt_append, Option.bind_eq_bind, Option.bind_some]
        at scanned
      split at scanned
      · have same : before.length = before.length + (char :: others).length := Except.ok.inj (Option.some.inj scanned)
        simp at same
      · next quote =>
        split at scanned
        · next backslash =>
          subst backslash
          obtain ⟨escaped, next, scanned⟩ := Option.bind_eq_some_iff.mp scanned
          split at scanned
          · next isQuote =>
            subst isQuote
            -- The quote that closes the text is passed unless two characters follow the backslash
            have far := (quotedLength_stops scanned).1
            obtain _ | ⟨second, _ | ⟨third, others⟩⟩ := others
            · simp at far
            · simp at far
            · have nextLength : (before ++ [92]).length = before.length + 1 := List.length_append
              have here := charAt_append (before ++ [92]) second (third :: (others ++ [34]))
              rw [nextLength, List.append_assoc] at here
              cases here.symm.trans next
              have length : (before ++ [92, 34, third]).length = before.length + 3 := List.length_append
              refine .escaped (@ih (before ++ [92, 34, third]) others ?_)
              rw [length, List.append_assoc, List.append_assoc]
              simp only [List.length_cons] at scanned
              have total : before.length + 3 + others.length = before.length + (others.length + 1 + 1 + 1) := by omega
              rw [total]
              exact scanned
          · cases scanned
        · next backslash =>
          have length : (before ++ [char]).length = before.length + 1 := List.length_append
          refine .plain quote backslash (@ih (before ++ [char]) others ?_)
          rw [length, List.append_assoc, List.append_assoc]
          rw [List.length_cons, ← Nat.succ_eq_add_one, Nat.add_succ] at scanned
          have total : before.length + 1 + others.length = (before.length + others.length).succ := by omega
          rw [total]
          exact scanned

/-- A quoted text is measured correctly exactly if the scan runs through it, and is otherwise cut short. -/
theorem quotedLength_quoted {result : Except Unit Nat} {fuel : Nat} (enough : text.length < fuel)
    (scanned : quotedLength (text ++ [34]) fuel 0 = some result) :
    (Scans text ∧ result = .ok text.length) ∨ ¬Scans text ∧ ∀ stop, result = .ok stop → stop < text.length := by
  by_cases scans : Scans text
  · have complete := quotedLength_complete scans [] [] enough
    rw [List.nil_append, List.length_nil, Nat.zero_add] at complete
    exact Or.inl ⟨scans, (Option.some.inj (complete.symm.trans scanned)).symm⟩
  · refine Or.inr ⟨scans, ?_⟩
    rintro stop rfl
    have inside := (quotedLength_stops scanned).2
    rw [List.length_append, List.length_singleton] at inside
    refine Nat.lt_of_le_of_ne (Nat.le_of_lt_succ inside) ?_
    rintro rfl
    have empty : (([] : Text) ++ text ++ [34]) = text ++ [34] := rfl
    refine scans (@quotedLength_sound [] text fuel ?_)
    rw [empty, List.length_nil, Nat.zero_add]
    exact scanned

end

/-- A value of a type that is not printed with a point: an integer, a truth value, a string or a path. -/
inductive TypedValue where
  | int (value : Int32)
  | long (value : Int64)
  | bool (value : Bool)
  | string (isPath : Bool) (text : Text)

def TypedValue.type (forge : Forge) : TypedValue → URID
  | .int _ => forge.int
  | .long _ => forge.long
  | .bool _ => forge.bool
  | .string isPath _ => if isPath then forge.path else forge.string

def TypedValue.atom (forge : Forge) (value : TypedValue) : Atom :=
  .ofBytes (value.type forge) <|
    match value with
    | .int value => word value.toUInt32
    | .long value => little 8 value.toUInt64.toNat
    | .bool value => [if value then 1 else 0]
    | .string _ chars => chars ++ [0]

/-- The store has the value. A truth value has one or four bytes, and is taken from the first four. -/
def TypedValue.HeldBy (forge : Forge) (store : ValueStore) (value : TypedValue) : Prop :=
  match value with
  | .bool truth => store.value.type = forge.bool ∧ (store.value.size = 1 ∨ store.value.size = 4) ∧
      (truth = true ↔ store.value.value.toUInt32 ≠ 0)
  | .string _ chars => (0 ∉ chars ∧ chars.length + 1 < 2 ^ 32) ∧ store.Holds (value.atom forge)
  | .int _ => store.Holds (value.atom forge)
  | .long _ => store.Holds (value.atom forge)

/-- The printed text stands for the value: it is not a false truth value, and the scan for the closing
quote runs through it. -/
def TypedValue.Readable : TypedValue → Prop
  | .bool truth => truth = true
  | .string _ chars => Scans chars
  | .int _ => True
  | .long _ => True

def JalvImpl.Has (jalv : JalvImpl) (pointer : Nat) (value : TypedValue) : Prop :=
  ∃ control, jalv.controls[pointer]? = some control ∧ control.valueType = value.type jalv.forge ∧
    value.HeldBy jalv.forge control.value

/-- With anything in the message buffer, setting the control to what is printed behind its symbol, with or
without the end of the line, succeeds and leaves the control with its value. -/
def TextRoundTrip (printNumber : AnyValue → Text) (strtod : Text → UInt64) (jalv : JalvImpl) (ring : ZixRing)
    (pointer : Nat) (control : Control) (value : TypedValue) : Prop :=
  ∀ uiMsg ending, ending = [] ∨ ending = [10] → ∃ text next after,
    printControlValue printNumber jalv.forge control = some (control.symbol ++ [32, 61, 32] ++ (text ++ [10])) ∧
    setControlFromString ⟨strtod, strtolBits⟩ (jalv.written uiMsg) ring pointer (text ++ ending) =
      some (0, next, after) ∧ next.Has pointer value

section

variable {store : ValueStore} {atom : Atom}

theorem ValueStore.Holds.bytes (held : store.Holds atom) : ∃ rest, anyValueBytes store = some (atom.body ++ rest) := by
  have data := held.data
  unfold anyValueBytes
  unfold anyValueData at data
  split at data
  · next long =>
    obtain ⟨cells, block, taken⟩ := Option.map_eq_some_iff.mp data
    refine ⟨cells.drop store.value.size.toNat, ?_⟩
    rw [if_pos long, block, ← taken, List.take_append_drop]
  · next short =>
    refine ⟨(little 8 store.value.value.toNat).drop store.value.size.toNat, ?_⟩
    rw [if_neg short, ← Option.some.inj data, List.take_append_drop]

theorem ValueStore.Holds.of_word {type : URID} {value : UInt32} (held : store.Holds (.ofBytes type (word value))) :
    store.value.value.toUInt32 = value := by
  have low := held.low (by rw [Atom.ofBytes_size, length_word]; rfl)
  rw [Atom.ofBytes_body type (by rw [length_word]; decide)] at low
  rw [← wordValue_word store.value.value.toUInt32, low, wordValue_word]

theorem ValueStore.Holds.of_little {type : URID} {value : UInt64}
    (held : store.Holds (.ofBytes type (little 8 value.toNat))) : store.value.value = value := by
  have size : (Atom.ofBytes type (little 8 value.toNat)).size.toNat = 8 := by
    rw [Atom.ofBytes_size, length_little]
    rfl
  have bytes := held.number (by rw [size]; decide)
  rw [size, List.take_of_length_le (by rw [length_little]), Atom.ofBytes_body type (by rw [length_little]; decide)]
    at bytes
  exact UInt64.toNat_inj.mp (little_injective store.value.value.toNat_lt value.toNat_lt bytes)

end

def TypedValue.printed : TypedValue → Text
  | .int value => printInt value.toInt
  | .long value => printInt value.toInt
  | .bool truth => if truth then trueWord else falseWord
  | .string _ chars => 34 :: (chars ++ [34])

theorem TypedValue.atom_string_size (forge : Forge) (isPath : Bool) {chars : Text} (small : chars.length + 1 < 2 ^ 32) :
    (TypedValue.atom forge (.string isPath chars)).size.toNat = chars.length + 1 := by
  rw [TypedValue.atom, Atom.ofBytes_size, UInt32.toNat_ofNat', List.length_append, List.length_singleton]
  exact Nat.mod_eq_of_lt small

theorem TypedValue.atom_string_body (forge : Forge) (isPath : Bool) {chars : Text} (small : chars.length + 1 < 2 ^ 32) :
    (TypedValue.atom forge (.string isPath chars)).body = chars ++ [0] :=
  Atom.ofBytes_body _ (by rw [List.length_append, List.length_singleton]; exact small)

theorem TypedValue.atom_bool_size (forge : Forge) (truth : Bool) : (TypedValue.atom forge (.bool truth)).size = 1 := rfl

section

variable {forge : Forge} {store : ValueStore} {value : TypedValue}

theorem printValue_held
    (types : [forge.int, forge.long, forge.float, forge.double, forge.bool, forge.string, forge.path,
    forge.uri].Nodup) (held : value.HeldBy forge store) (printNumber : AnyValue → Text) :
    printValue printNumber forge store = some value.printed := by
  simp only [List.nodup_cons, List.mem_cons, not_or, List.not_mem_nil, not_false_eq_true, List.nodup_nil,
    and_true] at types
  cases value with
  | int value =>
    have type : store.value.type = forge.int := held.type
    have number : store.value.value.toUInt32 = value.toUInt32 := ValueStore.Holds.of_word held
    simp [printValue, TypedValue.printed, type, types, number]
  | long value =>
    have type : store.value.type = forge.long := held.type
    have number : store.value.value = value.toUInt64 := ValueStore.Holds.of_little held
    have other : forge.long ≠ forge.int := Ne.symm types.1.1
    simp [printValue, TypedValue.printed, type, types, number, other]
  | bool truth =>
    obtain ⟨type, _, number⟩ := held
    have type : store.value.type = forge.bool := type
    simp [printValue, TypedValue.printed, type, types, number]
  | string isPath chars =>
    obtain ⟨⟨noZero, small⟩, held⟩ := held
    obtain ⟨rest, bytes⟩ := held.bytes
    have type : store.value.type = if isPath then forge.path else forge.string := held.type
    rw [TypedValue.atom_string_body forge isPath small] at bytes
    have isText : store.value.type ≠ forge.uri ∧ (store.value.type = forge.string ∨ store.value.type = forge.path) := by
      rw [type]
      cases isPath <;> simp [types]
    rw [printValue, if_neg isText.1, if_pos isText.2, bytes, Option.bind_eq_bind, Option.bind_some,
      stringAt_terminated noZero rest]
    rfl

theorem printControlValue_held (types : [forge.int, forge.long, forge.float, forge.double, forge.bool, forge.string,
    forge.path, forge.uri].Nodup) {control : Control} (held : value.HeldBy forge control.value)
    (printNumber : AnyValue → Text) (text : Text) :
    printControlValue printNumber forge control = some (control.symbol ++ [32, 61, 32] ++ (text ++ [10])) ↔
      text = value.printed := by
  rw [printControlValue, printValue_held types held printNumber, Option.map_some, Option.some.injEq,
    List.append_cancel_left_eq, List.append_cancel_right_eq]
  exact eq_comm

end

section

variable {jalv : JalvImpl} {ring : ZixRing} {pointer : Nat} {control : Control} {value : TypedValue} {ending : Text}

section

variable (parser : NumberParser) (ring)

theorem setControlFromString_bool (types : [jalv.forge.int, jalv.forge.long, jalv.forge.float, jalv.forge.double,
      jalv.forge.bool, jalv.forge.string, jalv.forge.path, jalv.forge.uri].Nodup)
    (found : jalv.controls[pointer]? = some control) (type : control.valueType = jalv.forge.bool) (text : Text) :
    setControlFromString parser jalv ring pointer text =
      if isWord text [116, 114, 117, 101] then jalvSetControl jalv ring pointer (.ofBytes jalv.forge.bool [1])
      else if isWord text [102, 97, 108, 115, 101] then some (1, jalv, ring)
      else jalvSetControl jalv ring pointer (.ofBytes jalv.forge.bool [0]) := by
  simp only [List.nodup_cons, List.mem_cons, not_or, List.not_mem_nil, not_false_eq_true, List.nodup_nil,
    and_true] at types
  have others : jalv.forge.bool ≠ jalv.forge.int ∧ jalv.forge.bool ≠ jalv.forge.long ∧
      jalv.forge.bool ≠ jalv.forge.float ∧ jalv.forge.bool ≠ jalv.forge.double := by grind
  simp [setControlFromString, found, type, types, others]

variable {text : Text}

/-- Behind an opening quote, what is in front of the closing one is set. -/
theorem setControlFromString_closed (found : jalv.controls[pointer]? = some control)
    (isText : control.valueType = jalv.forge.string ∨ control.valueType = jalv.forge.path) {length : Nat}
    (closed : quotedLength text (text.length + 2) 0 = some (.ok length)) :
    setControlFromString parser jalv ring pointer (34 :: text) =
      (jalvSetControl jalv ring pointer (.ofBytes control.valueType (text.take length ++ [0]))).map fun result =>
        (0, result.2) := by
  have quote : charAt (34 :: text) 0 = some 34 := charAt_append [] 34 text
  rw [setControlFromString, found, Option.bind_eq_bind, Option.bind_some]
  simp only [if_pos isText, if_neg (not_not.mpr quote), List.tail_cons, List.length_cons]
  rw [closed, Option.map_eq_bind]
  rfl

theorem quotedLength_of_setControlFromString (found : jalv.controls[pointer]? = some control)
    (isText : control.valueType = jalv.forge.string ∨ control.valueType = jalv.forge.path)
    {result : JalvImpl × ZixRing}
    (ran : setControlFromString parser jalv ring pointer (34 :: text) = some (0, result)) :
    ∃ length, quotedLength text (text.length + 2) 0 = some (.ok length) := by
  have quote : charAt (34 :: text) 0 = some 34 := charAt_append [] 34 text
  rw [setControlFromString, found, Option.bind_eq_bind, Option.bind_some] at ran
  simp only [if_pos isText, if_neg (not_not.mpr quote), List.tail_cons, List.length_cons] at ran
  obtain ⟨scanned, scan, ran⟩ := Option.bind_eq_some_iff.mp ran
  cases scanned with
  | error _ => cases ran
  | ok length => exact ⟨length, scan⟩

end

theorem TypedValue.isText {isPath : Bool} {chars : Text}
    (type : control.valueType = (TypedValue.string isPath chars).type jalv.forge) :
    control.valueType = jalv.forge.string ∨ control.valueType = jalv.forge.path := by
  rw [type]
  cases isPath <;> simp [TypedValue.type]

/-- A readable value is set from its text as it is, where the reply for a string is always zero. -/
theorem setControlFromString_printed (types : [jalv.forge.int, jalv.forge.long, jalv.forge.float, jalv.forge.double,
      jalv.forge.bool, jalv.forge.string, jalv.forge.path, jalv.forge.uri].Nodup)
    (found : jalv.controls[pointer]? = some control) (type : control.valueType = value.type jalv.forge)
    (readable : value.Readable) (ends : ending = [] ∨ ending = [10]) (strtod : Text → UInt64) (ring : ZixRing) :
    ∃ reply : Nat → Nat, reply 0 = 0 ∧
      setControlFromString ⟨strtod, strtolBits⟩ jalv ring pointer (value.printed ++ ending) =
        (jalvSetControl jalv ring pointer (value.atom jalv.forge)).map fun result => (reply result.1, result.2) := by
  have whole := types
  simp only [List.nodup_cons, List.mem_cons, not_or, List.not_mem_nil, not_false_eq_true, List.nodup_nil,
    and_true] at types
  have digits : ending.takeWhile isDigit = [] := by
    rcases ends with rfl | rfl <;> rfl
  cases value with
  | int value =>
    have type : control.valueType = jalv.forge.int := type
    refine ⟨id, rfl, ?_⟩
    simp [setControlFromString, found, type, types, TypedValue.printed, strtolBits_printInt32 value digits,
      TypedValue.atom, TypedValue.type]
  | long value =>
    have type : control.valueType = jalv.forge.long := type
    have other : jalv.forge.long ≠ jalv.forge.int := Ne.symm types.1.1
    refine ⟨id, rfl, ?_⟩
    simp [setControlFromString, found, type, types, other, TypedValue.printed, strtolBits_printInt value digits,
      TypedValue.atom, TypedValue.type]
  | bool truth =>
    have type : control.valueType = jalv.forge.bool := type
    have readable : truth = true := readable
    subst readable
    have isTrue : isWord (trueWord ++ ending) [116, 114, 117, 101] = true := by
      rcases ends with rfl | rfl <;> decide
    refine ⟨id, rfl, ?_⟩
    rw [setControlFromString_bool _ _ whole found type, TypedValue.printed, if_pos rfl, if_pos isTrue]
    exact Option.map_id'.symm
  | string isPath chars =>
    have complete := @quotedLength_complete chars readable [] ending ((chars ++ 34 :: ending).length + 2)
      (by simp only [List.length_append, List.length_cons]; omega)
    rw [List.nil_append, List.length_nil, Nat.zero_add] at complete
    have shape : (TypedValue.string isPath chars).printed ++ ending = 34 :: (chars ++ 34 :: ending) := by
      simp [TypedValue.printed]
    refine ⟨fun _ => 0, rfl, ?_⟩
    rw [shape, setControlFromString_closed _ _ found (TypedValue.isText type) complete, List.take_left, type]
    rfl

/-- A false truth value is refused, and a text that is cut short is set to something of another size. -/
theorem setControlFromString_unreadable (prepared : jalv.Prepared) (found : jalv.controls[pointer]? = some control)
    (type : control.valueType = value.type jalv.forge) (held : value.HeldBy jalv.forge control.value)
    (unreadable : ¬value.Readable) {strtod : Text → UInt64} {next : JalvImpl} {after : ZixRing}
    (ran : setControlFromString ⟨strtod, strtolBits⟩ jalv ring pointer value.printed = some (0, next, after)) :
    ¬next.Has pointer value := by
  cases value with
  | int value => exact absurd trivial unreadable
  | long value => exact absurd trivial unreadable
  | bool truth =>
    obtain rfl : truth = false := Bool.eq_false_iff.mpr unreadable
    rw [setControlFromString_bool _ _ prepared.types found type] at ran
    cases ran
  | string isPath chars =>
    obtain ⟨⟨_, small⟩, _⟩ := held
    obtain ⟨stop, scanned⟩ := quotedLength_of_setControlFromString _ _ found (TypedValue.isText type) ran
    rw [TypedValue.printed, setControlFromString_closed _ _ found (TypedValue.isText type) scanned] at ran
    have enough : chars.length < (chars ++ [34]).length + 2 := by
      rw [List.length_append]
      omega
    obtain ⟨scans, _⟩ | ⟨_, short⟩ := quotedLength_quoted enough scanned
    · exact absurd scans unreadable
    · have short := short stop rfl
      obtain ⟨⟨status, next', after'⟩, set, same⟩ := Option.map_eq_some_iff.mp ran
      cases same
      obtain ⟨forge, last, here, size⟩ := jalvSetControl_size prepared found set
      rintro ⟨control', here', _, _, held⟩
      cases here.symm.trans here'
      have whole : last.value.size.toNat = chars.length + 1 :=
        (congrArg UInt32.toNat held.size).trans (TypedValue.atom_string_size _ isPath small)
      rcases size with zero | size
      · rw [zero] at whole
        cases whole
      · have cut : (chars.take stop ++ [0]).length = stop + 1 := by
          rw [List.length_append, List.length_take, List.length_singleton]
          omega
        rw [size, Atom.ofBytes_size, List.take_append_of_le_length (Nat.le_of_lt short), cut, UInt32.toNat_ofNat']
          at whole
        omega

/-- Setting a readable value that is already there leaves it. -/
theorem anyValueSet_typed {forge : Forge} {store : ValueStore} (held : value.HeldBy forge store)
    (readable : value.Readable) (proposal : Option UInt64) :
    ∃ after, anyValueSet proposal store (value.atom forge) = some (0, after) ∧ value.HeldBy forge after := by
  cases value with
  | int value => exact ⟨store, anyValueSet_held proposal held, held⟩
  | long value => exact ⟨store, anyValueSet_held proposal held, held⟩
  | string isPath chars => exact ⟨store, anyValueSet_held proposal held.2, held⟩
  | bool truth =>
    obtain rfl : truth = true := readable
    obtain ⟨_, size, _⟩ := held
    have size : store.value.size.toNat ≤ sizeofPointer := by
      rcases size with size | size <;> rw [size] <;> decide
    have kept : ¬(store.value.size.toNat > sizeofPointer ∧
        (TypedValue.atom forge (.bool true)).size.toNat < sizeofPointer) :=
      fun both => absurd both.1 (Nat.not_lt.mpr size)
    have one : (memcpyNumber store.value.value [1]).toUInt32 ≠ 0 := by
      -- The low byte is set
      have copied := @take_memcpyNumber store.value.value [1] (by decide)
      intro zero
      have low := congrArg UInt32.toNat zero
      rw [UInt64.toNat_toUInt32] at low
      rw [List.length_singleton, take_little (by decide), little, little, List.cons.injEq] at copied
      have byte := congrArg UInt8.toNat copied.1
      rw [UInt8.toNat_ofNat'] at byte
      simp only [UInt32.reduceToNat, UInt8.reduceToNat] at low byte
      omega
    have short : (TypedValue.atom forge (.bool true)).size.toNat ≤ sizeofPointer := by
      rw [TypedValue.atom_bool_size]
      decide
    refine ⟨_, anyValueSet_short proposal kept short, rfl, Or.inl rfl, iff_of_true rfl one⟩

theorem TypedValue.fits_or_string (room : 64 ≤ jalv.msgRoom) (value : TypedValue) :
    SetFits jalv (value.atom jalv.forge) ∨ ∃ isPath chars, value = .string isPath chars := by
  cases value with
  | int value => exact Or.inl (setFits_number room (by rw [atom, Atom.ofBytes_size, length_word]; decide))
  | long value => exact Or.inl (setFits_number room (by rw [atom, Atom.ofBytes_size, length_little]; decide))
  | bool truth => exact Or.inl (setFits_number room (by rw [atom_bool_size]; decide))
  | string isPath chars => exact Or.inr ⟨isPath, chars, rfl⟩

/-- A string that does not fit into the message for its property is replaced by what the buffer had in it. -/
theorem setControlFromString_cut (prepared : jalv.Prepared) (ones : jalv.uiMsg = fun _ => 1)
    (found : jalv.controls[pointer]? = some control) {isPath : Bool} {chars : Text}
    (type : control.valueType = TypedValue.type jalv.forge (.string isPath chars))
    (held : TypedValue.HeldBy jalv.forge control.value (.string isPath chars))
    (readable : TypedValue.Readable (.string isPath chars)) (reports : jalv.Reports control)
    (cut : ¬SetFits jalv (TypedValue.atom jalv.forge (.string isPath chars))) {strtod : Text → UInt64}
    {next : JalvImpl} {after : ZixRing}
    (ran : setControlFromString ⟨strtod, strtolBits⟩ jalv ring pointer (TypedValue.printed (.string isPath chars)) =
      some (0, next, after)) :
    ¬next.Has pointer (.string isPath chars) := by
  obtain ⟨⟨_, small⟩, held⟩ := held
  obtain ⟨reply, _, same⟩ := setControlFromString_printed prepared.types found type readable (Or.inl rfl) strtod ring
  rw [List.append_nil] at same
  obtain ⟨⟨status, _, _⟩, set, result⟩ := Option.map_eq_some_iff.mp (same.symm.trans ran)
  obtain ⟨rfl, rfl⟩ := Prod.mk.inj (congrArg Prod.snd result)
  obtain ⟨last, here, lost⟩ := jalvSetControl_cut prepared found (anyValueSet_held _ held) reports cut set
  rintro ⟨_, here', _, _, held'⟩
  cases here.symm.trans here'
  rcases lost with zero | ⟨_, data⟩
  · have size : last.value.size.toNat = chars.length + 1 :=
      (congrArg UInt32.toNat held'.size).trans (TypedValue.atom_string_size _ isPath small)
    rw [zero] at size
    cases size
  · -- The text that was set ends with a zero, and the buffer had none
    have same := Option.some.inj (held'.data.symm.trans data)
    rw [TypedValue.atom_string_body _ isPath small, ones, Memory.load_const] at same
    have zero := List.eq_of_mem_replicate (same ▸ List.mem_append_right chars List.mem_cons_self)
    cases zero

/-- The text round trip exactly succeeds for a readable value that fits into the message for its property. -/
theorem textRoundTrip_iff (prepared : jalv.Prepared) (found : jalv.controls[pointer]? = some control)
    (type : control.valueType = value.type jalv.forge) (held : value.HeldBy jalv.forge control.value)
    (printNumber : AnyValue → Text) (strtod : Text → UInt64) (ring : ZixRing) :
    TextRoundTrip printNumber strtod jalv ring pointer control value ↔
      value.Readable ∧ (jalv.Reports control → SetFits jalv (value.atom jalv.forge)) := by
  constructor
  · intro trip
    obtain ⟨text, next, after, same, ran, kept⟩ := trip (fun _ => 1) [] (Or.inl rfl)
    obtain rfl := (printControlValue_held prepared.types held printNumber text).mp same
    rw [List.append_nil] at ran
    have readable : value.Readable := by
      by_contra unreadable
      exact setControlFromString_unreadable (prepared.written fun _ => 1) found type held unreadable ran kept
    refine ⟨readable, fun reports => ?_⟩
    rcases TypedValue.fits_or_string prepared.room value with fits | ⟨isPath, chars, rfl⟩
    · exact fits
    · by_contra cut
      exact setControlFromString_cut (prepared.written fun _ => 1) rfl found type held readable reports
        (fun fits => cut ⟨fits.room, fits.small⟩) ran kept
  · rintro ⟨readable, fits⟩ uiMsg ending ends
    obtain ⟨store, set, kept⟩ := anyValueSet_typed held readable (jalv.proposal 0)
    obtain ⟨next, after, ran, forge, here⟩ := jalvSetControl_keeps (prepared.written uiMsg) found set
      (fun reports => ⟨(fits reports).room, (fits reports).small⟩) ring
    obtain ⟨reply, zero, same⟩ :=
      setControlFromString_printed (prepared.written uiMsg).types found type readable ends strtod ring
    have ran : jalvSetControl (jalv.written uiMsg) ring pointer (value.atom (jalv.written uiMsg).forge) =
        some (0, next, after) := ran
    have printed := (printControlValue_held prepared.types held printNumber value.printed).mpr rfl
    refine ⟨value.printed, next, after, printed, ?_, _, here, ?_, ?_⟩
    · rw [same, ran, Option.map_some, zero]
    · rw [forge]
      exact type
    · rw [forge]
      exact kept

end

def textHost : JalvImpl := { settingHost with
  controls := [⟨.property 40, .blank [], [115], 6, ⟨⟨4, 6, 0x622261⟩, .empty⟩, true, false⟩,
    ⟨.property 41, .blank [], [116], 5, ⟨⟨4, 5, 0⟩, .empty⟩, true, false⟩,
    ⟨.property 42, .blank [], [117], 6, ⟨⟨3, 6, 0x6261⟩, .empty⟩, true, false⟩] }

def textControl : Control := ⟨.property 40, .blank [], [115], 6, ⟨⟨4, 6, 0x622261⟩, .empty⟩, true, false⟩
def falseControl : Control := ⟨.property 41, .blank [], [116], 5, ⟨⟨4, 5, 0⟩, .empty⟩, true, false⟩
def plainControl : Control := ⟨.property 42, .blank [], [117], 6, ⟨⟨3, 6, 0x6261⟩, .empty⟩, true, false⟩

theorem textHost_prepared : textHost.Prepared where
  types := by decide
  inside _ := by decide
  room := by decide
  single pointer control property found id := by
    obtain _ | _ | _ | pointer := pointer
    · cases found
      cases id
      rfl
    · cases found
      cases id
      rfl
    · cases found
      cases id
      rfl
    · cases found

theorem textControl_held : TypedValue.HeldBy textHost.forge textControl.value (.string false [97, 34, 98]) :=
  ⟨by decide, rfl, rfl, rfl⟩

theorem falseControl_held : TypedValue.HeldBy textHost.forge falseControl.value (.bool false) :=
  ⟨rfl, Or.inr rfl, by decide⟩

theorem textRoundTrip_iff_test :
    TextRoundTrip (fun _ => []) (fun _ => 0) textHost (.empty 4095) 2 plainControl (.string false [97, 98]) := by
  have held : TypedValue.HeldBy textHost.forge plainControl.value (.string false [97, 98]) :=
    ⟨by decide, rfl, rfl, rfl⟩
  have readable : TypedValue.Readable (.string false [97, 98]) :=
    .plain (by decide) (by decide) (.plain (by decide) (by decide) .nil)
  exact (textRoundTrip_iff textHost_prepared rfl rfl held _ _ _).mpr ⟨readable, fun _ => ⟨by decide, by decide⟩⟩

/-- A string with a quote in it is cut short, and a false truth value is refused. -/
theorem textRoundTrip_refuted :
    ¬TextRoundTrip (fun _ => []) (fun _ => 0) textHost (.empty 4095) 0 textControl (.string false [97, 34, 98]) ∧
      ¬TextRoundTrip (fun _ => []) (fun _ => 0) textHost (.empty 4095) 1 falseControl (.bool false) := by
  refine ⟨fun trip => ?_, fun trip => ?_⟩
  · obtain ⟨text, next, after, printed, ran, kept⟩ := trip (fun _ => 0) [] (Or.inl rfl)
    have same := (printControlValue_held textHost_prepared.types textControl_held _ text).mp printed
    have unreadable : ¬TypedValue.Readable (.string false [97, 34, 98]) := by
      rintro (_ | ⟨_, _, scans⟩)
      cases scans
      contradiction
    rw [same, List.append_nil] at ran
    exact setControlFromString_unreadable textHost_prepared rfl rfl textControl_held unreadable ran kept
  · obtain ⟨text, next, after, printed, ran, kept⟩ := trip (fun _ => 0) [] (Or.inl rfl)
    have same := (printControlValue_held textHost_prepared.types falseControl_held _ text).mp printed
    rw [same, List.append_nil] at ran
    exact setControlFromString_unreadable textHost_prepared rfl rfl falseControl_held
      (by simp [TypedValue.Readable]) ran kept

end Jalv
