import Jalv.Console.Literals

/-! Strict parsing of the values that controls are set to.

Numbers are read up to where they end, and what follows is not looked at. Strings are set
with the backslashes in them.
-/

set_option autoImplicit false

namespace Jalv

open Foundation

structure ValueStore.HasBytes (store : ValueStore) (type : URID) (bytes : List Byte) : Prop where
  type : store.value.type = type
  size : store.value.size.toNat = bytes.length
  data : anyValueData store = some bytes

section

variable (strtod : Text → UInt64) (strtodLength : Text → Nat) (jalv : JalvImpl) (ring : ZixRing) (pointer : Nat)
  (control : Control) (kind : ValueType) (text : Text)

/-- With anything in the message buffer, the call returns. For a literal, it succeeds and the control
has the value. For anything else, it fails, nothing is sent and the controls are as they were. -/
def StrictlyParsed : Prop :=
  ∀ uiMsg, ∃ status next after,
    setControlFromString ⟨strtod, strtolBits⟩ (jalv.written uiMsg) ring pointer text = some (status, next, after) ∧
    (∀ bytes, DenotesValue strtod strtodLength jalv.world kind text bytes → status = 0 ∧
      ∃ last, next.controls[pointer]? = some { control with value := last } ∧
        last.HasBytes control.valueType bytes) ∧
    ((∀ bytes, ¬DenotesValue strtod strtodLength jalv.world kind text bytes) →
      status ≠ 0 ∧ next.controls = jalv.controls ∧ after = ring)

structure Storable (chars : Text) : Prop where
  small : chars.length + 1 < 2 ^ 32
  defined : (anyValueSet (jalv.proposal 0) control.value (.ofBytes control.valueType (chars ++ [0]))).isSome
  grows : ¬control.value.CannotGrow (jalv.proposal 0) (.ofBytes control.valueType (chars ++ [0]))
  fits : jalv.Reports control → SetFits jalv (.ofBytes control.valueType (chars ++ [0]))

/-- A string is refused, or is a literal without an escaped quote that can be stored. The word for
true is a literal, and the one for false is refused, which is right for what is none. A number is a literal. -/
def IsStrict : Prop :=
  match kind with
  | .string | .path => text.head? ≠ some 34 ∨ (∃ rest, text = 34 :: rest ∧ Refused rest) ∨
      ∃ chars blank, text = 34 :: (chars ++ 34 :: blank) ∧ 34 ∉ chars ∧ 92 ∉ chars ∧ blank.all isSpace ∧
        Storable jalv control chars
  | .bool => (∃ blank, blank.all isSpace ∧ text = trueWord ++ blank) ∨
      isWord text falseWord ∧ ¬∃ blank, blank.all isSpace ∧ text = falseWord ++ blank
  | .int | .long | .float | .double => ∃ bytes, DenotesValue strtod strtodLength jalv.world kind text bytes

end

section

variable {strtod : Text → UInt64} {strtodLength : Text → Nat} {jalv : JalvImpl} {ring : ZixRing} {pointer : Nat}
  {control : Control} {kind : ValueType} {text : Text}

theorem ValueStore.Holds.hasBytes {store : ValueStore} {type : URID} {bytes : List Byte}
    (held : store.Holds (.ofBytes type bytes)) (small : bytes.length < 2 ^ 32) : store.HasBytes type bytes where
  type := held.type
  size := by rw [held.size, Atom.ofBytes_size, UInt32.toNat_ofNat', Nat.mod_eq_of_lt small]
  data := by rw [held.data, Atom.ofBytes_body type small]

theorem jalvSetControl_number (prepared : jalv.Prepared) (found : jalv.controls[pointer]? = some control)
    (free : control.value.Freeable) {atom : Atom} (short : atom.size.toNat ≤ 8) (ring : ZixRing) :
    ∃ next after last, jalvSetControl jalv ring pointer atom = some (0, next, after) ∧
      next.controls[pointer]? = some { control with value := last } ∧ last.Holds atom := by
  have set : ∃ value, anyValueSet (jalv.proposal 0) control.value atom = some (0, value) ∧ value.Holds atom := by
    by_cases shorter : atom.size.toNat < 8
    · exact anyValueSet_shorter free shorter _
    · exact ⟨_, anyValueSet_short _ (fun both => shorter both.2) short, holds_copied atom _ _ short⟩
  obtain ⟨value, set, held⟩ := set
  obtain ⟨next, after, ran, _, here⟩ := jalvSetControl_keeps prepared found set
    (fun _ => setFits_number prepared.room short) ring
  exact ⟨next, after, value, ran, here, held⟩

/-- What is set for a text is what it denotes if it is a literal, and something in any case. -/
theorem setControlFromString_number (types : [jalv.forge.int, jalv.forge.long, jalv.forge.float, jalv.forge.double,
      jalv.forge.bool, jalv.forge.string, jalv.forge.path, jalv.forge.uri].Nodup)
    (found : jalv.controls[pointer]? = some control) (type : control.valueType = jalv.forge.valueType kind)
    (number : kind = .double ∨ kind = .float ∨ kind = .long ∨ kind = .int) (ring : ZixRing) (text : Text) :
    ∃ bytes, bytes.length ≤ 8 ∧
      setControlFromString ⟨strtod, strtolBits⟩ jalv ring pointer text =
        jalvSetControl jalv ring pointer (.ofBytes control.valueType bytes) ∧
      ∀ other, DenotesValue strtod strtodLength jalv.world kind text other → other = bytes := by
  simp only [List.nodup_cons, List.mem_cons, not_or, List.not_mem_nil, not_false_eq_true, List.nodup_nil,
    and_true] at types
  rcases number with rfl | rfl | rfl | rfl
  · refine ⟨little 8 (strtod text).toNat, by rw [length_little], ?_, fun other denotes => ?_⟩
    · have others : jalv.forge.double ≠ jalv.forge.float := Ne.symm types.2.2.1.1
      simp [setControlFromString, found, type, Forge.valueType, types, others]
    · cases denotes
      rfl
  · refine ⟨word (jalv.world.floatOfDouble (strtod text)), by rw [length_word]; decide, ?_, fun other denotes => ?_⟩
    · simp [setControlFromString, found, type, Forge.valueType, types]
    · cases denotes
      rfl
  · refine ⟨little 8 (strtolBits text).toNat, by rw [length_little], ?_, fun other denotes => ?_⟩
    · have others : jalv.forge.long ≠ jalv.forge.int := Ne.symm types.1.1
      simp [setControlFromString, found, type, Forge.valueType, types, others]
    · cases denotes with
      | long literal all low high => rw [strtolBits_literal literal all low high]
  · refine ⟨word (strtolBits text).toUInt32, by rw [length_word]; decide, ?_, fun other denotes => ?_⟩
    · simp [setControlFromString, found, type, Forge.valueType, types]
    · cases denotes with
      | int literal all low high =>
        rw [strtolBits_literal literal all (by omega) (by omega), toUInt32_ofInt]

/-- A number is only parsed strictly if it is a literal, as something is set for every text. -/
theorem strictlyParsed_number (prepared : jalv.Prepared) (found : jalv.controls[pointer]? = some control)
    (free : control.value.Freeable) (type : control.valueType = jalv.forge.valueType kind)
    (number : kind = .double ∨ kind = .float ∨ kind = .long ∨ kind = .int) :
    StrictlyParsed strtod strtodLength jalv ring pointer control kind text ↔
      ∃ bytes, DenotesValue strtod strtodLength jalv.world kind text bytes := by
  have sets (uiMsg : Memory Byte) : ∃ bytes next after last,
      setControlFromString ⟨strtod, strtolBits⟩ (jalv.written uiMsg) ring pointer text = some (0, next, after) ∧
      next.controls[pointer]? = some { control with value := last } ∧ last.HasBytes control.valueType bytes ∧
      ∀ other, DenotesValue strtod strtodLength jalv.world kind text other → other = bytes := by
    obtain ⟨bytes, short, ran, denotes⟩ := @setControlFromString_number strtod strtodLength (jalv.written uiMsg) pointer
      control kind prepared.types found type number ring text
    have small : (Atom.ofBytes control.valueType bytes).size.toNat ≤ 8 := by
      rw [Atom.ofBytes_size, UInt32.toNat_ofNat']
      exact (Nat.mod_le _ _).trans short
    obtain ⟨next, after, last, set, here, held⟩ := jalvSetControl_number (prepared.written uiMsg) found free small ring
    exact ⟨bytes, next, after, last, ran.trans set, here, held.hasBytes (by omega), denotes⟩
  constructor
  · intro parsed
    by_contra none
    obtain ⟨status, next, after, ran, _, refused⟩ := parsed fun _ => 0
    obtain ⟨_, _, _, _, ran', _⟩ := sets fun _ => 0
    cases ran.symm.trans ran'
    exact (refused fun bytes denotes => none ⟨bytes, denotes⟩).1 rfl
  · rintro ⟨bytes, denotes⟩ uiMsg
    obtain ⟨_, next, after, last, ran, here, has, same⟩ := sets uiMsg
    refine ⟨0, next, after, ran, fun other denoted => ⟨rfl, last, here, ?_⟩, fun none => absurd denotes (none bytes)⟩
    rw [same other denoted]
    exact has

theorem DenotesValue.bool_cases {bytes : List Byte} {world : World}
    (denotes : DenotesValue strtod strtodLength world .bool text bytes) :
    (∃ blank, blank.all isSpace ∧ text = trueWord ++ blank ∧ bytes = [1]) ∨
      ∃ blank, blank.all isSpace ∧ text = falseWord ++ blank ∧ bytes = [0] := by
  cases denotes with
  | @bool blank truth all =>
    cases truth
    · exact .inr ⟨blank, all, rfl, rfl⟩
    · exact .inl ⟨blank, all, rfl, rfl⟩

theorem jalvSetControl_bool (prepared : jalv.Prepared) (found : jalv.controls[pointer]? = some control)
    (free : control.value.Freeable) (type : control.valueType = jalv.forge.bool) (ring : ZixRing) (truth : Byte) :
    ∃ next after last, jalvSetControl jalv ring pointer (.ofBytes jalv.forge.bool [truth]) = some (0, next, after) ∧
      next.controls[pointer]? = some { control with value := last } ∧ last.HasBytes control.valueType [truth] := by
  have short : (Atom.ofBytes jalv.forge.bool [truth]).size.toNat ≤ 8 := (by decide : (1 : UInt32).toNat ≤ 8)
  obtain ⟨next, after, last, set, here, held⟩ := jalvSetControl_number prepared found free short ring
  exact ⟨next, after, last, set, here, type ▸ held.hasBytes (by rw [List.length_singleton]; decide)⟩

theorem isWord_true_of_false (isFalse : isWord text falseWord = true) : isWord text trueWord = false := by
  refine Bool.eq_false_iff.mpr fun isTrue => ?_
  have four := congrArg (List.take trueWord.length) (isWord_take isFalse)
  rw [List.take_take, show min trueWord.length falseWord.length = trueWord.length from rfl, isWord_take isTrue] at four
  cases four

/-- The word for true is taken with anything behind it that is not visible, and any text for false but its word. -/
theorem strictlyParsed_bool (prepared : jalv.Prepared) (found : jalv.controls[pointer]? = some control)
    (free : control.value.Freeable) (type : control.valueType = jalv.forge.bool) :
    StrictlyParsed strtod strtodLength jalv ring pointer control .bool text ↔
      IsStrict strtod strtodLength jalv control .bool text := by
  have sets (uiMsg : Memory Byte) (truth : Byte) :=
    @jalvSetControl_bool (jalv.written uiMsg) pointer control (prepared.written uiMsg) found free type ring truth
  have runs (uiMsg : Memory Byte) :
      setControlFromString ⟨strtod, strtolBits⟩ (jalv.written uiMsg) ring pointer text =
        if isWord text trueWord then jalvSetControl (jalv.written uiMsg) ring pointer (.ofBytes jalv.forge.bool [1])
        else if isWord text falseWord then some (1, jalv.written uiMsg, ring)
        else jalvSetControl (jalv.written uiMsg) ring pointer (.ofBytes jalv.forge.bool [0]) :=
    @setControlFromString_bool (jalv.written uiMsg) ring pointer control ⟨strtod, strtolBits⟩ prepared.types found
      type text
  constructor
  · intro parsed
    obtain ⟨status, next, after, ran, right, refused⟩ := parsed fun _ => 0
    have denoted (zero : status = 0) : ∃ bytes, DenotesValue strtod strtodLength jalv.world .bool text bytes := by
      by_contra none
      exact (refused fun bytes denotes => none ⟨bytes, denotes⟩).1 zero
    rw [runs] at ran
    split at ran
    · next isTrue =>
      obtain ⟨_, _, _, set, _⟩ := sets (fun _ => 0) 1
      cases ran.symm.trans set
      obtain ⟨bytes, denotes⟩ := denoted rfl
      rcases denotes.bool_cases with ⟨blank, all, same, _⟩ | ⟨blank, _, rfl, _⟩
      · exact .inl ⟨blank, all, same⟩
      · cases isWord_take isTrue
    · next noTrue =>
      split at ran
      · next isFalse =>
        cases ran
        refine .inr ⟨isFalse, ?_⟩
        rintro ⟨blank, all, rfl⟩
        cases (right [0] (.bool false all)).1
      · next noFalse =>
        obtain ⟨_, _, _, set, _⟩ := sets (fun _ => 0) 0
        cases ran.symm.trans set
        obtain ⟨bytes, denotes⟩ := denoted rfl
        rcases denotes.bool_cases with ⟨blank, all, rfl, _⟩ | ⟨blank, all, rfl, _⟩
        · exact absurd (isWord_append trueWord all) noTrue
        · exact absurd (isWord_append falseWord all) noFalse
  · rintro (⟨blank, all, rfl⟩ | ⟨isFalse, other⟩) uiMsg
    · obtain ⟨next, after, last, set, here, has⟩ := sets uiMsg 1
      rw [runs, if_pos (isWord_append trueWord all)]
      refine ⟨0, next, after, set, fun bytes denotes => ⟨rfl, last, here, ?_⟩,
        fun none => absurd (.bool true all) (none [1])⟩
      rcases denotes.bool_cases with ⟨_, _, _, rfl⟩ | ⟨_, _, same, _⟩
      · exact has
      · cases same
    · rw [runs, if_neg (by rw [isWord_true_of_false isFalse]; decide), if_pos isFalse]
      refine ⟨1, _, _, rfl, fun bytes denotes => ?_, fun _ => ⟨by decide, rfl, rfl⟩⟩
      rcases denotes.bool_cases with ⟨_, _, rfl, _⟩ | ⟨blank, all, same, _⟩
      · cases isWord_take isFalse
      · exact absurd ⟨blank, all, same⟩ other

theorem DenotesValue.string_head {bytes : List Byte} {world : World} (isText : kind = .string ∨ kind = .path)
    (denotes : DenotesValue strtod strtodLength world kind text bytes) :
    ∃ quoted value blank, Quoted quoted value ∧ blank.all isSpace ∧ text = 34 :: (quoted ++ 34 :: blank) ∧
      bytes = value ++ [0] := by
  rcases isText with rfl | rfl
  · cases denotes with
    | string literal all => exact ⟨_, _, _, literal, all, rfl, rfl⟩
  · cases denotes with
    | path literal all => exact ⟨_, _, _, literal, all, rfl, rfl⟩

theorem DenotesValue.of_string {quoted value blank : Text} {world : World} (isText : kind = .string ∨ kind = .path)
    (literal : Quoted quoted value) (all : blank.all isSpace) :
    DenotesValue strtod strtodLength world kind (34 :: (quoted ++ 34 :: blank)) (value ++ [0]) := by
  rcases isText with rfl | rfl
  · exact .string literal all
  · exact .path literal all

theorem jalvSetControl_string (prepared : jalv.Prepared) (found : jalv.controls[pointer]? = some control) {chars : Text}
    (storable : Storable jalv control chars) (ring : ZixRing) :
    ∃ next after last, jalvSetControl jalv ring pointer (.ofBytes control.valueType (chars ++ [0])) =
        some (0, next, after) ∧ next.controls[pointer]? = some { control with value := last } ∧
      last.HasBytes control.valueType (chars ++ [0]) := by
  obtain ⟨⟨status, value⟩, set⟩ := Option.isSome_iff_exists.mp storable.defined
  obtain rfl := (anyValueSet_status set).mpr storable.grows
  obtain ⟨next, after, ran, _, here⟩ := jalvSetControl_keeps prepared found set storable.fits ring
  obtain ⟨_, held⟩ | ⟨one, _⟩ := anyValueSet_cases set
  · refine ⟨next, after, value, ran, here, held.hasBytes ?_⟩
    rw [List.length_append]
    exact storable.small
  · cases one

/-- A text that is not quoted, or in which a backslash stands alone, is refused. -/
theorem setControlFromString_refused (parser : NumberParser) (ring : ZixRing)
    (found : jalv.controls[pointer]? = some control)
    (isText : control.valueType = jalv.forge.string ∨ control.valueType = jalv.forge.path)
    (refused : text.head? ≠ some 34 ∨ ∃ rest, text = 34 :: rest ∧ Refused rest) :
    setControlFromString parser jalv ring pointer text = some (1, jalv, ring) := by
  rw [setControlFromString, found, Option.bind_eq_bind, Option.bind_some]
  simp only [if_pos isText]
  rcases refused with noQuote | ⟨rest, rfl, refused⟩
  · have other : charAt text 0 ≠ some 34 := by
      cases text with
      | nil => decide
      | cons char rest =>
        rw [show charAt (char :: rest) 0 = some char from charAt_append [] char rest]
        exact noQuote
    rw [if_pos other]
    rfl
  · have quote : charAt (34 :: rest) 0 = some 34 := charAt_append [] 34 rest
    have scanned : quotedLength rest (rest.length + 1 + 1) 0 = some (.error ()) :=
      quotedLength_refused refused [] (by omega)
    rw [if_neg (not_not.mpr quote), List.tail_cons, List.length_cons, scanned]
    rfl

/-- When the call returns for an opening quote, the scan has ended, at a quote if something was set. -/
theorem setControlFromString_scanned {parser : NumberParser} (found : jalv.controls[pointer]? = some control)
    (isText : control.valueType = jalv.forge.string ∨ control.valueType = jalv.forge.path) {status : Nat}
    {next : JalvImpl} {after : ZixRing}
    (ran : setControlFromString parser jalv ring pointer (34 :: text) = some (status, next, after)) :
    Refused text ∨ ∃ length reply, quotedLength text (text.length + 2) 0 = some (.ok length) ∧ status = 0 ∧
      jalvSetControl jalv ring pointer (.ofBytes control.valueType (text.take length ++ [0])) =
        some (reply, next, after) := by
  have quote : charAt (34 :: text) 0 = some 34 := charAt_append [] 34 text
  have run := ran
  rw [setControlFromString, found, Option.bind_eq_bind, Option.bind_some] at run
  simp only [if_pos isText, if_neg (not_not.mpr quote), List.tail_cons, List.length_cons] at run
  obtain ⟨scanned, scan, _⟩ := Option.bind_eq_some_iff.mp run
  cases scanned with
  | error _ => exact .inl (@refused_of_quotedLength text [] (text.length + 2) scan)
  | ok length =>
    rw [setControlFromString_closed ring parser found isText scan] at ran
    obtain ⟨⟨reply, _⟩, set, same⟩ := Option.map_eq_some_iff.mp ran
    cases same
    exact .inr ⟨length, reply, scan, rfl, set⟩

/-- A string that a control has after a set could be stored, as the message buffer had no zero for its end. -/
theorem Storable.of_stored {bytes : List Byte} {status : Nat} {next : JalvImpl} {after : ZixRing} {last : ValueStore}
    {chars : Text} (prepared : jalv.Prepared) (ones : jalv.uiMsg = fun _ => 1)
    (found : jalv.controls[pointer]? = some control)
    (ran : jalvSetControl jalv ring pointer (.ofBytes control.valueType bytes) = some (status, next, after))
    (here : next.controls[pointer]? = some { control with value := last })
    (has : last.HasBytes control.valueType (chars ++ [0])) :
    (∃ size, chars ++ [0] = bytes.take size) ∧ (bytes = chars ++ [0] → Storable jalv control chars) := by
  have size : last.value.size.toNat = chars.length + 1 := by
    rw [has.size, List.length_append]
    rfl
  obtain ⟨_, here', zero | ⟨⟨value, set⟩, ⟨fits, held⟩ | ⟨_, data⟩⟩⟩ := jalvSetControl_leaves prepared found ran
  · cases here.symm.trans here'
    rw [zero] at size
    cases size
  · cases here.symm.trans here'
    refine ⟨⟨_, Option.some.inj (has.data.symm.trans held.data)⟩, ?_⟩
    rintro rfl
    exact ⟨size ▸ last.value.size.toNat_lt, Option.isSome_iff_exists.mpr ⟨_, set⟩, (anyValueSet_status set).mp rfl,
      fits⟩
  · cases here.symm.trans here'
    -- The string ends with a zero, and the buffer had none
    have same := Option.some.inj (has.data.symm.trans data)
    rw [ones, Memory.load_const] at same
    have zero := List.eq_of_mem_replicate (same ▸ List.mem_append_right chars List.mem_cons_self)
    cases zero

/-- A text that is refused is parsed strictly if it is no literal. -/
theorem StrictlyParsed.of_refused (found : jalv.controls[pointer]? = some control)
    (isText : control.valueType = jalv.forge.string ∨ control.valueType = jalv.forge.path)
    (refused : text.head? ≠ some 34 ∨ ∃ rest, text = 34 :: rest ∧ Refused rest)
    (none : ∀ bytes, ¬DenotesValue strtod strtodLength jalv.world kind text bytes) :
    StrictlyParsed strtod strtodLength jalv ring pointer control kind text := by
  intro uiMsg
  exact ⟨1, _, _, @setControlFromString_refused (jalv.written uiMsg) pointer control text _ ring found isText refused,
    fun bytes denotes => absurd denotes (none bytes), fun _ => ⟨by decide, rfl, rfl⟩⟩

/-- The closing quote that is found is the one of the literal, if it has no escaped ones. -/
theorem strictlyParsed_text (prepared : jalv.Prepared) (found : jalv.controls[pointer]? = some control)
    (isText : control.valueType = jalv.forge.string ∨ control.valueType = jalv.forge.path)
    (textKind : kind = .string ∨ kind = .path) :
    StrictlyParsed strtod strtodLength jalv ring pointer control kind text ↔
      text.head? ≠ some 34 ∨ (∃ rest, text = 34 :: rest ∧ Refused rest) ∨
        ∃ chars blank, text = 34 :: (chars ++ 34 :: blank) ∧ 34 ∉ chars ∧ 92 ∉ chars ∧ blank.all isSpace ∧
          Storable jalv control chars := by
  constructor
  · intro parsed
    by_cases quote : text.head? = some 34
    · obtain ⟨rest, rfl⟩ : ∃ rest, text = 34 :: rest := by
        cases text with
        | nil => cases quote
        | cons char rest => exact ⟨rest, congrArg (· :: rest) (Option.some.inj quote)⟩
      obtain ⟨status, next, after, ran, right, refused⟩ := parsed fun _ => 1
      rcases @setControlFromString_scanned (jalv.written fun _ => 1) ring pointer control rest _ found isText
        _ _ _ ran with stray | ⟨length, reply, scan, rfl, set⟩
      · exact .inr (.inl ⟨rest, rfl, stray⟩)
      · obtain ⟨bytes, denotes⟩ : ∃ bytes, DenotesValue strtod strtodLength jalv.world kind (34 :: rest) bytes := by
          by_contra none
          exact (refused fun bytes denotes => none ⟨bytes, denotes⟩).1 rfl
        obtain ⟨_, last, here, has⟩ := right bytes denotes
        obtain ⟨quoted, value, blank, literal, all, same, rfl⟩ := denotes.string_head textKind
        obtain rfl := List.tail_eq_of_cons_eq same
        obtain ⟨⟨size, stored⟩, storable⟩ := Storable.of_stored (prepared.written fun _ => 1) rfl found set here has
        obtain ⟨rfl, scans, noQuote⟩ := quoted_plain literal scan stored
        refine .inr (.inr ⟨quoted, blank, rfl, noQuote, scans.no_backslash noQuote, all, ?_⟩)
        cases scan.symm.trans (quotedLength_literal scans blank)
        obtain ⟨small, defined, grows, fits⟩ := storable (by rw [List.take_left])
        exact ⟨small, defined, grows, fun reports => ⟨(fits reports).room, (fits reports).small⟩⟩
    · exact .inl quote
  · rintro (noQuote | ⟨rest, rfl, refused⟩ | ⟨chars, blank, rfl, noQuote, noBackslash, all, storable⟩)
    · refine .of_refused found isText (.inl noQuote) fun bytes denotes => ?_
      obtain ⟨_, _, _, _, _, rfl, _⟩ := denotes.string_head textKind
      exact noQuote rfl
    · refine .of_refused found isText (.inr ⟨rest, rfl, refused⟩) fun bytes denotes => ?_
      obtain ⟨_, _, _, literal, all, same, _⟩ := denotes.string_head textKind
      obtain rfl := List.tail_eq_of_cons_eq same
      exact literal.not_refused all refused
    · intro uiMsg
      have scan := quotedLength_literal (Scans.of_plain noQuote noBackslash) blank
      have storable : Storable (jalv.written uiMsg) control chars :=
        ⟨storable.small, storable.defined, storable.grows,
          fun reports => ⟨(storable.fits reports).room, (storable.fits reports).small⟩⟩
      obtain ⟨next, after, last, set, here, has⟩ := jalvSetControl_string (prepared.written uiMsg) found storable ring
      refine ⟨0, next, after, ?_, fun bytes denotes => ⟨rfl, last, here, ?_⟩,
        fun none => absurd (DenotesValue.of_string textKind (.of_plain noQuote noBackslash) all) (none _)⟩
      · rw [@setControlFromString_closed (jalv.written uiMsg) ring pointer control _ _ found isText _ scan,
          List.take_left, set, Option.map_some]
      · obtain ⟨quoted, value, blank', literal', _, same, rfl⟩ := denotes.string_head textKind
        obtain ⟨_, rfl⟩ := Quoted.unique noQuote literal' all (List.tail_eq_of_cons_eq same)
        exact has

/-- The text is exactly parsed strictly if it is one of those that are told from others in its type. -/
theorem strictlyParsed_iff (prepared : jalv.Prepared) (found : jalv.controls[pointer]? = some control)
    (free : control.value.Freeable) (type : control.valueType = jalv.forge.valueType kind) :
    StrictlyParsed strtod strtodLength jalv ring pointer control kind text ↔
      IsStrict strtod strtodLength jalv control kind text := by
  cases kind with
  | int => exact strictlyParsed_number prepared found free type (.inr (.inr (.inr rfl)))
  | long => exact strictlyParsed_number prepared found free type (.inr (.inr (.inl rfl)))
  | float => exact strictlyParsed_number prepared found free type (.inr (.inl rfl))
  | double => exact strictlyParsed_number prepared found free type (.inl rfl)
  | bool => exact strictlyParsed_bool prepared found free type
  | string => exact strictlyParsed_text prepared found (.inl type) (.inl rfl)
  | path => exact strictlyParsed_text prepared found (.inr type) (.inr rfl)

end

/-- The string `a` in quotes. -/
theorem strictlyParsed_iff_test :
    StrictlyParsed (fun _ => 0) (fun _ => 0) textHost (.empty 4095) 0 textControl .string [34, 97, 34] := by
  refine (strictlyParsed_iff textHost_prepared rfl (fun long => absurd long (by decide)) rfl).mpr ?_
  refine Or.inr (Or.inr ⟨[97], [], rfl, by decide, by decide, rfl, by decide, rfl, ?_, fun _ => ⟨by decide, by decide⟩⟩)
  exact fun grow => absurd grow.1 (by decide)

/-- A quote that is not closed is read past its end, an escaped quote is stored with its backslash, the word
for false is refused, and another word is taken for false. -/
theorem strictlyParsed_refuted :
    ¬StrictlyParsed (fun _ => 0) (fun _ => 0) textHost (.empty 4095) 0 textControl .string [34] ∧
    ¬StrictlyParsed (fun _ => 0) (fun _ => 0) textHost (.empty 4095) 0 textControl .string [34, 92, 34, 98, 34] ∧
    ¬StrictlyParsed (fun _ => 0) (fun _ => 0) textHost (.empty 4095) 1 falseControl .bool falseWord ∧
    ¬StrictlyParsed (fun _ => 0) (fun _ => 0) textHost (.empty 4095) 1 falseControl .bool [110, 111] := by
  refine ⟨fun parsed => ?_, fun parsed => ?_, fun parsed => ?_, fun parsed => ?_⟩
  · obtain ⟨_, _, _, ran, _⟩ := parsed fun _ => 0
    cases ran
  · obtain ⟨_, _, _, ran, right, _⟩ := parsed fun _ => 1
    have literal : Quoted [92, 34, 98] [34, 98] := .escaped (.plain (by decide) (by decide) .nil)
    obtain ⟨zero, last, here, has⟩ := right _ (@DenotesValue.string _ _ _ _ _ [] literal rfl)
    rcases @setControlFromString_scanned (textHost.written fun _ => 1) _ _ _ _ _ rfl (.inl rfl) _ _ _ ran with
      refused | ⟨_, _, scan, _, set⟩
    · exact @Quoted.not_refused _ _ [] literal rfl refused
    · obtain ⟨⟨_, stored⟩, _⟩ := Storable.of_stored (textHost_prepared.written fun _ => 1) rfl rfl set here has
      cases (@quoted_plain _ _ [] _ _ literal scan stored).1
  · rcases (strictlyParsed_bool textHost_prepared rfl (fun long => absurd long (by decide)) rfl).mp parsed with
      ⟨blank, _, same⟩ | ⟨_, other⟩
    · cases same
    · exact other ⟨[], rfl, rfl⟩
  · rcases (strictlyParsed_bool textHost_prepared rfl (fun long => absurd long (by decide)) rfl).mp parsed with
      ⟨blank, _, same⟩ | ⟨isFalse, _⟩
    · cases same
    · cases isFalse

end Jalv
