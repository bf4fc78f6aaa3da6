import Jalv.Console.TextRoundTrip
import Jalv.Foundation.Lines

/-! Literals of the types of controls, and what is read where there is one.

The console scans for a closing quote and reads numbers up to where they end. Neither
tells a literal from the text that it is part of.
-/

set_option autoImplicit false

namespace Jalv

open Foundation

/-- What stands between two quotes, and what it denotes: there is a backslash before every quote in it. -/
inductive Quoted : Text → Text → Prop where
  | nil : Quoted [] []
  | plain {char : Byte} {rest value : Text} (quote : char ≠ 34) (backslash : char ≠ 92) :
      Quoted rest value → Quoted (char :: rest) (char :: value)
  | escaped {rest value : Text} : Quoted rest value → Quoted (92 :: 34 :: rest) (34 :: value)

/-- A text in which the scan for the closing quote meets a backslash that no quote follows. An escaped
quote is taken together with the character after it. -/
inductive Refused : Text → Prop where
  | last : Refused [92]
  | stray {char : Byte} {rest : Text} (noQuote : char ≠ 34) : Refused (92 :: char :: rest)
  | plain {char : Byte} {rest : Text} (quote : char ≠ 34) (backslash : char ≠ 92) :
      Refused rest → Refused (char :: rest)
  | escaped {char : Byte} {rest : Text} : Refused rest → Refused (92 :: 34 :: char :: rest)

inductive IntegerLiteral : Text → Int → Prop where
  | minus {digits : Text} (nonempty : digits ≠ []) (all : digits.all isDigit) :
      IntegerLiteral (45 :: digits) (-decimal digits)
  | plus {digits : Text} (nonempty : digits ≠ []) (all : digits.all isDigit) :
      IntegerLiteral (43 :: digits) (decimal digits)
  | unsigned {digits : Text} (nonempty : digits ≠ []) (all : digits.all isDigit) :
      IntegerLiteral digits (decimal digits)

section

variable {text quoted value blank before : Text} {fuel : Nat}

theorem Quoted.unescaped (literal : Quoted quoted value) :
    quoted = value ∧ Scans value ∧ 34 ∉ value ∨
      ∃ plain rest behind, quoted = plain ++ 92 :: 34 :: rest ∧ value = plain ++ 34 :: behind ∧ Scans plain := by
  induction literal with
  | nil => exact .inl ⟨rfl, .nil, List.not_mem_nil⟩
  | @plain char rest value quote backslash _ ih =>
    rcases ih with ⟨rfl, scans, none⟩ | ⟨plain, rest, behind, rfl, rfl, scans⟩
    · exact .inl ⟨rfl, .plain quote backslash scans, List.not_mem_cons_of_ne_of_not_mem quote.symm none⟩
    · exact .inr ⟨char :: plain, rest, behind, rfl, rfl, .plain quote backslash scans⟩
  | @escaped rest value _ _ => exact .inr ⟨[], rest, value, rfl, rfl, .nil⟩

theorem Refused.not_blank (all : blank.all isSpace) : ¬Refused blank := by
  intro refused
  induction refused with
  | last => cases all
  | stray | escaped =>
    rw [List.all_cons, Bool.and_eq_true] at all
    cases all.1
  | plain _ _ _ ih =>
    rw [List.all_cons, Bool.and_eq_true] at all
    exact ih all.2

theorem Refused.rest {char : Byte} (quote : char ≠ 34) (backslash : char ≠ 92) (refused : Refused (char :: text)) :
    Refused text := by
  cases refused with
  | last | stray | escaped => exact absurd rfl backslash
  | plain _ _ rest => exact rest

theorem Refused.not_quote : ¬Refused (34 :: text) := by
  intro refused
  cases refused with
  | plain quote => exact quote rfl

theorem Refused.behind_escaped (refused : Refused (92 :: 34 :: text)) :
    ∃ char rest, text = char :: rest ∧ Refused rest := by
  cases refused with
  | stray noQuote => exact absurd rfl noQuote
  | plain _ backslash => exact absurd rfl backslash
  | escaped rest => exact ⟨_, _, rfl, rest⟩

theorem Quoted.not_refused (literal : Quoted quoted value) (all : blank.all isSpace) :
    ¬Refused (quoted ++ 34 :: blank) := by
  induction literal with
  | nil => exact Refused.not_quote
  | plain quote backslash _ ih => exact fun refused => ih (refused.rest quote backslash)
  | escaped literal ih =>
    intro refused
    obtain ⟨char, rest, split, refused⟩ := refused.behind_escaped
    -- The character that is skipped closes the literal, is a plain one, or escapes a quote
    cases literal with
    | nil =>
      cases split
      exact Refused.not_blank all refused
    | plain quote backslash =>
      cases split
      exact ih (.plain quote backslash refused)
    | escaped =>
      cases split
      exact refused.not_quote

theorem Quoted.unique {value' blank' : Text} (none : 34 ∉ value) (literal : Quoted quoted value')
    (all : blank.all isSpace) (same : value ++ 34 :: blank = quoted ++ 34 :: blank') :
    quoted = value ∧ value' = value := by
  obtain ⟨tail, rfl, rest⟩ := begins_of_append none same
  cases tail with
  | cons char tail =>
    cases rest
    have member := List.all_eq_true.mp all 34 (List.mem_append_right _ List.mem_cons_self)
    cases member
  | nil =>
    rw [List.append_nil] at literal ⊢
    refine ⟨rfl, ?_⟩
    rcases literal.unescaped with ⟨same, _⟩ | ⟨plain, rest, _, rfl, _⟩
    · exact same.symm
    · exact absurd (List.mem_append_right _ (List.mem_cons_of_mem _ List.mem_cons_self)) none

theorem quotedLength_cons (before : Text) (char : Byte) (rest : Text) (fuel : Nat) :
    quotedLength (before ++ char :: rest) (fuel + 1) before.length =
      if char = 34 then some (.ok before.length)
      else if char = 92 then (charAt (before ++ char :: rest) (before.length + 1)).bind fun escaped =>
        if escaped = 34 then quotedLength (before ++ char :: rest) fuel (before.length + 3) else some (.error ())
      else quotedLength (before ++ char :: rest) fuel (before.length + 1) := by
  rw [quotedLength, charAt_append]
  rfl

theorem quotedLength_behind (before chars text : Text) (fuel : Nat) :
    quotedLength (before ++ (chars ++ text)) fuel (before.length + chars.length) =
      quotedLength ((before ++ chars) ++ text) fuel (before ++ chars).length := by
  rw [List.append_assoc, List.length_append]

theorem charAt_second (before : Text) (char second : Byte) (rest : Text) :
    charAt (before ++ char :: second :: rest) (before.length + 1) = some second := by
  have here := charAt_append (before ++ [char]) second rest
  rw [List.length_append, List.append_assoc] at here
  exact here

theorem charAt_end (text : Text) : charAt text text.length = some 0 := by
  rw [charAt, if_neg (Nat.lt_irrefl _), if_pos rfl]

theorem quotedLength_beyond {len : Nat} (beyond : text.length < len) : quotedLength text fuel len = none := by
  cases fuel with
  | zero => rfl
  | succ fuel =>
    rw [quotedLength, charAt, if_neg (by omega), if_neg (by omega)]
    rfl

theorem quotedLength_refused (refused : Refused text) (before : Text) (enough : text.length < fuel) :
    quotedLength (before ++ text) fuel before.length = some (.error ()) := by
  obtain _ | fuel := fuel
  · cases enough
  induction refused generalizing before fuel with
  | last =>
    have terminator := charAt_end (before ++ [92])
    rw [List.length_append, List.length_singleton] at terminator
    rw [quotedLength_cons, if_neg (by decide), if_pos rfl, terminator]
    rfl
  | stray noQuote =>
    rw [quotedLength_cons, if_neg (by decide), if_pos rfl, charAt_second, Option.bind_some, if_neg noQuote]
  | @plain char rest quote backslash _ ih =>
    obtain _ | fuel := fuel
    · simp only [List.length_cons] at enough
      omega
    rw [quotedLength_cons, if_neg quote, if_neg backslash]
    exact (quotedLength_behind before [char] rest _).trans (ih _ _ (Nat.lt_of_succ_lt_succ enough))
  | @escaped char rest _ ih =>
    obtain _ | fuel := fuel
    · simp only [List.length_cons] at enough
      omega
    rw [quotedLength_cons, if_neg (by decide), if_pos rfl, charAt_second, Option.bind_some, if_pos rfl]
    refine (quotedLength_behind before [92, 34, char] rest _).trans (ih _ _ ?_)
    simp only [List.length_cons] at enough
    omega

theorem refused_of_quotedLength (scanned : quotedLength (before ++ text) fuel before.length = some (.error ())) :
    Refused text := by
  induction fuel generalizing before text with
  | zero => cases scanned
  | succ fuel ih =>
    cases text with
    | nil =>
      rw [List.append_nil, quotedLength, charAt_end, Option.bind_eq_bind, Option.bind_some, if_neg (by decide),
        if_neg (by decide), quotedLength_beyond (Nat.lt_succ_self _)] at scanned
      cases scanned
    | cons char rest =>
      rw [quotedLength_cons] at scanned
      split at scanned
      · cases scanned
      · next quote =>
        split at scanned
        · next backslash =>
          subst backslash
          cases rest with
          | nil => exact .last
          | cons second rest =>
            rw [charAt_second, Option.bind_some] at scanned
            split at scanned
            · next isQuote =>
              subst isQuote
              cases rest with
              | nil =>
                rw [quotedLength_beyond (by simp)] at scanned
                cases scanned
              | cons third rest =>
                exact .escaped (ih ((quotedLength_behind before [92, 34, third] rest fuel).symm.trans scanned))
            · next noQuote => exact .stray noQuote
        · next backslash =>
          exact .plain quote backslash (ih ((quotedLength_behind before [char] rest fuel).symm.trans scanned))

/-- The scan runs over an escaped quote. -/
theorem quotedLength_escaped {rest : Text} {stop : Nat} (scans : Scans text)
    (scanned : quotedLength (before ++ (text ++ 92 :: 34 :: rest)) fuel before.length = some (.ok stop)) :
    before.length + text.length < stop := by
  obtain _ | fuel := fuel
  · cases scanned
  induction scans generalizing before fuel with
  | nil =>
    rw [List.nil_append, quotedLength_cons, if_neg (by decide), if_pos rfl, charAt_second, Option.bind_some,
      if_pos rfl] at scanned
    have later := (quotedLength_stops scanned).1
    rw [List.length_nil]
    omega
  | @plain char others quote backslash _ ih =>
    rw [List.cons_append, quotedLength_cons, if_neg quote, if_neg backslash] at scanned
    obtain _ | fuel := fuel
    · cases scanned
    have later := ih _ ((quotedLength_behind before [char] _ _).symm.trans scanned)
    simp only [List.length_append, List.length_cons, List.length_nil] at later ⊢
    omega
  | @escaped char others _ ih =>
    rw [List.cons_append, quotedLength_cons, if_neg (by decide), if_pos rfl, List.cons_append, charAt_second,
      Option.bind_some, if_pos rfl] at scanned
    obtain _ | fuel := fuel
    · cases scanned
    have later := ih _ ((quotedLength_behind before [92, 34, char] _ _).symm.trans scanned)
    simp only [List.length_append, List.length_cons, List.length_nil] at later ⊢
    omega

/-- Only a literal without an escaped quote is stored as what it denotes. -/
theorem quoted_plain {length size : Nat} (literal : Quoted quoted value)
    (scanned : quotedLength (quoted ++ 34 :: blank) ((quoted ++ 34 :: blank).length + 2) 0 = some (.ok length))
    (stored : value ++ [0] = ((quoted ++ 34 :: blank).take length ++ [0]).take size) :
    quoted = value ∧ Scans value ∧ 34 ∉ value := by
  rcases literal.unescaped with plain | ⟨plain, rest, behind, rfl, rfl, scans⟩
  · exact plain
  -- The backslash is stored where the quote belongs
  exfalso
  have shape : plain ++ 92 :: 34 :: rest ++ 34 :: blank = plain ++ 92 :: 34 :: (rest ++ 34 :: blank) := by
    rw [List.append_assoc]
    rfl
  rw [shape] at scanned stored
  have later := @quotedLength_escaped plain [] _ _ _ scans scanned
  rw [List.length_nil, Nat.zero_add] at later
  obtain ⟨more, rfl⟩ : ∃ more, length = plain.length + (more + 1) := ⟨length - plain.length - 1, by omega⟩
  rw [List.take_length_add_append, List.take_succ_cons, List.append_assoc, List.append_assoc,
    List.cons_append, List.cons_append] at stored
  have size' := congrArg List.length stored
  obtain ⟨more', rfl⟩ : ∃ more', size = plain.length + (more' + 1) := by
    refine ⟨size - plain.length - 1, ?_⟩
    simp only [List.length_append, List.length_cons, List.length_take] at size'
    omega
  rw [List.take_length_add_append, List.take_succ_cons] at stored
  have unequal := (List.cons.inj (List.append_cancel_left stored)).1
  cases unequal

theorem Scans.no_backslash (scans : Scans text) (noQuote : 34 ∉ text) : 92 ∉ text := by
  induction scans with
  | nil => exact List.not_mem_nil
  | plain _ backslash _ ih =>
    exact List.not_mem_cons_of_ne_of_not_mem backslash.symm (ih (List.not_mem_of_not_mem_cons noQuote))
  | escaped => exact absurd (List.mem_cons_of_mem _ List.mem_cons_self) noQuote

theorem Scans.of_plain (noQuote : 34 ∉ text) (noBackslash : 92 ∉ text) : Scans text := by
  induction text with
  | nil => exact .nil
  | cons char rest ih =>
    rw [List.mem_cons, not_or] at noQuote noBackslash
    exact .plain (Ne.symm noQuote.1) (Ne.symm noBackslash.1) (ih noQuote.2 noBackslash.2)

theorem quotedLength_literal (scans : Scans text) (blank : Text) :
    quotedLength (text ++ 34 :: blank) ((text ++ 34 :: blank).length + 2) 0 = some (.ok text.length) := by
  have enough : text.length < (text ++ 34 :: blank).length + 2 := by
    rw [List.length_append]
    omega
  have complete := quotedLength_complete scans [] blank enough
  rwa [List.nil_append, List.length_nil, Nat.zero_add] at complete

theorem Quoted.of_plain (noQuote : 34 ∉ text) (noBackslash : 92 ∉ text) : Quoted text text := by
  induction text with
  | nil => exact .nil
  | cons char rest ih =>
    rw [List.mem_cons, not_or] at noQuote noBackslash
    exact .plain (Ne.symm noQuote.1) (Ne.symm noBackslash.1) (ih noQuote.2 noBackslash.2)

theorem isWord_append (word : Text) (all : blank.all isSpace) : isWord (word ++ blank) word = true := by
  have ends : ((charAt (word ++ blank) word.length).map isGraph).getD false = false := by
    cases blank with
    | nil => rw [List.append_nil, charAt_end]; rfl
    | cons char rest =>
      rw [charAt_append]
      rw [List.all_cons, Bool.and_eq_true] at all
      have space := all.1
      simp only [isSpace, decide_eq_true_eq, Option.map_some, Option.getD_some, isGraph, decide_eq_false_iff_not]
        at space ⊢
      omega
  rw [isWord, List.take_left, ends]
  simp

theorem isWord_take {word : Text} (begins : isWord text word = true) : text.take word.length = word := by
  unfold isWord at begins
  simp only [Bool.not_eq_true', decide_eq_true_eq] at begins
  exact begins.1

theorem takeWhile_digits {digits : Text} (all : digits.all isDigit) (blanks : blank.all isSpace) :
    (digits ++ blank).takeWhile isDigit = digits := by
  have none : blank.takeWhile isDigit = [] := by
    cases blank with
    | nil => rfl
    | cons char rest =>
      rw [List.all_cons, Bool.and_eq_true] at blanks
      refine List.takeWhile_cons_of_neg ?_
      have space := blanks.1
      simp only [isSpace, isDigit, decide_eq_true_eq] at space ⊢
      omega
  rw [List.takeWhile_append_of_pos (List.all_eq_true.mp all), none, List.append_nil]

/-- A literal of a long is read as what it denotes. -/
theorem strtolBits_literal {number : Int} (literal : IntegerLiteral text number) (blanks : blank.all isSpace)
    (low : -2 ^ 63 ≤ number) (high : number < 2 ^ 63) :
    strtolBits (text ++ blank) = (Int64.ofInt number).toUInt64 := by
  cases literal with
  | @minus digits _ all =>
    have sign : (45 :: digits ++ blank).dropWhile isSpace = 45 :: (digits ++ blank) := rfl
    have bounded : max (-(longMax : Int) - 1) (-decimal digits) = -decimal digits := by
      unfold longMax
      omega
    simp only [strtolBits, sign, takeWhile_digits all blanks, bounded]
  | @plus digits _ all =>
    have sign : (43 :: digits ++ blank).dropWhile isSpace = 43 :: (digits ++ blank) := rfl
    have bounded : min (longMax : Int) (decimal digits) = decimal digits := by
      unfold longMax
      omega
    simp only [strtolBits, sign, takeWhile_digits all blanks, bounded]
  | unsigned nonempty all =>
    have bounded : min (longMax : Int) (decimal text) = decimal text := by
      unfold longMax
      omega
    have digits := takeWhile_digits all blanks
    obtain ⟨digit, others, rfl⟩ := List.exists_cons_of_ne_nil nonempty
    rw [List.all_cons, Bool.and_eq_true] at all
    have noSpace : isSpace digit = false := by
      have isDigit := all.1
      simp only [Jalv.isDigit, isSpace, decide_eq_true_eq, decide_eq_false_iff_not] at isDigit ⊢
      omega
    have number : (digit :: others ++ blank).dropWhile isSpace = digit :: others ++ blank := by
      rw [List.cons_append, List.dropWhile_cons_of_neg (by simp [noSpace])]
    rw [strtolBits, number]
    -- A digit is no sign
    split
    · next _ minus =>
      cases (List.cons.inj minus).1
      cases all.1
    · next _ plus =>
      cases (List.cons.inj plus).1
      cases all.1
    · rw [digits, bounded]

theorem toUInt32_ofInt (number : Int) : (Int64.ofInt number).toUInt64.toUInt32 = (Int32.ofInt number).toUInt32 := by
  refine UInt32.toBitVec_inj.mp ?_
  rw [UInt64.toBitVec_toUInt32, Int64.toBitVec_toUInt64, Int64.toBitVec_ofInt, Int32.toBitVec_toUInt32,
    Int32.toBitVec_ofInt]
  refine BitVec.eq_of_toNat_eq ?_
  rw [BitVec.toNat_setWidth, BitVec.toNat_ofInt, BitVec.toNat_ofInt]
  omega

end

/-- A text that `strtod` reads up to the whitespace at its end, and that does not begin with whitespace. -/
structure WholeNumber (strtodLength : Text → Nat) (text : Text) : Prop where
  read : 0 < strtodLength text
  unindented : ∀ char, text.head? = some char → isSpace char = false
  blank : (text.drop (strtodLength text)).all isSpace

/-- A literal of a type up to trailing whitespace, and the bytes of the value that it denotes. A float is
the double of its text, rounded. -/
inductive DenotesValue (strtod : Text → UInt64) (strtodLength : Text → Nat) (world : World) :
    ValueType → Text → List Byte → Prop where
  | string {quoted value blank : Text} (literal : Quoted quoted value) (all : blank.all isSpace) :
      DenotesValue strtod strtodLength world .string (34 :: (quoted ++ 34 :: blank)) (value ++ [0])
  | path {quoted value blank : Text} (literal : Quoted quoted value) (all : blank.all isSpace) :
      DenotesValue strtod strtodLength world .path (34 :: (quoted ++ 34 :: blank)) (value ++ [0])
  | double {text : Text} (whole : WholeNumber strtodLength text) :
      DenotesValue strtod strtodLength world .double text (little 8 (strtod text).toNat)
  | float {text : Text} (whole : WholeNumber strtodLength text) :
      DenotesValue strtod strtodLength world .float text (word (world.floatOfDouble (strtod text)))
  | long {text blank : Text} {number : Int} (literal : IntegerLiteral text number) (all : blank.all isSpace)
      (low : -2 ^ 63 ≤ number) (high : number < 2 ^ 63) :
      DenotesValue strtod strtodLength world .long (text ++ blank) (little 8 (Int64.ofInt number).toUInt64.toNat)
  | int {text blank : Text} {number : Int} (literal : IntegerLiteral text number) (all : blank.all isSpace)
      (low : -2 ^ 31 ≤ number) (high : number < 2 ^ 31) :
      DenotesValue strtod strtodLength world .int (text ++ blank) (word (Int32.ofInt number).toUInt32)
  -- `sizeof(bool)` is one
  | bool {blank : Text} (truth : Bool) (all : blank.all isSpace) :
      DenotesValue strtod strtodLength world .bool ((if truth then trueWord else falseWord) ++ blank)
        [if truth then 1 else 0]

end Jalv
