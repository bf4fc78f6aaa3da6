import Jalv.Host.Rejected

/-! The patch:Set message that the main thread writes for a property.

The message is forged in a buffer of fixed size and then looked into like an event
from a user interface, so that the property is set a second time from the message.
-/

set_option autoImplicit false

namespace Jalv

open Foundation

def setBytes (jalv : JalvImpl) (property : URID) (atom : Atom) : List Byte :=
  word 0 ++ word jalv.urids.patchSet ++ propertyBytes jalv.urids.patchProperty jalv.forge.urid (word property) ++
    (word jalv.urids.patchValue ++ word 0 ++ word atom.size ++ word atom.type ++ atom.body)

def JalvImpl.msgRoom (jalv : JalvImpl) : Nat := (UInt32.ofNat jalv.uiMsgSize).toNat

/-- The number of padding bytes behind the value, which are left out if there is no room for them. -/
def setPadding (jalv : JalvImpl) (atom : Atom) : Nat :=
  if 56 + (atom.size.toNat + 7) / 8 * 8 ≤ jalv.msgRoom then (atom.size.toNat + 7) / 8 * 8 - atom.size.toNat else 0

def setMessage (jalv : JalvImpl) (property : URID) (atom : Atom) : Atom :=
  .ofBytes jalv.forge.object (setBytes jalv property atom ++ List.replicate (setPadding jalv atom) 0)

/-- The whole message fits into its buffer, where the offset behind the padding does not overflow. -/
structure SetFits (jalv : JalvImpl) (atom : Atom) : Prop where
  room : 56 + atom.size.toNat ≤ jalv.msgRoom
  small : 56 + (atom.size.toNat + 7) / 8 * 8 < 2 ^ 32

section

variable {jalv : JalvImpl} {property : URID} {atom : Atom}

theorem length_setBytes : (setBytes jalv property atom).length = 48 + atom.size.toNat := by
  simp only [setBytes, propertyBytes, List.length_append, length_word, length_padded, atom.sized]
  omega

theorem setPadding_le (fits : SetFits jalv atom) :
    56 + atom.size.toNat + setPadding jalv atom ≤ jalv.msgRoom ∧ setPadding jalv atom < 8 := by
  have room := fits.room
  unfold setPadding
  split <;> omega

def setStart (jalv : JalvImpl) : AtomForge :=
  ⟨UInt32.ofNat jalv.uiMsgSize, word 8 ++ word jalv.forge.object ++ word 0 ++ word jalv.urids.patchSet⟩

def setParts (jalv : JalvImpl) (property : URID) (atom : Atom) : List Byte :=
  propertyBytes jalv.urids.patchProperty jalv.forge.urid (word property) ++
    (word jalv.urids.patchValue ++ word 0) ++ (word atom.size ++ word atom.type)

theorem forgeSet_parts (room : 56 ≤ jalv.msgRoom) : forgeSet jalv property atom =
    (lv2AtomForgeWrite ((setStart jalv).append (setParts jalv property atom)) atom.body).map (·.object jalv.forge) := by
  have size (bytes : List Byte) : ((setStart jalv).append bytes).size.toNat = jalv.msgRoom := rfl
  have length (bytes : List Byte) : ((setStart jalv).append bytes).buffer.length = 16 + bytes.length := by
    simp [setStart]
  have header : (word 8 ++ word jalv.forge.object ++ word 0 ++ word jalv.urids.patchSet).length = 16 := by simp
  have begins : lv2AtomForgeObject jalv.forge (UInt32.ofNat jalv.uiMsgSize) 0 jalv.urids.patchSet =
      some (setStart jalv) := by
    rw [lv2AtomForgeObject, lv2AtomForgeRaw_room _ _ (by
      rw [header]
      exact Nat.le_trans (by simp only [List.length_nil]; omega) room)]
    rfl
  have first : (propertyBytes jalv.urids.patchProperty jalv.forge.urid (word property)).length = 24 := by
    simp [propertyBytes, length_padded]
  have written := lv2AtomForge_property (setStart jalv) jalv.urids.patchProperty jalv.forge.urid (word property) (by
    have whole : (setStart jalv).size.toNat = jalv.msgRoom := rfl
    rw [whole, first, setStart, header]
    omega)
  have key : padded (word jalv.urids.patchValue ++ word 0) = word jalv.urids.patchValue ++ word 0 := by simp [padded]
  have second := lv2AtomForgeWrite_room
    ((setStart jalv).append (propertyBytes jalv.urids.patchProperty jalv.forge.urid (word property)))
    (word jalv.urids.patchValue ++ word 0) (by
      rw [size, length, key, first, List.length_append, length_word, length_word]
      omega)
  rw [key, AtomForge.append_append] at second
  have third := lv2AtomForgeRaw_room ((setStart jalv).append
      (propertyBytes jalv.urids.patchProperty jalv.forge.urid (word property) ++
        (word jalv.urids.patchValue ++ word 0)))
    (word atom.size ++ word atom.type) (by
      rw [size, length, List.length_append, first]
      simp only [List.length_append, length_word]
      omega)
  rw [AtomForge.append_append] at third
  rw [Option.bind_eq_bind] at written
  simp only [forgeSet, begins, Option.bind_eq_bind, Option.bind_some]
  rw [← Option.bind_assoc, written, Option.bind_some, lv2AtomForgeKey, second, Option.bind_some, lv2AtomForgeAtom,
    third,
    Option.map_some, Option.bind_some]
  exact (Option.map_eq_bind ..).symm

theorem object_setParts (behind : List Byte) :
    ((setStart jalv).append (setParts jalv property atom ++ (atom.body ++ behind))).object jalv.forge =
      .ofBytes jalv.forge.object (setBytes jalv property atom ++ behind) := by
  have header : (word 8 ++ word jalv.forge.object).length = sizeofAtom := by simp [sizeofAtom]
  simp only [AtomForge.object, AtomForge.append, setStart, setParts, setBytes]
  simp only [List.append_assoc]
  rw [← List.append_assoc (word 8), List.drop_left' header]

/-- With room for all that is forged, the object is complete, up to padding at its end. -/
theorem forgeSet_eq (room : 56 + atom.size.toNat ≤ jalv.msgRoom) : forgeSet jalv property atom =
    if 56 + (atom.size.toNat + 7) / 8 * 8 < 2 ^ 32 then some (setMessage jalv property atom) else none := by
  have bound : jalv.msgRoom < 2 ^ 32 := UInt32.toNat_lt _
  have size : ((setStart jalv).append (setParts jalv property atom)).size.toNat = jalv.msgRoom := rfl
  have length : ((setStart jalv).append (setParts jalv property atom)).buffer.length = 56 := by
    simp [setStart, setParts, propertyBytes, length_padded]
  have padding : (padded atom.body).length = (atom.size.toNat + 7) / 8 * 8 := by rw [length_padded, atom.sized]
  rw [forgeSet_parts (by omega), setMessage, setPadding]
  by_cases fits : 56 + (atom.size.toNat + 7) / 8 * 8 ≤ jalv.msgRoom
  · rw [if_pos fits, if_pos (fits.trans_lt bound),
      lv2AtomForgeWrite_room _ _ (by rw [size, length, padding]; exact fits),
      AtomForge.append_append, Option.map_some, padded, object_setParts, atom.sized]
  · rw [if_neg fits, lv2AtomForgeWrite_unpadded _ _ (by rw [size, length, atom.sized]; exact room)
      (by rw [size, length, padding]; exact Nat.lt_of_not_le fits), length, padding, AtomForge.append_append]
    have whole := @object_setParts jalv property atom []
    rw [List.append_nil, List.append_nil] at whole
    rw [List.replicate_zero, List.append_nil]
    split
    · rw [Option.map_some, whole]
    · rfl

theorem setMessage_body (fits : SetFits jalv atom) :
    (setMessage jalv property atom).body = setBytes jalv property atom ++ List.replicate (setPadding jalv atom) 0 ∧
      (setMessage jalv property atom).size.toNat = 48 + atom.size.toNat + setPadding jalv atom := by
  have bound : jalv.msgRoom < 2 ^ 32 := UInt32.toNat_lt _
  have padding := setPadding_le fits
  have length : (setBytes jalv property atom ++ List.replicate (setPadding jalv atom) 0).length =
      48 + atom.size.toNat + setPadding jalv atom := by
    rw [List.length_append, length_setBytes, List.length_replicate]
  have size : (setMessage jalv property atom).size.toNat = 48 + atom.size.toNat + setPadding jalv atom := by
    rw [setMessage, Atom.ofBytes_size, UInt32.toNat_ofNat', length]
    omega
  exact ⟨Atom.ofBytes_body _ (by rw [length]; omega), size⟩

end

theorem length_flatMap_word (words : List UInt32) : (words.flatMap word).length = 4 * words.length := by
  induction words with
  | nil => rfl
  | cons value rest ih =>
    rw [List.flatMap_cons, List.length_append, length_word, ih, List.length_cons]
    omega

theorem load_words (memory : Memory Byte) (words : List UInt32) (rest : List Byte) {index : Nat}
    (inside : index < words.length) :
    wordValue ((memory.store 0 (words.flatMap word ++ rest)).load (4 * index) 4) = words[index] := by
  have split : words.flatMap word ++ rest =
      (words.take index).flatMap word ++ word words[index] ++ ((words.drop (index + 1)).flatMap word ++ rest) := by
    conv_lhs => rw [← List.take_append_drop index words, List.drop_eq_getElem_cons inside]
    simp only [List.flatMap_append, List.flatMap_cons, List.append_assoc]
  have before : ((words.take index).flatMap word).length = 4 * index := by
    rw [length_flatMap_word, List.length_take, Nat.min_eq_left (Nat.le_of_lt inside)]
  have part := Memory.load_store_part memory 0 ((words.take index).flatMap word) (word words[index])
    ((words.drop (index + 1)).flatMap word ++ rest)
  rw [before, length_word, Nat.zero_add] at part
  rw [split, part, wordValue_word]

def setWords (jalv : JalvImpl) (size : UInt32) (property : URID) (atom : Atom) : List UInt32 :=
  [size, jalv.forge.object, 0, jalv.urids.patchSet, jalv.urids.patchProperty, 0, 4, jalv.forge.urid, property, 0,
    jalv.urids.patchValue, 0, atom.size, atom.type]

def setBuffer (jalv : JalvImpl) (property : URID) (atom : Atom) : Memory Byte :=
  let object := setMessage jalv property atom
  jalv.uiMsg.store 0 (word object.size ++ word object.type ++ object.body)

section

variable {jalv : JalvImpl} {property : URID} {atom : Atom}

theorem setBuffer_eq (fits : SetFits jalv atom) : setBuffer jalv property atom =
    jalv.uiMsg.store 0 ((setWords jalv (setMessage jalv property atom).size property atom).flatMap word ++
      (atom.body ++ List.replicate (setPadding jalv atom) 0)) := by
  have four : UInt32.ofNat (word property).length = 4 := by rw [length_word]; rfl
  have padded : padded (word 4 ++ (word jalv.forge.urid ++ word property)) =
      word 4 ++ (word jalv.forge.urid ++ (word property ++ word 0)) := by
    simp only [padded, List.length_append, length_word, List.append_assoc]
    rfl
  have type : (setMessage jalv property atom).type = jalv.forge.object := rfl
  rw [setBuffer, (setMessage_body fits).1, setWords, type]
  simp only [setBytes, propertyBytes, four, padded, List.flatMap_cons, List.flatMap_nil, List.append_assoc,
    List.nil_append]

theorem setBuffer_word (fits : SetFits jalv atom) {index : Nat} (inside : index < 14) :
    wordValue ((setBuffer jalv property atom).load (4 * index) 4) =
      (setWords jalv (setMessage jalv property atom).size property atom)[index] := by
  rw [setBuffer_eq fits]
  exact load_words _ _ _ inside

theorem setBuffer_object (fits : SetFits jalv atom) :
    atomAt (setBuffer jalv property atom) 0 = setMessage jalv property atom := by
  have size : (atomAt (setBuffer jalv property atom) 0).size = (setMessage jalv property atom).size :=
    setBuffer_word fits (show 0 < 14 by decide)
  have part := Memory.load_store_part jalv.uiMsg 0
    (word (setMessage jalv property atom).size ++ word (setMessage jalv property atom).type)
    (setMessage jalv property atom).body []
  rw [List.append_nil, List.length_append, length_word, length_word, (setMessage jalv property atom).sized] at part
  refine Atom.ext (setBuffer_word fits (show 1 < 14 by decide)) ?_
  rw [atomAt_body, size]
  exact part

theorem setBuffer_value (fits : SetFits jalv atom) : atomAt (setBuffer jalv property atom) 48 = atom := by
  have size : (atomAt (setBuffer jalv property atom) 48).size = atom.size :=
    setBuffer_word fits (show 12 < 14 by decide)
  have type : (atomAt (setBuffer jalv property atom) 48).type = atom.type :=
    setBuffer_word fits (show 13 < 14 by decide)
  have part := Memory.load_store_part jalv.uiMsg 0
    ((setWords jalv (setMessage jalv property atom).size property atom).flatMap word) atom.body
    (List.replicate (setPadding jalv atom) 0)
  have before : 0 + 4 * (setWords jalv (setMessage jalv property atom).size property atom).length = 48 + 8 := rfl
  rw [List.append_assoc, ← setBuffer_eq fits, length_flatMap_word, before, atom.sized] at part
  refine Atom.ext type ?_
  rw [atomAt_body, size, part]

end

def HasSetWords (jalv : JalvImpl) (size : UInt32) (property : URID) (atom : Atom) (buffer : Memory Byte) : Prop :=
  ∀ (index : Nat) (inside : index < 14),
    wordValue (buffer.load (4 * index) 4) = (setWords jalv size property atom)[index]

section

variable {jalv : JalvImpl} {size : UInt32} {property : URID} {atom : Atom} {buffer : Memory Byte}

/-- The words report the property, with the value behind them, where the object does not end before the value. -/
theorem HasSetWords.reports (words : HasSetWords jalv size property atom buffer) (large : 48 ≤ size.toNat) :
    Reads.ReportsInside jalv.forge jalv.urids buffer 56 0 [(property, some 48)] := by
  have otype : wordValue (buffer.load 12 4) = jalv.urids.patchSet := words 3 (by decide)
  have first : wordValue (buffer.load 16 4) = jalv.urids.patchProperty := words 4 (by decide)
  have four : wordValue (buffer.load 24 4) = 4 := words 6 (by decide)
  have type : (atomAt buffer 24).type = jalv.forge.urid := words 7 (by decide)
  have body : wordValue (buffer.load 32 4) = property := words 8 (by decide)
  have second : wordValue (buffer.load 40 4) = jalv.urids.patchValue := words 10 (by decide)
  have next : nextProperty buffer 16 = 40 := by
    rw [nextProperty, four]
    decide
  have stop : 56 ≤ objectEnd buffer 0 := by
    have whole : wordValue (buffer.load 0 4) = size := words 0 (by decide)
    rw [objectEnd, whole]
    unfold sizeofAtom
    omega
  have asked : Reads.queriesBehind buffer 16 [(jalv.urids.patchProperty, none), (jalv.urids.patchValue, none)] =
      [(jalv.urids.patchProperty, some 24), (jalv.urids.patchValue, none)] := by
    simp [Reads.queriesBehind, first, answerQuery]
  have answered : Reads.queriesBehind buffer 40 [(jalv.urids.patchProperty, some 24), (jalv.urids.patchValue, none)] =
      [(jalv.urids.patchProperty, some 24), (jalv.urids.patchValue, some 48)] := by
    simp [Reads.queriesBehind, second, answerQuery]
  have search : Reads.SearchInside buffer 56 0 (0 + 16)
      [(jalv.urids.patchProperty, none), (jalv.urids.patchValue, none)] [some 24, some 48] := by
    refine .passed (by omega) (by omega) (by rw [asked]; rfl) ?_
    rw [next, asked]
    have last : Reads.SearchInside buffer 56 0 40
        [(jalv.urids.patchProperty, some 24), (jalv.urids.patchValue, none)] _ :=
      .answered (by omega) (by omega) (by rw [answered]; rfl)
    rwa [answered] at last
  have reports := Reads.ReportsInside.set otype search (by omega) type
  rwa [body] at reports

/-- The main thread looks into its own message, which sets the property in the first control that has it. -/
theorem HasSetWords.changeProperties (words : HasSetWords jalv size property atom buffer) (large : 48 ≤ size.toNat)
    {state : JalvImpl} (forge : state.forge = jalv.forge) (urids : state.urids = jalv.urids) :
    changeProperties state buffer = propertyChanged buffer state (property, some 48) := by
  have type : (atomAt buffer 0).type = jalv.forge.object := words 1 (by decide)
  have isObject : lv2AtomForgeIsObjectType state.forge (atomAt buffer 0).type = true := by
    rw [type, forge]
    simp [lv2AtomForgeIsObjectType]
  have reported : patchChangedProperties jalv.forge jalv.urids buffer 0 = some [(property, some 48)] := by
    rw [← Reads.run_patchChangedProperties]
    exact (Reads.within_patchChangedProperties.mpr ⟨by omega, words.reports large⟩).1
  rw [Jalv.changeProperties, if_pos isObject, forge, urids, reported, Option.bind_eq_bind, Option.bind_some,
    List.foldlM_cons]
  cases propertyChanged buffer state (property, some 48) <;> rfl

/-- The message is written to the ring if the control input exists. -/
theorem HasSetWords.jalvSendToPlugin (words : HasSetWords jalv size property atom buffer) (large : 48 ≤ size.toNat)
    (small : 8 + size.toNat < 2 ^ 32) {state : JalvImpl} (forge : state.forge = jalv.forge)
    (urids : state.urids = jalv.urids) {portIndex : UInt32} (inside : portIndex.toNat < state.ports.length)
    (ring : ZixRing) :
    jalvSendToPlugin state ring portIndex (8 + size) state.urids.atomEventTransfer buffer =
      (propertyChanged buffer state (property, some 48)).map fun next =>
        (next, (jalvWriteEvent ring portIndex (atomAt buffer 0)).2) := by
  have whole : (atomAt buffer 0).size = size := words 0 (by decide)
  have matched : ¬((8 + size).toNat < sizeofAtom ∨ sizeofAtom + (atomAt buffer 0).size.toNat ≠ (8 + size).toNat) := by
    rw [UInt32.toNat_add, whole]
    unfold sizeofAtom
    simp only [UInt32.reduceToNat]
    omega
  rw [Jalv.jalvSendToPlugin, if_neg (Nat.not_le.mpr inside), if_neg state.urids.transferNonzero, if_pos rfl,
    words.changeProperties large forge urids]
  simp only [if_neg matched]
  cases propertyChanged buffer state (property, some 48) <;> rfl

theorem jalvSendToPlugin_setBuffer (fits : SetFits jalv atom) {state : JalvImpl} (forge : state.forge = jalv.forge)
    (urids : state.urids = jalv.urids) {portIndex : UInt32} (inside : portIndex.toNat < state.ports.length)
    (ring : ZixRing) :
    jalvSendToPlugin state ring portIndex (8 + (setMessage jalv property atom).size) state.urids.atomEventTransfer
        (setBuffer jalv property atom) =
      (propertyChanged (setBuffer jalv property atom) state (property, some 48)).map fun next =>
        (next, (jalvWriteEvent ring portIndex (setMessage jalv property atom)).2) := by
  have bound : jalv.msgRoom < 2 ^ 32 := UInt32.toNat_lt _
  have length := (@setMessage_body jalv property atom fits).2
  have padding := setPadding_le fits
  have words : HasSetWords jalv (setMessage jalv property atom).size property atom (setBuffer jalv property atom) :=
    fun index inside => setBuffer_word fits inside
  rw [words.jalvSendToPlugin (by omega) (by omega) forge urids inside ring, setBuffer_object fits]

end

/-- The message without the body of its value, for which there is no room. -/
def cutMessage (jalv : JalvImpl) (property : URID) (atom : Atom) : Atom :=
  .ofBytes jalv.forge.object (word 0 ++ word jalv.urids.patchSet ++ setParts jalv property atom)

def cutBuffer (jalv : JalvImpl) (property : URID) (atom : Atom) : Memory Byte :=
  let object := cutMessage jalv property atom
  jalv.uiMsg.store 0 (word object.size ++ word object.type ++ object.body)

section

variable {jalv : JalvImpl} {property : URID} {atom : Atom}

theorem forgeSet_cut (room : 56 ≤ jalv.msgRoom) (long : jalv.msgRoom < 56 + atom.size.toNat) :
    forgeSet jalv property atom = none ∨ forgeSet jalv property atom = some (cutMessage jalv property atom) := by
  have size : ((setStart jalv).append (setParts jalv property atom)).size.toNat = jalv.msgRoom := rfl
  have length : ((setStart jalv).append (setParts jalv property atom)).buffer.length = 56 := by
    simp [setStart, setParts, propertyBytes, length_padded]
  have whole : ((setStart jalv).append (setParts jalv property atom)).object jalv.forge =
      cutMessage jalv property atom := by
    have header : (word 8 ++ word jalv.forge.object).length = sizeofAtom := by simp [sizeofAtom]
    simp only [AtomForge.object, AtomForge.append, setStart, cutMessage]
    simp only [List.append_assoc]
    rw [← List.append_assoc (word 8), List.drop_left' header]
  rw [forgeSet_parts room]
  rcases lv2AtomForgeWrite_full ((setStart jalv).append (setParts jalv property atom)) atom.body
    (by rw [size, length, atom.sized]; exact long) with outside | left
  · exact Or.inl (by rw [outside]; rfl)
  · exact Or.inr (by rw [left, Option.map_some, whole])

theorem cutMessage_size : (cutMessage jalv property atom).size = 48 := by
  have length : (word 0 ++ word jalv.urids.patchSet ++ setParts jalv property atom).length = 48 := by
    simp [setParts, propertyBytes, length_padded]
  rw [cutMessage, Atom.ofBytes_size, length]
  rfl

theorem cutBuffer_eq : cutBuffer jalv property atom =
    jalv.uiMsg.store 0 ((setWords jalv 48 property atom).flatMap word) := by
  have four : UInt32.ofNat (word property).length = 4 := by rw [length_word]; rfl
  have padded : padded (word 4 ++ (word jalv.forge.urid ++ word property)) =
      word 4 ++ (word jalv.forge.urid ++ (word property ++ word 0)) := by
    simp only [padded, List.length_append, length_word, List.append_assoc]
    rfl
  have type : (cutMessage jalv property atom).type = jalv.forge.object := rfl
  have body : (cutMessage jalv property atom).body =
      word 0 ++ word jalv.urids.patchSet ++ setParts jalv property atom := by
    have length : (word 0 ++ word jalv.urids.patchSet ++ setParts jalv property atom).length = 48 := by
      simp [setParts, propertyBytes, length_padded]
    exact Atom.ofBytes_body _ (by rw [length]; decide)
  rw [cutBuffer, cutMessage_size, body, setWords, type]
  simp only [setParts, propertyBytes, four, padded, List.flatMap_cons, List.flatMap_nil, List.append_assoc,
    List.append_nil]

theorem cutBuffer_words : HasSetWords jalv 48 property atom (cutBuffer jalv property atom) := by
  intro index inside
  rw [cutBuffer_eq, ← List.append_nil ((setWords jalv 48 property atom).flatMap word)]
  exact load_words _ _ _ inside

/-- The value of the message is what the buffer had in it behind the header of the value. -/
theorem cutBuffer_value : (atomAt (cutBuffer jalv property atom) 48).size = atom.size ∧
    (atomAt (cutBuffer jalv property atom) 48).body = jalv.uiMsg.load 56 atom.size.toNat := by
  have size : (atomAt (cutBuffer jalv property atom) 48).size = atom.size := cutBuffer_words 12 (by decide)
  refine ⟨size, ?_⟩
  rw [atomAt_body, size, cutBuffer_eq]
  refine Memory.load_store_disjoint _ (Or.inr ?_)
  rw [length_flatMap_word]
  exact Nat.le_refl _

end

end Jalv
