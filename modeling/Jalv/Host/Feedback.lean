import Jalv.Host.Lookup
import Jalv.Host.Update
import Jalv.Foundation.Transition

/-! Updates with a frontend that sets controls when it is told that one has changed.

The message buffer is read where the source reads it, between the callbacks. The process
thread reads and writes the rings at any time. A read behind a null pointer, a loop over
properties that does not end, and a message that is larger than the buffer have no step.
-/

set_option autoImplicit false

namespace Jalv

open Foundation

/-- Where `jalv_update` is: `i` is that of its next turn, and a change is followed by the rest of the
loop over the properties of an object if there is one. -/
inductive UpdatePlace where
  | outside
  | head (i : Nat)
  | body (i : Nat) (header : JalvMessageHeader)
  | dispatch (i : Nat) (type : UInt32)
  | foreach (i object property : Nat)
  | change (i : Nat) (key : URID) (value : Option Nat) (rest : Option (Nat × Nat))
  -- In `jalv_frontend_control_changed`
  | callback (i : Nat) (pointer : Nat) (rest : Option (Nat × Nat))

namespace UpdatePlace

def handles : UpdatePlace → Bool
  | outside | head _ | body _ _ => false
  | dispatch _ _ | foreach _ _ _ | change _ _ _ _ | callback _ _ _ => true

-- The start of `ui_port_event` for an event, up to the first property that it changes.
def event (jalv : JalvImpl) (i : Nat) : Option UpdatePlace :=
  let buffer := jalv.uiMsg.shift 4
  if lv2AtomForgeIsObjectType jalv.forge (atomAt buffer 0).type then
    let otype := wordValue (buffer.load 12 4)
    if otype = jalv.urids.patchSet then do
      match ← patchSetGet jalv.forge jalv.urids buffer 0 with
      | some (property, value) => return .change i (wordValue (buffer.load (property + 8) 4)) value none
      | none => return .head i
    else if otype = jalv.urids.patchPut then do
      match ← patchPutGet jalv.forge jalv.urids buffer 0 with
      | some object => return .foreach i object (object + 16)
      | none => return .head i
    else return .head i
  else return .head i

-- The condition of `LV2_ATOM_OBJECT_FOREACH`.
def properties (jalv : JalvImpl) (i object property : Nat) : UpdatePlace :=
  let buffer := jalv.uiMsg.shift 4
  if property ≥ objectEnd buffer object then .head i
  else .change i (wordValue (buffer.load property 4)) (some (property + 8)) (some (object, property))

def resume (jalv : JalvImpl) (i : Nat) : Option (Nat × Nat) → UpdatePlace
  | some (object, property) => .foreach i object (nextProperty (jalv.uiMsg.shift 4) property)
  | none => .head i

end UpdatePlace

/-- The state of the main thread, the rings, and what was read for the message in the buffer. -/
structure Updating where
  place : UpdatePlace
  jalv : JalvImpl
  pluginToUi : ZixRing
  uiToPlugin : ZixRing
  -- What was in the ring when the update began
  space : Nat
  message : List Byte

/-- The steps of `jalv_update`, of the frontend in it and between two updates, and of the process thread. -/
inductive UpdatingStep : Updating → Updating → Prop where
  | process {state : Updating} {pluginToUi uiToPlugin : ZixRing}
      (writes : state.pluginToUi.content <+: pluginToUi.content)
      (reads : uiToPlugin.content <:+ state.uiToPlugin.content) :
      UpdatingStep state { state with pluginToUi, uiToPlugin }
  | set {state : Updating} {pointer status : Nat} {atom : Atom} {jalv : JalvImpl} {uiToPlugin : ZixRing}
      (outside : state.place = .outside)
      (called : jalvSetControl state.jalv state.uiToPlugin pointer atom = some (status, jalv, uiToPlugin)) :
      UpdatingStep state { state with jalv, uiToPlugin }
  | begins {state : Updating} (outside : state.place = .outside) :
      UpdatingStep state { state with
        place := .head 0
        jalv := { state.jalv with updating := true }
        space := state.pluginToUi.readSpace }
  | header {state : Updating} {i : Nat} {bytes : List Byte} {pluginToUi : ZixRing} (here : state.place = .head i)
      (more : i < state.space) (read : state.pluginToUi.read sizeofHeader = (bytes, pluginToUi))
      (whole : bytes.length = sizeofHeader) :
      UpdatingStep state { state with place := .body i (.decode bytes), pluginToUi }
  | body {state : Updating} {i : Nat} {header : JalvMessageHeader} {message : List Byte} {pluginToUi : ZixRing}
      (here : state.place = .body i header)
      (read : state.pluginToUi.read header.size.toNat = (message, pluginToUi))
      (whole : message.length = header.size.toNat) (room : message.length ≤ state.jalv.uiMsgSize) :
      UpdatingStep state { state with
        place := .dispatch (i + (sizeofHeader + header.size.toNat)) header.type
        jalv := { state.jalv with uiMsg := state.jalv.uiMsg.store 0 message }
        pluginToUi
        message }
  -- `update_error`, or the end of the loop
  | ends {state : Updating} {pluginToUi : ZixRing}
      (here : (∃ i, state.place = .head i ∧ (state.space ≤ i ∧ pluginToUi = state.pluginToUi ∨
          ∃ bytes, state.pluginToUi.read sizeofHeader = (bytes, pluginToUi) ∧ bytes.length ≠ sizeofHeader)) ∨
        (∃ i header bytes, state.place = .body i header ∧
          state.pluginToUi.read header.size.toNat = (bytes, pluginToUi) ∧ bytes.length ≠ header.size.toNat) ∨
        ∃ i type, state.place = .dispatch i type ∧ pluginToUi = state.pluginToUi ∧
          type ∉ [JalvMessageType.controlPortChange, .eventTransfer, .latencyChange].map JalvMessageType.code) :
      UpdatingStep state { state with place := .outside, jalv := { state.jalv with updating := false }, pluginToUi }
  | control {state : Updating} {i pointer status : Nat} {type : UInt32} {jalv : JalvImpl}
      (here : state.place = .dispatch i type) (change : type = JalvMessageType.controlPortChange.code)
      (found : getPortControl state.jalv.controls (wordValue (state.jalv.uiMsg.load 0 4)) = some pointer)
      (stored : setControlValue state.jalv pointer
        ⟨4, state.jalv.forge.float, (state.jalv.uiMsg.shift 4).load 0 4, Memory.length_load _ _ _⟩ =
        some (status, jalv)) :
      UpdatingStep state { state with place := .callback i pointer none, jalv }
  | noControl {state : Updating} {i : Nat} {type : UInt32} (here : state.place = .dispatch i type)
      (change : type = JalvMessageType.controlPortChange.code)
      (found : getPortControl state.jalv.controls (wordValue (state.jalv.uiMsg.load 0 4)) = none) :
      UpdatingStep state { state with place := .head i }
  | event {state : Updating} {i : Nat} {type : UInt32} {place : UpdatePlace} (here : state.place = .dispatch i type)
      (transfer : type = JalvMessageType.eventTransfer.code) (begins : UpdatePlace.event state.jalv i = some place) :
      UpdatingStep state { state with place }
  | latency {state : Updating} {i : Nat} {type : UInt32} (here : state.place = .dispatch i type)
      (change : type = JalvMessageType.latencyChange.code) : UpdatingStep state { state with place := .head i }
  | foreach {state : Updating} {i object property : Nat} (here : state.place = .foreach i object property) :
      UpdatingStep state { state with place := UpdatePlace.properties state.jalv i object property }
  -- `ui_property_changed`
  | change {state : Updating} {i pointer value status : Nat} {key : URID} {rest : Option (Nat × Nat)} {jalv : JalvImpl}
      (here : state.place = .change i key (some value) rest)
      (found : getPropertyControl state.jalv.controls key = some pointer)
      (stored : setControlValue state.jalv pointer (atomAt (state.jalv.uiMsg.shift 4) value) = some (status, jalv)) :
      UpdatingStep state { state with place := .callback i pointer rest, jalv }
  | noChange {state : Updating} {i : Nat} {key : URID} {value : Option Nat} {rest : Option (Nat × Nat)}
      (here : state.place = .change i key value rest) (found : getPropertyControl state.jalv.controls key = none) :
      UpdatingStep state { state with place := UpdatePlace.resume state.jalv i rest }
  -- The frontend sets any control, any number of times
  | reacts {state : Updating} {i changed pointer status : Nat} {rest : Option (Nat × Nat)} {atom : Atom}
      {jalv : JalvImpl} {uiToPlugin : ZixRing} (here : state.place = .callback i changed rest)
      (called : jalvSetControl state.jalv state.uiToPlugin pointer atom = some (status, jalv, uiToPlugin)) :
      UpdatingStep state { state with jalv, uiToPlugin }
  | returns {state : Updating} {i changed : Nat} {rest : Option (Nat × Nat)}
      (here : state.place = .callback i changed rest) :
      UpdatingStep state { state with place := UpdatePlace.resume state.jalv i rest }

def updatingSystem : TransitionSystem Updating where
  initial state := state.place = .outside
  step := UpdatingStep

/-- In an update no set of a control sends a message or writes to the message buffer, and the
message that is handled is in the buffer as it was read. -/
structure Updating.NoFeedback (state : Updating) : Prop where
  cut : state.place ≠ .outside → ∀ pointer atom status jalv uiToPlugin,
    jalvSetControl state.jalv state.uiToPlugin pointer atom = some (status, jalv, uiToPlugin) →
      uiToPlugin = state.uiToPlugin ∧ jalv.uiMsg = state.jalv.uiMsg
  intact : state.place.handles → state.jalv.uiMsg.load 0 state.message.length = state.message

structure Updating.Guarded (state : Updating) : Prop where
  flag : state.place ≠ .outside → state.jalv.updating
  intact : state.place.handles → state.jalv.uiMsg.load 0 state.message.length = state.message

section

variable {state next : Updating}

theorem jalvSetControl_silent {jalv after : JalvImpl} {uiToPlugin ring : ZixRing} {pointer status : Nat} {atom : Atom}
    (updating : jalv.updating) (set : jalvSetControl jalv uiToPlugin pointer atom = some (status, after, ring)) :
    setControlValue jalv pointer atom = some (status, after) ∧ ring = uiToPlugin := by
  obtain ⟨⟨result, stored⟩, first, rest⟩ := Option.bind_eq_some_iff.mp set
  obtain ⟨proposal, controls, rfl⟩ := setControlValue_frame first
  dsimp only at rest
  rw [if_pos (Or.inr updating)] at rest
  cases rest
  exact ⟨first, rfl⟩

theorem Updating.Guarded.noFeedback (guarded : state.Guarded) : state.NoFeedback where
  cut inside pointer atom status jalv uiToPlugin called := by
    obtain ⟨stored, same⟩ := jalvSetControl_silent (guarded.flag inside) called
    obtain ⟨proposal, controls, rfl⟩ := setControlValue_frame stored
    exact ⟨same, rfl⟩
  intact := guarded.intact

theorem Updating.Guarded.frame (guarded : state.Guarded) (handles : state.place.handles) {place : UpdatePlace}
    {jalv : JalvImpl} (flag : jalv.updating = state.jalv.updating) (uiMsg : jalv.uiMsg = state.jalv.uiMsg) :
    Updating.Guarded { state with place, jalv } where
  flag _ := by
    rw [flag]
    refine guarded.flag fun outside => ?_
    rw [outside] at handles
    cases handles
  intact _ := by
    rw [uiMsg]
    exact guarded.intact handles

theorem UpdatingStep.guarded (step : UpdatingStep state next) (guarded : state.Guarded) : next.Guarded := by
  cases step with
  | process => exact ⟨guarded.flag, guarded.intact⟩
  | set outside called =>
    have none : state.place.handles = false := by rw [outside]; rfl
    exact ⟨fun inside => absurd outside inside, fun handles => by simp [none] at handles⟩
  | begins outside => exact ⟨fun _ => rfl, nofun⟩
  | header here => exact ⟨fun _ => guarded.flag (by rw [here]; nofun), nofun⟩
  | @body _ _ message _ here =>
    exact ⟨fun _ => guarded.flag (by rw [here]; nofun), fun _ => Memory.load_store state.jalv.uiMsg 0 message⟩
  | ends here => exact ⟨fun inside => absurd rfl inside, nofun⟩
  | control here _ _ stored | change here _ stored =>
    obtain ⟨proposal, controls, rfl⟩ := setControlValue_frame stored
    exact guarded.frame (by rw [here]; rfl) rfl rfl
  | noControl here | event here | latency here | «foreach» here | noChange here | returns here =>
    exact guarded.frame (by rw [here]; rfl) rfl rfl
  | reacts here called =>
    obtain ⟨stored, rfl⟩ := jalvSetControl_silent (guarded.flag (by rw [here]; nofun)) called
    obtain ⟨proposal, controls, rfl⟩ := setControlValue_frame stored
    exact guarded.frame (by rw [here]; rfl) rfl rfl

/-- With a frontend that does nothing, a change of a property has the effect that it has in one call. -/
theorem UpdatingStep.changes {i : Nat} {change : URID × Option Nat} {rest : Option (Nat × Nat)} {jalv : JalvImpl}
    (here : state.place = .change i change.1 change.2 rest)
    (changed : propertyChanged (state.jalv.uiMsg.shift 4) state.jalv change = some jalv) :
    Relation.ReflTransGen UpdatingStep state { state with place := UpdatePlace.resume state.jalv i rest, jalv } ∧
      jalv.uiMsg = state.jalv.uiMsg := by
  obtain ⟨key, value⟩ := change
  unfold propertyChanged at changed
  cases found : getPropertyControl state.jalv.controls key with
  | none =>
    rw [found] at changed
    cases changed
    exact ⟨.single (.noChange here found), rfl⟩
  | some pointer =>
    rw [found] at changed
    obtain ⟨address, rfl, sets⟩ := Option.bind_eq_some_iff.mp changed
    obtain ⟨⟨status, after⟩, stored, same⟩ := Option.map_eq_some_iff.mp sets
    cases same
    obtain ⟨proposal, controls, rfl⟩ := setControlValue_frame stored
    exact ⟨.head (.change here found stored) (.single (.returns rfl)), rfl⟩

theorem UpdatingStep.changesAll {i object fuel : Nat} {property : Nat} {properties : List (URID × Nat)}
    {jalv : JalvImpl} (here : state.place = .foreach i object property)
    (held : objectPropertiesFrom (state.jalv.uiMsg.shift 4) (objectEnd (state.jalv.uiMsg.shift 4) object) fuel
      property = some properties)
    (changed : (properties.map fun property => (property.1, some property.2)).foldlM
      (propertyChanged (state.jalv.uiMsg.shift 4)) state.jalv = some jalv) :
    Relation.ReflTransGen UpdatingStep state { state with place := .head i, jalv } := by
  induction fuel generalizing state property properties with
  | zero => cases held
  | succ fuel ih =>
    unfold objectPropertiesFrom at held
    have next : UpdatingStep state { state with place := UpdatePlace.properties state.jalv i object property } :=
      .foreach here
    unfold UpdatePlace.properties at next
    dsimp only at next
    split at held
    · next ended =>
      cases held
      cases changed
      rw [if_pos ended] at next
      exact .single next
    · next more =>
      obtain ⟨others, behind, rfl⟩ := Option.map_eq_some_iff.mp held
      rw [List.map_cons, List.foldlM_cons] at changed
      obtain ⟨middle, first, last⟩ := Option.bind_eq_some_iff.mp changed
      rw [if_neg more] at next
      obtain ⟨run, same⟩ := @changes { state with place := _ } i _ (some (object, property)) middle rfl first
      refine .head next (run.trans ?_)
      rw [← same] at behind last
      refine @ih { state with
        place := UpdatePlace.resume state.jalv i (some (object, property))
        jalv := middle } _ others ?_ behind last
      rw [UpdatePlace.resume, same]

theorem UpdatingStep.handlesEvent {i : Nat} {type : UInt32} {jalv : JalvImpl} (here : state.place = .dispatch i type)
    (transfer : type = JalvMessageType.eventTransfer.code)
    (changed : changeProperties state.jalv (state.jalv.uiMsg.shift 4) = some jalv) :
    Relation.ReflTransGen UpdatingStep state { state with place := .head i, jalv } := by
  have begins (place : UpdatePlace) (found : UpdatePlace.event state.jalv i = some place) :
      UpdatingStep state { state with place } := .event here transfer found
  unfold changeProperties at changed
  unfold UpdatePlace.event at begins
  dsimp only at begins
  split at changed
  · next object =>
    rw [if_pos object] at begins
    obtain ⟨changes, reported, folded⟩ := Option.bind_eq_some_iff.mp changed
    unfold patchChangedProperties at reported
    dsimp only at reported
    split at reported
    · next set =>
      obtain ⟨result, got, same⟩ := Option.bind_eq_some_iff.mp reported
      rw [if_pos set, got] at begins
      cases result with
      | none =>
        cases same
        cases folded
        exact .single (begins _ rfl)
      | some found =>
        cases same
        obtain ⟨middle, first, last⟩ := Option.bind_eq_some_iff.mp folded
        cases last
        exact .head (begins _ rfl) (@changes { state with place := _ } i _ none jalv rfl first).1
    · next other =>
      rw [if_neg other] at begins
      split at reported
      · next put =>
        obtain ⟨result, got, same⟩ := Option.bind_eq_some_iff.mp reported
        rw [if_pos put, got] at begins
        cases result with
        | none =>
          cases same
          cases folded
          exact .single (begins _ rfl)
        | some object =>
          obtain ⟨properties, held, listed⟩ := Option.bind_eq_some_iff.mp same
          cases listed
          exact .head (begins _ rfl) (@changesAll { state with place := _ } i object _ _ _ jalv rfl held folded)
      · next neither =>
        rw [if_neg neither] at begins
        cases reported
        cases folded
        exact .single (begins _ rfl)
  · next other =>
    rw [if_neg other] at begins
    cases changed
    exact .single (begins _ rfl)

theorem UpdatingStep.handles {i : Nat} {type : UInt32} {jalv : JalvImpl} (here : state.place = .dispatch i type)
    (handled : updateMessage state.jalv type = some (some jalv)) :
    Relation.ReflTransGen UpdatingStep state { state with place := .head i, jalv } := by
  unfold updateMessage at handled
  dsimp only at handled
  split at handled
  · next change =>
    obtain ⟨after, changed, same⟩ := Option.map_eq_some_iff.mp handled
    cases same
    rw [uiPortEvent, if_pos rfl] at changed
    cases found : getPortControl state.jalv.controls (wordValue (state.jalv.uiMsg.load 0 4)) with
    | none =>
      rw [found] at changed
      cases changed
      exact .single (.noControl here change found)
    | some pointer =>
      rw [found] at changed
      obtain ⟨⟨status, after⟩, stored, same⟩ := Option.map_eq_some_iff.mp changed
      cases same
      have back : UpdatingStep { state with place := .callback i pointer none, jalv := after } _ := .returns rfl
      exact .head (.control here change found stored) (.single back)
  · split at handled
    · next transfer =>
      obtain ⟨after, changed, same⟩ := Option.map_eq_some_iff.mp handled
      cases same
      rw [uiPortEvent, if_neg state.jalv.urids.transferNonzero, if_pos rfl] at changed
      exact handlesEvent here transfer changed
    · split at handled
      · next change =>
        cases handled
        exact .single (.latency here change)
      · cases handled

theorem updateMessage_fails {jalv : JalvImpl} {type : UInt32} (failed : updateMessage jalv type = some none) :
    type ∉ [JalvMessageType.controlPortChange, .eventTransfer, .latencyChange].map JalvMessageType.code := by
  unfold updateMessage at failed
  dsimp only at failed
  split at failed
  · obtain ⟨after, _, same⟩ := Option.map_eq_some_iff.mp failed
    cases same
  · next noChange =>
    split at failed
    · obtain ⟨after, _, same⟩ := Option.map_eq_some_iff.mp failed
      cases same
    · next noEvent =>
      split at failed
      · cases failed
      · next noLatency => simp [noChange, noEvent, noLatency]

/-- The loop over the messages, if the frontend does nothing. -/
theorem UpdatingStep.loops {space fuel i : Nat} {status : UpdateStatus} {jalv : JalvImpl} {rest : ZixRing}
    (here : state.place = .head i) (extent : state.space = space)
    (updated : jalvUpdateFrom space fuel i state.jalv state.pluginToUi = some (status, jalv, rest)) :
    ∃ message, Relation.ReflTransGen UpdatingStep state { state with
      place := .outside
      jalv := { jalv with updating := false }
      pluginToUi := rest
      message } := by
  induction fuel generalizing state i with
  | zero => cases updated
  | succ fuel ih =>
    unfold jalvUpdateFrom at updated
    split at updated
    · next more =>
      cases first : state.pluginToUi.read sizeofHeader with
      | mk bytes ring =>
      simp only [first] at updated
      split at updated
      · next whole =>
        have headed : UpdatingStep state { state with place := .body i (.decode bytes), pluginToUi := ring } :=
          .header here (extent ▸ more) first whole
        cases second : ring.read (JalvMessageHeader.decode bytes).size.toNat with
        | mk body behind =>
        simp only [second] at updated
        split at updated
        · next complete =>
          split at updated
          · next room =>
            have read := @UpdatingStep.body { state with place := .body i (.decode bytes), pluginToUi := ring } i _ body
              behind rfl second complete room
            have run := Relation.ReflTransGen.head headed (.single read)
            split at updated
            · cases updated
            · next unknown =>
              cases updated
              exact ⟨body, run.tail (.ends (.inr (.inr ⟨_, _, rfl, rfl, updateMessage_fails unknown⟩)))⟩
            · next handled =>
              obtain ⟨message, left⟩ := @ih { state with place := _, jalv := _, pluginToUi := _, message := body } _ rfl
                extent updated
              exact ⟨message, (run.trans (UpdatingStep.handles rfl handled)).trans left⟩
          · cases updated
        · next short =>
          cases updated
          have fails := @UpdatingStep.ends { state with place := .body i (.decode bytes), pluginToUi := ring } rest
            (.inr (.inl ⟨i, _, body, rfl, second, short⟩))
          exact ⟨state.message, .head headed (.single fails)⟩
      · next short =>
        cases updated
        exact ⟨state.message, .single (.ends (.inl ⟨i, here, .inr ⟨bytes, first, short⟩⟩))⟩
    · next behind =>
      cases updated
      exact ⟨state.message, .single (.ends (.inl ⟨i, here, .inl ⟨by omega, rfl⟩⟩))⟩

/-- With a frontend that does nothing, an update is one of the runs. -/
theorem jalvUpdate_reached {status : UpdateStatus} {jalv : JalvImpl} {rest : ZixRing} (outside : state.place = .outside)
    (updated : jalvUpdate state.jalv state.pluginToUi = some (status, jalv, rest)) :
    ∃ message, Relation.ReflTransGen UpdatingStep state
      { state with jalv, pluginToUi := rest, space := state.pluginToUi.readSpace, message } := by
  obtain ⟨⟨result, after, left⟩, looped, same⟩ := Option.map_eq_some_iff.mp updated
  cases same
  obtain ⟨message, run⟩ := @UpdatingStep.loops { state with
    place := .head 0
    jalv := { state.jalv with updating := true }
    space := state.pluginToUi.readSpace } _ _ _ _ _ _ rfl rfl looped
  rw [← outside] at run
  exact ⟨message, .head (.begins outside) run⟩

end

/-- Whatever messages there are and whatever controls the frontend sets when it is told of a change. -/
theorem updating_noFeedback (state : Updating) (reachable : updatingSystem.Reachable state) : state.NoFeedback := by
  refine Updating.Guarded.noFeedback ?_
  refine TransitionSystem.invariant (fun start outside => ?_) (fun _ _ guarded step => ?_) reachable
  · have place : start.place = .outside := outside
    exact ⟨fun inside => absurd place inside, fun handles => by rw [place] at handles; cases handles⟩
  · exact UpdatingStep.guarded step guarded

def feedbackTestState : Updating where
  place := .outside
  jalv := { lookupTestHost with
    controls := [⟨.port 0, .blank [], [], 0, .initial, true, false⟩]
    uiMsgSize := 8 }
  pluginToUi := ⟨4095, JalvMessageHeader.encode ⟨JalvMessageType.controlPortChange.code, 8⟩ ++ (word 0 ++ word 0),
    by decide⟩
  uiToPlugin := .empty 4095
  space := 0
  message := []

/-- The frontend is told of the change. -/
theorem updating_noFeedback_test :
    ∃ state : Updating, state.place = .callback 16 0 none ∧ state.message = word 0 ++ word 0 ∧ state.NoFeedback := by
  have outside : updatingSystem.initial feedbackTestState := by rfl
  have start : updatingSystem.Reachable feedbackTestState := ⟨_, outside, .refl⟩
  have headed := (start.step (.begins rfl)).step (.header rfl (by decide) rfl rfl)
  have read := headed.step (.body rfl rfl rfl (by decide))
  exact ⟨_, rfl, rfl, updating_noFeedback _ (read.step (.control rfl rfl rfl rfl))⟩

end Jalv
