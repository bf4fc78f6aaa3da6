import Jalv.Foundation.Lock
import Jalv.Interner.Mapping

/-! The mapper that the plugin and the user interface share (`mapper.c`).

The calls of `map_uri` and `unmap_uri` come from any number of threads. Before that, the main
thread has mapped URIs without the lock (`jalv_init_urids`), when it was the only thread.
-/

set_option autoImplicit false

namespace Jalv

open Foundation

inductive MapperCall where
  | mapUri (uri : CString)
  | unmapUri (urid : UInt32)
  deriving DecidableEq

def MapperCall.symap : MapperCall → SymapCall
  | .mapUri uri => .map uri
  | .unmapUri urid => .unmap urid

def mapperEffect : CallEffect MapperCall SymapReply Symap :=
  fun map call reply next => call.symap.run map = some (reply, next)

abbrev InitUrids := List (CString × SymapReply)

def InitUrids.calls (urids : InitUrids) : List (MapperCall × SymapReply) :=
  urids.map fun entry => (.mapUri entry.1, entry.2)

def MapperBegins (urids : InitUrids) (map : Symap) : Prop :=
  symapRun (urids.calls.map fun entry => entry.1.symap) symapNew = some (urids.calls.map (·.2), map)

abbrev MapperState (θ : Type) := Locked θ MapperCall SymapReply Symap

def mapperSystem (θ : Type) [DecidableEq θ] (urids : InitUrids) : TransitionSystem (MapperState θ) :=
  Locked.system (MapperBegins urids) mapperEffect

/-- All calls that took effect, those of `jalv_init_urids` before those of the threads. -/
def MapperState.calls {θ : Type} (state : MapperState θ) (urids : InitUrids) : List (MapperCall × SymapReply) :=
  urids.calls ++ state.effects

def MapperState.uris {θ : Type} (state : MapperState θ) (urids : InitUrids) : List CString :=
  distinctSymbols ((state.calls urids).map fun entry => entry.1.symap)

/-- Someone was given the reply for the URI: `jalv_init_urids`, or a thread. -/
def MapperGave {θ : Type} (urids : InitUrids) (history : List (θ × CallEvent MapperCall SymapReply)) (uri : CString)
    (reply : SymapReply) : Prop :=
  (uri, reply) ∈ urids ∨ ∃ thread, (thread, .returned (.mapUri uri) reply) ∈ history

structure MapperServed {θ : Type} [DecidableEq θ] (urids : InitUrids) (state : MapperState θ) : Prop where
  exclusive : state.Exclusive
  between : state.Between
  -- The interner is not left, whatever the call that a thread is about to make of it.
  defined : ∀ thread call view, state.place thread = .computing call view →
    (call.symap.mapped (state.uris urids)).length < 2 ^ 32 - 1 → (call.symap.run view).isSome
  nonzero : ∀ uri reply, MapperGave urids state.history uri reply → ∃ id ≠ 0, reply = .id id
  agree : ∀ uri other id same, MapperGave urids state.history uri (.id id) →
    MapperGave urids state.history other (.id same) → (id = same ↔ uri = other)
  -- An ID that someone was given is the ID of its URI for all threads from then on.
  unmapped : ∀ before after thread uri id reply,
    state.history = before ++ (thread, .done (.unmapUri id) reply) :: after →
      MapperGave urids before uri (.id id) → reply = .symbol (some uri)

section

variable {θ : Type} {state : MapperState θ} {urids : InitUrids}

theorem symapRun_append {before after : List SymapCall} {start middle last : Symap} {first second : List SymapReply}
    (begins : symapRun before start = some (first, middle)) (ends : symapRun after middle = some (second, last)) :
    symapRun (before ++ after) start = some (first ++ second, last) := by
  induction before generalizing start first with
  | nil =>
    cases begins
    exact ends
  | cons call rest ih =>
    obtain ⟨⟨reply, next⟩, ran, others⟩ := Option.bind_eq_some_iff.mp begins
    obtain ⟨⟨replies, ended⟩, later, same⟩ := Option.bind_eq_some_iff.mp others
    cases same
    simp [symapRun, ran, ih later]

theorem length_expectedReplies (symbols : List CString) (calls : List SymapCall) :
    (expectedReplies symbols calls).length = calls.length := by
  induction calls generalizing symbols with
  | nil => rfl
  | cons call rest ih => simp [expectedReplies, ih]

theorem expectedReplies_append (symbols : List CString) (before after : List SymapCall) :
    expectedReplies symbols (before ++ after) =
      expectedReplies symbols before ++ expectedReplies (mappedFrom symbols before) after := by
  induction before generalizing symbols with
  | nil => rfl
  | cons call rest ih =>
    rw [List.cons_append, expectedReplies, ih, expectedReplies]
    rfl

/-- Calls made one after the other are a run of the interner. -/
theorem symapRun_of_sequential {start last : Symap} {calls : List (MapperCall × SymapReply)}
    (sequential : Sequential mapperEffect start calls last) :
    symapRun (calls.map fun entry => entry.1.symap) start = some (calls.map (·.2), last) := by
  induction sequential with
  | nil => rfl
  | call earlier does ih =>
    rw [List.map_append, List.map_append]
    refine symapRun_append ih ?_
    simp only [mapperEffect] at does
    simp [symapRun, does]

def MapperState.Ran (state : MapperState θ) (urids : InitUrids) : Prop :=
  symapRun ((state.calls urids).map fun entry => entry.1.symap) symapNew =
    some ((state.calls urids).map (·.2), state.object)

theorem MapperState.ran_of_sequential {object : Symap} (begins : MapperBegins urids object)
    (sequential : Sequential mapperEffect object state.effects state.object) : state.Ran urids := by
  rw [Ran, calls, List.map_append, List.map_append]
  exact symapRun_append begins (symapRun_of_sequential sequential)

/-- What a call replied is what the interner replies that has mapped what was mapped before. -/
theorem mapper_reply (ran : state.Ran urids) (few : (state.uris urids).length < 2 ^ 32 - 1)
    {before after : List (MapperCall × SymapReply)} {call : MapperCall} {reply : SymapReply}
    (split : state.calls urids = before ++ (call, reply) :: after) :
    reply = call.symap.expected (distinctSymbols (before.map fun entry => entry.1.symap)) := by
  obtain ⟨_, _, spec, _, _⟩ := symapRun_eq sortedBy_symapNew _ few
  rw [show symapNew.symbols = [] from rfl] at spec
  have same := (Prod.mk.inj (Option.some.inj (ran.symm.trans spec))).1
  rw [split, List.map_append, List.map_append, expectedReplies_append] at same
  have here := List.append_inj_right same (by simp [length_expectedReplies])
  rw [List.map_cons, List.map_cons, expectedReplies] at here
  exact (List.cons.inj here).1

/-- What a URI was mapped to is its ID in all that has been mapped since. -/
theorem mapper_id (ran : state.Ran urids) (few : (state.uris urids).length < 2 ^ 32 - 1)
    {before after : List (MapperCall × SymapReply)} (split : state.calls urids = before ++ after) {uri : CString}
    {reply : SymapReply} (member : (MapperCall.mapUri uri, reply) ∈ before) :
    let symbols := distinctSymbols (before.map fun entry => entry.1.symap)
    uri ∈ symbols ∧ reply = .id (idOf symbols uri) := by
  obtain ⟨earlier, later, rfl⟩ := List.mem_iff_append.mp member
  have replied := mapper_reply ran few (by rw [split, List.append_assoc, List.cons_append])
  let symbols := distinctSymbols (earlier.map fun entry => entry.1.symap)
  have inside : uri ∈ SymapCall.mapped symbols (.map uri) := by
    rw [SymapCall.mapped]
    split
    · assumption
    · simp
  obtain ⟨others, rest⟩ := mappedFrom_of_subset (SymapCall.mapped symbols (.map uri))
    (later.map fun entry => entry.1.symap)
  have grown : distinctSymbols ((earlier ++ (MapperCall.mapUri uri, reply) :: later).map fun entry => entry.1.symap) =
      SymapCall.mapped symbols (.map uri) ++ others := by
    rw [rest, List.map_append, List.map_cons, distinctSymbols, mappedFrom_append]
    rfl
  simp only [grown]
  exact ⟨List.mem_append_left _ inside, by rw [idOf_append inside]; exact replied⟩

theorem MapperState.uris_eq (ran : state.Ran urids) (few : (state.uris urids).length < 2 ^ 32 - 1) :
    ∃ sorted, state.object.symbols = state.uris urids ∧ state.object.SortedBy sorted := by
  obtain ⟨next, sorted, spec, symbols, valid⟩ := symapRun_eq sortedBy_symapNew _ few
  rw [ran] at spec
  obtain ⟨_, rfl⟩ := Prod.mk.inj (Option.some.inj spec)
  exact ⟨sorted, symbols, valid⟩

variable [DecidableEq θ]

/-- What was given took effect before, in the calls of the threads or in those before them. -/
theorem MapperGave.effect {before after : List (θ × CallEvent MapperCall SymapReply)} {uri : CString}
    {reply : SymapReply} (gave : MapperGave urids before uri reply) (between : state.Between)
    (split : state.history = before ++ after) :
    (MapperCall.mapUri uri, reply) ∈ urids.calls ++ before.filterMap fun entry => entry.2.effect? := by
  rcases gave with initial | ⟨thread, member⟩
  · exact List.mem_append_left _ (List.mem_map.mpr ⟨_, initial, rfl⟩)
  · obtain ⟨first, rest, rfl⟩ := List.mem_iff_append.mp member
    rw [List.append_assoc, List.cons_append] at split
    rw [List.filterMap_append]
    exact List.mem_append_right _ (List.mem_append_left _ (between.done split))

/-- Whatever threads share the mapper and in whatever order their steps come, each URI
has one ID, which all are given and can turn back into the URI. -/
theorem mapper_served (reachable : (mapperSystem θ urids).Reachable state)
    (few : (state.uris urids).length < 2 ^ 32 - 1) : MapperServed urids state := by
  obtain ⟨exclusive, current, ⟨object, begins, sequential⟩, between⟩ := Locked.linearizable reachable
  have ran := MapperState.ran_of_sequential begins sequential
  obtain ⟨sorted, symbols, valid⟩ := MapperState.uris_eq ran few
  have interns := valid.interns (symbols ▸ few)
  have known {uri : CString} {reply : SymapReply} (gave : MapperGave urids state.history uri reply) :
      uri ∈ state.object.symbols ∧ reply = .id (idOf state.object.symbols uri) := by
    rw [symbols]
    exact mapper_id ran few (List.append_nil _).symm (gave.effect between (List.append_nil _).symm)
  constructor
  · exact exclusive
  · exact between
  · intro thread call view computing room
    rw [current thread call view computing]
    obtain ⟨next, _, runs, _⟩ := call.symap.run_eq valid (symbols ▸ room)
    rw [runs]
    rfl
  · intro uri reply gave
    obtain ⟨inside, same⟩ := known gave
    exact ⟨_, interns.nonzero uri inside, same⟩
  · intro uri other id same gave gaveOther
    obtain ⟨inside, here⟩ := known gave
    obtain ⟨insideOther, there⟩ := known gaveOther
    cases here
    cases there
    exact ⟨interns.injective _ inside _ insideOther, fun equal => by rw [equal]⟩
  · intro before after thread uri id reply split gave
    let earlier := urids.calls ++ before.filterMap fun entry => entry.2.effect?
    have calls : state.calls urids =
        earlier ++ (.unmapUri id, reply) :: after.filterMap fun entry => entry.2.effect? := by
      rw [MapperState.calls, Locked.effects, split, List.filterMap_append, ← List.append_assoc]
      rfl
    obtain ⟨inside, same⟩ := mapper_id ran few calls (gave.effect between split)
    have bound := (mappedFrom_of_subset (distinctSymbols (earlier.map fun entry => entry.1.symap))
      (((MapperCall.unmapUri id, reply) :: after.filterMap fun entry => entry.2.effect?).map
        fun entry => entry.1.symap)).length_le
    rw [distinctSymbols, ← mappedFrom_append, ← List.map_append, ← calls] at bound
    have value := toNat_idOf inside (Nat.lt_of_le_of_lt bound few)
    have replied := mapper_reply ran few calls
    rw [← SymapReply.id.inj same] at value
    rw [replied, MapperCall.symap, SymapCall.expected, if_neg, value, Nat.add_sub_cancel, List.getElem?_idxOf inside]
    intro zero
    rw [zero] at value
    cases value

end

def mapperTestUri : CString := ⟨[117, 114, 105], by decide⟩

def mapperTestKnown : CString := ⟨[97, 116, 111, 109], by decide⟩

def mapperTestUrids : InitUrids := [(mapperTestKnown, .id 1)]

-- A URI that one thread maps behind the first one, and both IDs turned back by another thread.
theorem mapper_served_test : ∃ state : MapperState Bool, state.effects =
    [(.mapUri mapperTestUri, .id 2), (.unmapUri 2, .symbol (some mapperTestUri)),
      (.unmapUri 1, .symbol (some mapperTestKnown))] ∧ MapperServed mapperTestUrids state := by
  have begun : (mapperSystem Bool mapperTestUrids).Reachable (Locked.start ⟨[mapperTestKnown], [1], 1⟩) :=
    ⟨_, ⟨_, by simp [MapperBegins, InitUrids.calls, mapperTestUrids, symapRun, MapperCall.symap, SymapCall.run,
      symapMap, symapSearch, symapNew, SymapAllocations.all], rfl⟩, .refl⟩
  have mapped : mapperEffect ⟨[mapperTestKnown], [1], 1⟩ (.mapUri mapperTestUri) (.id 2)
      ⟨[mapperTestKnown, mapperTestUri], [1, 2], 2⟩ := by
    rfl
  have unmapped : mapperEffect ⟨[mapperTestKnown, mapperTestUri], [1, 2], 2⟩ (.unmapUri 2)
      (.symbol (some mapperTestUri)) ⟨[mapperTestKnown, mapperTestUri], [1, 2], 2⟩ := rfl
  have initial : mapperEffect ⟨[mapperTestKnown, mapperTestUri], [1, 2], 2⟩ (.unmapUri 1)
      (.symbol (some mapperTestKnown)) ⟨[mapperTestKnown, mapperTestUri], [1, 2], 2⟩ := rfl
  have first := Locked.reachable_call true _ begun rfl rfl mapped
  have second := Locked.reachable_call false _ first rfl rfl unmapped
  have third := Locked.reachable_call false _ second rfl rfl initial
  exact ⟨_, rfl, mapper_served third (by decide)⟩

end Jalv
