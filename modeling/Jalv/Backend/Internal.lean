import Jalv.Console.Arguments
import Jalv.Console.PrintControl
import Jalv.Foundation.Fields
import Jalv.Host.Teardown
import Jalv.Interner.Symap

/-! Loading the program into the JACK server (`jack_initialize` of `jack_internal.c`).

The command line is split in place: each separator becomes a terminator, and a
pointer into the command is its offset. `none` is a read behind the array of
arguments, or a write through a null pointer.
-/

set_option autoImplicit false

namespace Jalv

open Foundation

structure JackMemory where
  jalv : Bool
  backend : Bool
  cmd : Bool
  argv : Nat → Bool

structure Splitting where
  cmd : List Byte
  argc : Nat
  argv : List Nat
  tok : Nat
  err : Nat

def e2big : Nat := 7
def enomem : Nat := 12

def splitTurn (memory : JackMemory) (state : Splitting) (i : Nat) : Option Splitting := do
  let char ← state.cmd[i]?
  if isSpace char ∨ char = 0 then
    if memory.argv (state.argc + 1) then
      return { state with
        cmd := state.cmd.set i 0, argc := state.argc + 1, argv := state.argv ++ [state.tok], tok := i + 1 }
    else return { state with argc := state.argc + 1, err := enomem }
  else return state

def splitFrom (memory : JackMemory) : Nat → Nat → Splitting → Option Splitting
  | 0, _, state => some state
  | turns + 1, i, state => do
    let state ← splitTurn memory state i
    if state.err ≠ 0 then return state else splitFrom memory turns (i + 1) state

def programName : Text := [106, 97, 108, 118]

/-- What `jack_initialize` does until it opens a plugin: it returns before it has any arguments, it gives up
for want of memory, or it passes an argument on. -/
inductive JackStart where
  | returns (err : Nat)
  | givesUp (argv : List Text)
  | opens (argv : List Text) (loadArg : Text) (life : Life)

def openArguments (env : Environment) (args : JalvArgs) (err : Nat) : Option JackStart := do
  let (_, skipped, life) ← Life.frontendInit env args (Life.zero.acquire .backend)
  if err ≠ 0 then return .givesUp args.argv
  else
    let loadArg ← args.argv[skipped]?
    return .opens args.argv loadArg { life with loadArg := some loadArg }

/-- `limit` is `JACK_LOAD_INIT_LIMIT`. -/
def jackInitialize (memory : JackMemory) (env : Environment) (limit : Nat) (loadInit : CString) : Option JackStart :=
  if loadInit.bytes.length > limit then some (.returns e2big)
  else if !memory.jalv then some (.returns enomem)
  else if !memory.backend then some (.returns enomem)
  else if !memory.cmd then none
  else do
    -- Build full command line with "program" name for building argv
    let cmd := programName ++ [32] ++ loadInit.bytes
    -- Build argv
    let state ← splitFrom memory (cmd.length + 1) 0 ⟨cmd ++ [0], 0, [], 0, 0⟩
    let argv ← state.argv.mapM fun tok => stringAt (state.cmd.drop tok)
    openArguments env ⟨state.argc, argv⟩ state.err

namespace JackMemory

def room (memory : JackMemory) : Nat → Nat → Nat
  | _, 0 => 0
  | argc, more + 1 => if memory.argv (argc + 1) then memory.room (argc + 1) more + 1 else 0

theorem room_le (memory : JackMemory) (argc more : Nat) : memory.room argc more ≤ more := by
  induction more generalizing argc with
  | zero => exact Nat.le_refl 0
  | succ more ih =>
    rw [room]
    split
    · exact Nat.succ_le_succ (ih (argc + 1))
    · exact Nat.zero_le _

end JackMemory

section

variable {memory : JackMemory} {env : Environment} {limit : Nat} {loadInit : CString}

structure Split (front current behind : List Byte) (fields : List Text) (state : Splitting) : Prop where
  cmd : state.cmd = front ++ current ++ behind
  tok : state.tok = front.length
  argc : state.argc = fields.length
  err : state.err = 0
  argv : state.argv.map (fun tok => stringAt (front.drop tok)) = fields.map some
  solid : ∀ char ∈ current, isSpace char = false
  noZero : 0 ∉ current

variable {front current behind : List Byte} {fields : List Text} {state : Splitting} {char : Byte}

theorem stringAt_drop {bytes : List Byte} {text : Text} {tok : Nat} (string : stringAt (bytes.drop tok) = some text)
    (more : List Byte) : stringAt ((bytes ++ more).drop tok) = some text := by
  have within : tok ≤ bytes.length := by
    by_contra beyond
    rw [List.drop_eq_nil_of_le (by omega)] at string
    cases string
  rw [List.drop_append_of_le_length within]
  exact stringAt_append string more

-- The arguments that the array points to stay the same in a longer text.
theorem argv_append {bytes : List Byte} {argv : List Nat}
    (strings : argv.map (fun tok => stringAt (bytes.drop tok)) = fields.map some) (more : List Byte) :
    argv.map (fun tok => stringAt ((bytes ++ more).drop tok)) = fields.map some := by
  induction argv generalizing fields with
  | nil => exact strings
  | cons tok rest ih =>
    cases fields with
    | nil => cases strings
    | cons field fields =>
      obtain ⟨first, others⟩ := List.cons.inj strings
      rw [List.map_cons, List.map_cons, ih others, stringAt_drop first more]

theorem Split.strings (split : Split front current behind fields state) :
    state.argv.map (fun tok => stringAt (state.cmd.drop tok)) = fields.map some := by
  rw [split.cmd, List.append_assoc]
  exact argv_append split.argv (current ++ behind)

theorem Split.read (split : Split front current (char :: behind) fields state) :
    state.cmd[front.length + current.length]? = some char := by
  rw [split.cmd, ← List.length_append, List.getElem?_append_right (Nat.le_refl _), Nat.sub_self]
  rfl

theorem Split.solid_turn (split : Split front current (char :: behind) fields state) (word : isSpace char = false)
    (nonzero : char ≠ 0) :
    splitTurn memory state (front.length + current.length) = some state ∧
      Split front (current ++ [char]) behind fields state := by
  constructor
  · rw [splitTurn, split.read]
    simp [word, nonzero]
  · refine ⟨?_, split.tok, split.argc, split.err, split.argv, forall_mem_concat split.solid word, ?_⟩
    · rw [split.cmd]
      simp
    · simpa [split.noZero] using nonzero.symm

theorem Split.separator_turn (split : Split front current (char :: behind) fields state)
    (separates : isSpace char = true ∨ char = 0) (room : memory.argv (fields.length + 1) = true) :
    ∃ next, splitTurn memory state (front.length + current.length) = some next ∧
      Split (front ++ current ++ [0]) [] behind (fields ++ [current]) next := by
  have cmd : state.cmd.set (front.length + current.length) 0 = front ++ current ++ [0] ++ behind := by
    rw [split.cmd, ← List.length_append, List.set_append_right _ _ (Nat.le_refl _), Nat.sub_self]
    simp
  have stored : stringAt ((front ++ current ++ [0]).drop front.length) = some current := by
    rw [List.append_assoc, List.drop_left]
    simpa using stringAt_terminated split.noZero []
  have before := argv_append split.argv (current ++ [0])
  refine ⟨{ state with
    cmd := state.cmd.set (front.length + current.length) 0, argc := state.argc + 1
    argv := state.argv ++ [state.tok], tok := front.length + current.length + 1 }, ?_, ?_⟩
  · rw [splitTurn, split.read]
    simp [separates, split.argc, room]
  · refine ⟨?_, ?_, ?_, split.err, ?_, by simp, by simp⟩
    · rw [cmd, List.append_nil]
    · rw [List.length_append, List.length_append, List.length_singleton]
    · rw [split.argc, List.length_append, List.length_singleton]
    · rw [List.map_append, List.map_append, List.map_singleton, List.map_singleton, split.tok, stored,
        List.append_assoc, before]

theorem Split.separator_short (split : Split front current (char :: behind) fields state)
    (separates : isSpace char = true ∨ char = 0) (short : memory.argv (fields.length + 1) = false) :
    splitTurn memory state (front.length + current.length) =
      some { state with argc := fields.length + 1, err := enomem } := by
  rw [splitTurn, split.read]
  simp [separates, split.argc, short]

/-- The loop has stored the fields, and as many parts of what was left as there is room for. -/
structure SplitInto (memory : JackMemory) (fields parts : List Text) (final : Splitting) : Prop where
  argv : final.argv.map (fun tok => stringAt (final.cmd.drop tok)) =
    (fields ++ parts.take (memory.room fields.length parts.length)).map some
  stored : memory.room fields.length parts.length = parts.length →
    final.err = 0 ∧ final.argc = fields.length + parts.length
  short : memory.room fields.length parts.length ≠ parts.length →
    final.err = enomem ∧ final.argc = fields.length + memory.room fields.length parts.length + 1

-- Another field in front of those that have been split off.
theorem SplitInto.cons {field : Text} {parts : List Text} {final : Splitting}
    (into : SplitInto memory (fields ++ [field]) parts final) (room : memory.argv (fields.length + 1) = true) :
    SplitInto memory fields (field :: parts) final := by
  have more : memory.room fields.length (field :: parts).length =
      memory.room (fields ++ [field]).length parts.length + 1 := by
    rw [List.length_cons, JackMemory.room, if_pos room, List.length_append, List.length_singleton]
  refine ⟨?_, fun all => ?_, fun few => ?_⟩
  · rw [into.argv, more, List.take_succ_cons, List.append_assoc, List.singleton_append]
  · rw [more, List.length_cons, Nat.add_right_cancel_iff] at all
    obtain ⟨err, argc⟩ := into.stored all
    refine ⟨err, ?_⟩
    rw [argc, List.length_append, List.length_singleton, List.length_cons]
    omega
  · rw [more, List.length_cons, ne_eq, Nat.add_right_cancel_iff] at few
    obtain ⟨err, argc⟩ := into.short few
    refine ⟨err, ?_⟩
    rw [argc, more, List.length_append, List.length_singleton]
    omega

theorem Split.short {field : Text} (split : Split front current behind fields state)
    (none : memory.argv (fields.length + 1) = false) (parts : List Text) :
    SplitInto memory fields (field :: parts) { state with argc := fields.length + 1, err := enomem } := by
  have empty : memory.room fields.length (field :: parts).length = 0 := by
    rw [List.length_cons, JackMemory.room, if_neg (by simp [none])]
  refine ⟨?_, fun all => ?_, fun _ => ⟨rfl, ?_⟩⟩
  · rw [empty, List.take_zero, List.append_nil]
    exact split.strings
  · rw [empty] at all
    cases all
  · rw [empty]

theorem Split.done (split : Split front current behind fields state) : SplitInto memory fields [] state := by
  refine ⟨?_, fun _ => ⟨split.err, split.argc⟩, fun few => absurd rfl few⟩
  rw [List.take_nil, List.append_nil]
  exact split.strings

theorem splitFrom_goes {next : Splitting} {turns i : Nat} (turned : splitTurn memory state i = some next)
    (err : next.err = 0) : splitFrom memory (turns + 1) i state = splitFrom memory turns (i + 1) next := by
  rw [splitFrom, turned]
  simp [err]

theorem splitFrom_stops {next : Splitting} {turns i : Nat} (turned : splitTurn memory state i = some next)
    (err : next.err = enomem) : splitFrom memory (turns + 1) i state = some next := by
  rw [splitFrom, turned]
  simp [err, enomem]

/-- The loop splits what is left of the command, and succeeds if there is room for all of it. -/
theorem Split.run {rest : Text} (split : Split front current (rest ++ [0]) fields state) (noZero : 0 ∉ rest) :
    ∃ final, splitFrom memory (rest.length + 1) (front.length + current.length) state = some final ∧
      SplitInto memory fields ((current ++ rest).splitOnP isSpace) final := by
  induction rest generalizing front current fields state with
  | nil =>
    rw [List.append_nil, List.splitOnP_eq_singleton split.solid]
    -- The terminator is the last separator
    cases room : memory.argv (fields.length + 1) with
    | true =>
      obtain ⟨next, turned, after⟩ := split.separator_turn (Or.inr rfl) room
      exact ⟨next, splitFrom_goes turned after.err, after.done.cons room⟩
    | false => exact ⟨_, splitFrom_stops (split.separator_short (Or.inr rfl) room) rfl, split.short room []⟩
  | cons char rest ih =>
    rw [List.mem_cons, not_or] at noZero
    obtain ⟨nonzero, noZero⟩ := noZero
    cases blank : isSpace char with
    | true =>
      rw [List.splitOnP_append_cons_of_forall_mem split.solid char blank]
      cases room : memory.argv (fields.length + 1) with
      | true =>
        obtain ⟨next, turned, after⟩ := split.separator_turn (Or.inl blank) room
        obtain ⟨final, run, into⟩ := ih after noZero
        refine ⟨final, ?_, into.cons room⟩
        rw [List.length_cons, splitFrom_goes turned after.err, ← run]
        simp [Nat.add_assoc]
      | false => exact ⟨_, splitFrom_stops (split.separator_short (Or.inl blank) room) rfl, split.short room _⟩
    | false =>
      obtain ⟨turned, after⟩ := @Split.solid_turn memory _ _ _ _ _ _ split blank (Ne.symm nonzero)
      obtain ⟨final, run, into⟩ := ih after noZero
      rw [List.append_assoc, List.singleton_append] at into
      refine ⟨final, ?_, into⟩
      rw [List.length_cons, splitFrom_goes turned after.err, ← run, List.length_append, List.length_singleton,
        Nat.add_assoc]

/-- The arguments are the name of the program and the runs of the text, and the argument that is opened is the
first one that the options leave. -/
structure PassesArguments (env : Environment) (loadInit : CString) (argv : List Text) (loadArg : Text) : Prop where
  runs : argv = programName :: runs isSpace loadInit.bytes
  first : ∃ status skipped after,
    Life.frontendInit env ⟨argv.length, argv⟩ (Life.zero.acquire .backend) = some (status, skipped, after) ∧
      (argv.drop skipped).head? = some loadArg

/-- Nothing is read behind the array of arguments, and what is passed on is right. -/
def StartsRight (env : Environment) (loadInit : CString) (started : Option JackStart) : Prop :=
  ∃ start, started = some start ∧
    ∀ argv loadArg life, start = .opens argv loadArg life → PassesArguments env loadInit argv loadArg

def SplitsArguments (memory : JackMemory) (env : Environment) (limit : Nat) (loadInit : CString) : Prop :=
  StartsRight env loadInit (jackInitialize memory env limit loadInit)

/-- For a text whose blanks are single, and a number of pointers that there is room for: if it is enough, then
something is left behind the options, and otherwise the options do not reach the end of the array. -/
structure RoomFor (env : Environment) (loadInit : CString) (room : Nat) : Prop where
  enough : room = (loadInit.bytes.splitOnP isSpace).length + 1 →
    SingleSpaced isSpace loadInit.bytes ∧ ¬ Life.OnlyOptions env false 0 (loadInit.bytes.splitOnP isSpace)
  short : 0 < room → room ≤ (loadInit.bytes.splitOnP isSpace).length →
    ¬ Life.OnlyOptions env true 0 ((loadInit.bytes.splitOnP isSpace).take (room - 1))

/-- What an internal client has to be loaded with, unless it is rejected before its arguments are split. -/
def Loadable (memory : JackMemory) (env : Environment) (limit : Nat) (loadInit : CString) : Prop :=
  limit < loadInit.bytes.length ∨ memory.jalv = false ∨ memory.backend = false ∨
    memory.cmd = true ∧
      RoomFor env loadInit (memory.room 0 ((loadInit.bytes.splitOnP isSpace).length + 1))

theorem splitOnP_command (loadInit : CString) :
    (programName ++ [32] ++ loadInit.bytes).splitOnP isSpace = programName :: loadInit.bytes.splitOnP isSpace := by
  have solid : ∀ char ∈ programName, isSpace char = false := by
    intro char member
    simp only [programName, List.mem_cons, List.not_mem_nil, or_false] at member
    rcases member with rfl | rfl | rfl | rfl <;> rfl
  rw [List.append_assoc, List.singleton_append]
  exact List.splitOnP_append_cons_of_forall_mem solid 32 rfl loadInit.bytes

theorem split_command (memory : JackMemory) (loadInit : CString) :
    ∃ final, splitFrom memory ((programName ++ [32] ++ loadInit.bytes).length + 1) 0
        ⟨programName ++ [32] ++ loadInit.bytes ++ [0], 0, [], 0, 0⟩ = some final ∧
      SplitInto memory [] (programName :: loadInit.bytes.splitOnP isSpace) final := by
  have begins : Split [] [] (programName ++ [32] ++ loadInit.bytes ++ [0]) []
      ⟨programName ++ [32] ++ loadInit.bytes ++ [0], 0, [], 0, 0⟩ :=
    ⟨rfl, rfl, rfl, rfl, rfl, by simp, by simp⟩
  have noZero : 0 ∉ programName ++ [32] ++ loadInit.bytes := by
    simp [loadInit.terminated, programName]
  obtain ⟨final, run, into⟩ := @Split.run memory [] [] [] _ _ begins noZero
  rw [List.nil_append, splitOnP_command] at into
  exact ⟨final, run, into⟩

theorem jackInitialize_returns
    (rejected : limit < loadInit.bytes.length ∨ memory.jalv = false ∨ memory.backend = false) :
    ∃ err, jackInitialize memory env limit loadInit = some (.returns err) := by
  unfold jackInitialize
  split
  · exact ⟨_, rfl⟩
  · next within =>
    rcases rejected with long | jalv | backend
    · exact absurd long within
    · exact ⟨enomem, by simp [jalv]⟩
    · refine ⟨enomem, ?_⟩
      split
      · rfl
      · simp [backend]

theorem jackInitialize_split (within : ¬ limit < loadInit.bytes.length) (jalv : memory.jalv = true)
    (backend : memory.backend = true) (cmd : memory.cmd = true) :
    ∃ final argv, jackInitialize memory env limit loadInit = openArguments env ⟨final.argc, argv⟩ final.err ∧
      SplitInto memory [] (programName :: loadInit.bytes.splitOnP isSpace) final ∧
      argv = (programName :: loadInit.bytes.splitOnP isSpace).take
        (memory.room 0 ((loadInit.bytes.splitOnP isSpace).length + 1)) := by
  obtain ⟨final, run, into⟩ := split_command memory loadInit
  refine ⟨final, _, ?_, into, rfl⟩
  rw [jackInitialize, if_neg within, jalv, backend, cmd, Bool.not_true, if_neg Bool.false_ne_true,
    if_neg Bool.false_ne_true, if_neg Bool.false_ne_true]
  simp only [run, mapM_of_map into.argv, Option.bind_eq_bind, Option.bind_some]
  rfl

theorem openArguments_stored {args : JalvArgs} {status : Int} {skipped : Nat} {life : Life}
    (run : Life.frontendInit env args (Life.zero.acquire .backend) = some (status, skipped, life)) :
    openArguments env args 0 = (args.argv[skipped]?).map fun loadArg =>
      .opens args.argv loadArg { life with loadArg := some loadArg } := by
  simp only [openArguments, run, Option.bind_eq_bind, Option.bind_some, ne_eq, not_true_eq_false, if_false]
  cases args.argv[skipped]? <;> rfl

theorem openArguments_short (env : Environment) (args : JalvArgs) :
    openArguments env args enomem =
      (Life.frontendInit env args (Life.zero.acquire .backend)).map fun _ => .givesUp args.argv := by
  rw [openArguments]
  cases Life.frontendInit env args (Life.zero.acquire .backend) <;> rfl

/-- With room for all arguments, the one that is opened is there unless all of them are options. -/
theorem openArguments_all (env : Environment) (loadInit : CString) (rest : List Text) :
    StartsRight env loadInit (openArguments env ⟨rest.length + 1, programName :: rest⟩ 0) ↔
      rest = runs isSpace loadInit.bytes ∧ ¬ Life.OnlyOptions env false 0 rest := by
  obtain ⟨status, skipped, after, run, place⟩ :=
    Life.frontendInit_defined env programName rest (Life.zero.acquire .backend)
  rw [← place, openArguments_stored run]
  constructor
  · rintro ⟨start, opened, right⟩
    obtain ⟨loadArg, here, rfl⟩ := Option.map_eq_some_iff.mp opened
    obtain ⟨inside, _⟩ := List.getElem?_eq_some_iff.mp here
    exact ⟨(List.cons.inj (right _ _ _ rfl).runs).2, inside⟩
  · rintro ⟨words, inside⟩
    obtain ⟨loadArg, here⟩ : ∃ loadArg, (programName :: rest)[skipped]? = some loadArg :=
      ⟨_, List.getElem?_eq_getElem inside⟩
    refine ⟨_, by rw [here, Option.map_some], ?_⟩
    rintro argv found life same
    cases same
    exact ⟨by rw [words], status, skipped, after, run, by rw [List.head?_drop, here]⟩

/-- Without room for all of them, nothing is opened, and the options must not reach the end of the array. -/
theorem openArguments_few (env : Environment) (loadInit : CString) (argv : List Text) :
    StartsRight env loadInit (openArguments env ⟨argv.length + 1, argv⟩ enomem) ↔
      (argv ≠ [] → ¬ Life.OnlyOptions env true 0 argv.tail) := by
  have defined : StartsRight env loadInit (openArguments env ⟨argv.length + 1, argv⟩ enomem) ↔
      ∃ result, Life.frontendInit env ⟨argv.length + 1, argv⟩ (Life.zero.acquire .backend) = some result := by
    rw [openArguments_short]
    constructor
    · rintro ⟨start, opened, _⟩
      obtain ⟨result, run, _⟩ := Option.map_eq_some_iff.mp opened
      exact ⟨result, run⟩
    · rintro ⟨result, run⟩
      refine ⟨_, by rw [run, Option.map_some], ?_⟩
      rintro argv loadArg life same
      cases same
  rw [defined]
  cases argv with
  | nil => exact iff_of_true ⟨_, Life.frontendInit_empty env _⟩ fun some => absurd rfl some
  | cons program rest => simpa using Life.frontendInit_beyond env program rest (Life.zero.acquire .backend)

/-- After the split, the arguments are right as far as there is room for them. -/
theorem SplitInto.startsRight {final : Splitting} {argv : List Text}
    (into : SplitInto memory [] (programName :: loadInit.bytes.splitOnP isSpace) final)
    (stored : argv = (programName :: loadInit.bytes.splitOnP isSpace).take
      (memory.room 0 ((loadInit.bytes.splitOnP isSpace).length + 1))) :
    StartsRight env loadInit (openArguments env ⟨final.argc, argv⟩ final.err) ↔
      RoomFor env loadInit (memory.room 0 ((loadInit.bytes.splitOnP isSpace).length + 1)) := by
  have most := memory.room_le 0 ((loadInit.bytes.splitOnP isSpace).length + 1)
  by_cases all : memory.room 0 ((loadInit.bytes.splitOnP isSpace).length + 1) =
      (loadInit.bytes.splitOnP isSpace).length + 1
  · obtain ⟨err, argc⟩ := into.stored all
    rw [all, List.take_of_length_le (Nat.le_of_eq List.length_cons)] at stored
    rw [err, argc, stored, List.length_nil, Nat.zero_add, List.length_cons, openArguments_all, runs_eq_iff, all]
    exact ⟨fun right => ⟨fun _ => right, fun _ few => by omega⟩, fun room => room.enough rfl⟩
  · obtain ⟨err, argc⟩ := into.short all
    rw [List.length_cons, List.length_nil, Nat.zero_add] at argc
    have length : argv.length = memory.room 0 ((loadInit.bytes.splitOnP isSpace).length + 1) := by
      rw [stored, List.length_take, List.length_cons, Nat.min_eq_left most]
    rw [err, argc, ← length, openArguments_few]
    cases room : memory.room 0 ((loadInit.bytes.splitOnP isSpace).length + 1) with
    | zero =>
      rw [room, List.take_zero] at stored
      rw [stored]
      exact iff_of_true (fun some => absurd rfl some)
        ⟨fun same => absurd same.symm (Nat.succ_ne_zero _), fun some => absurd some (Nat.not_lt_zero 0)⟩
    | succ built =>
      rw [room, List.take_succ_cons] at stored
      rw [room] at all most
      rw [stored, List.tail_cons, List.length_cons, List.length_take, Nat.min_eq_left (Nat.le_of_succ_le_succ most)]
      exact ⟨fun options => ⟨fun same => absurd same all, fun _ _ => options (List.cons_ne_nil _ _)⟩,
        fun room _ => room.short (Nat.succ_pos _) (by omega)⟩

/-- An internal client gets its arguments right if and only if they can be loaded. -/
theorem splitsArguments_iff (memory : JackMemory) (env : Environment) (limit : Nat) (loadInit : CString) :
    SplitsArguments memory env limit loadInit ↔ Loadable memory env limit loadInit := by
  by_cases rejected : limit < loadInit.bytes.length ∨ memory.jalv = false ∨ memory.backend = false
  · obtain ⟨err, returned⟩ := @jackInitialize_returns memory env limit loadInit rejected
    refine iff_of_true ⟨_, returned, ?_⟩ ?_
    · rintro argv loadArg life same
      cases same
    · rcases rejected with long | jalv | backend
      · exact Or.inl long
      · exact Or.inr (Or.inl jalv)
      · exact Or.inr (Or.inr (Or.inl backend))
  · rw [Loadable, or_iff_right (fun long => rejected (Or.inl long)),
      or_iff_right (fun jalv => rejected (Or.inr (Or.inl jalv))),
      or_iff_right (fun backend => rejected (Or.inr (Or.inr backend)))]
    simp only [not_or, Bool.not_eq_false] at rejected
    obtain ⟨within, jalv, backend⟩ := rejected
    cases cmd : memory.cmd with
    | false =>
      -- The program writes through the null pointer
      have undefined : jackInitialize memory env limit loadInit = none := by
        simp [jackInitialize, within, jalv, backend, cmd]
      refine iff_of_false ?_ fun both => Bool.false_ne_true both.1
      rintro ⟨start, defined, _⟩
      cases undefined.symm.trans defined
    | true =>
      obtain ⟨final, argv, same, into, stored⟩ :=
        @jackInitialize_split memory env limit loadInit within jalv backend cmd
      rw [SplitsArguments, same, into.startsRight stored, and_iff_right rfl]

end

def doubleBlank : CString := ⟨[97, 32, 32, 98], by decide⟩
def onlyOption : CString := ⟨[45, 112], by decide⟩

def plentyOfMemory : JackMemory := ⟨true, true, true, fun _ => true⟩

/-- Two blanks make an empty argument, and without an argument behind the options there is nothing to open. -/
theorem splitsArguments_refuted :
    (∃ life, jackInitialize plentyOfMemory (unconnected .jack []) 1024 doubleBlank =
      some (.opens [programName, [97], [], [98]] [97] life)) ∧
    jackInitialize plentyOfMemory (unconnected .jack []) 1024 onlyOption = none ∧
    ¬ SplitsArguments plentyOfMemory (unconnected .jack []) 1024 doubleBlank ∧
    ¬ SplitsArguments plentyOfMemory (unconnected .jack []) 1024 onlyOption := by
  have emptyArgument : ∃ life, jackInitialize plentyOfMemory (unconnected .jack []) 1024 doubleBlank =
      some (.opens [programName, [97], [], [98]] [97] life) :=
    ⟨_, rfl⟩
  have beyond : jackInitialize plentyOfMemory (unconnected .jack []) 1024 onlyOption = none := rfl
  refine ⟨emptyArgument, beyond, ?_, ?_⟩
  · rintro ⟨start, opened, right⟩
    obtain ⟨life, same⟩ := emptyArgument
    cases opened.symm.trans same
    exact absurd (right _ _ _ rfl).runs (by decide)
  · rintro ⟨start, opened, _⟩
    cases beyond.symm.trans opened

end Jalv
