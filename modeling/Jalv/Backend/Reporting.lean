import Jalv.Backend.Host
import Jalv.Backend.Transport
import Mathlib.Data.List.Chain

/-! When the JACK backend reports the transport to the plugin.

A plugin knows the transport from the last position event and the frames since. The
backend compares each cycle with its own prediction, in which the tempo has been
narrowed to a float.
-/

set_option autoImplicit false

namespace Jalv

-- The bits of the double 120.0
def defaultTempo : UInt64 := 0x405E000000000000

/-- What floats and doubles stand for. Those that are not a number have no value. -/
structure TempoValues (floats : FloatOperations) (Value : Type) where
  double : UInt64 → Option Value
  float : UInt32 → Option Value
  differs_iff : ∀ tempo bpm, floats.differs tempo bpm = false ↔
    ∃ value, double tempo = some value ∧ float bpm = some value
  -- Narrowing keeps the value of a double if some float has it
  narrow_exact : ∀ tempo bpm value, double tempo = some value → float bpm = some value →
    float (floats.narrow tempo) = some value
  default : ∃ value, double defaultTempo = some value ∧ float defaultBpm = some value

/-- What a plugin knows from position events: the transport at the last of them with
the last tempo that was given, and the frames that have been processed since. -/
structure Report where
  rolling : Bool
  frame : UInt32
  tempo : UInt64
  elapsed : UInt32

namespace Report

def initial : Report := ⟨false, 0, defaultTempo, 0⟩

def position (report : Report) : UInt32 := if report.rolling then report.frame + report.elapsed else report.frame

section

variable {floats : FloatOperations} {Value : Type} (values : TempoValues floats Value)

structure Agrees (report : Report) (transport : JackTransport) : Prop where
  rolling : report.rolling = decide (transport.state = .rolling)
  position : report.position = transport.pos.frame
  tempo : transport.pos.bbt → values.double transport.pos.beatsPerMinute = values.double report.tempo

end

def note (report : Report) (transport : JackTransport) (changed : Bool) : Report :=
  if changed then
    { rolling := transport.state = .rolling
      frame := transport.pos.frame
      tempo := if transport.pos.bbt then transport.pos.beatsPerMinute else report.tempo
      elapsed := 0 }
  else report

def advance (report : Report) (nframes : UInt32) : Report := { report with elapsed := report.elapsed + nframes }

end Report

def processTransports (backend : JalvBackend) : JalvPosition → List JackCycle → Option (List Bool)
  | _, [] => some []
  | transport, cycle :: rest => do
    let (transport, data) ← processTransport backend transport cycle
    return data.changed :: (← processTransports backend transport rest)

section

variable {floats : FloatOperations} {Value : Type} (values : TempoValues floats Value)

/-- In each cycle, the transport is reported exactly if it is not what was to be expected
from the reports before, and is known afterwards. -/
def ReportsExactly : Report → List (JackCycle × Bool) → Prop
  | _, [] => True
  | report, (cycle, changed) :: rest => (changed ↔ ¬report.Agrees values cycle.second) ∧
      (report.note cycle.second changed).Agrees values cycle.second ∧
      ReportsExactly ((report.note cycle.second changed).advance cycle.nframes) rest

def TempoValues.Exact (tempo : UInt64) : Prop :=
  ∃ value bpm, values.double tempo = some value ∧ values.float bpm = some value

/-- In each cycle with a tempo whose transport is where it is expected to be, some float has the value
of the last tempo that was to be reported, or the tempo is neither that one nor what it was narrowed to. -/
def TemposTold : Report → List JackCycle → Prop
  | _, [] => True
  | report, cycle :: rest =>
    (cycle.second.pos.bbt → report.rolling = decide (cycle.second.state = .rolling) →
        report.position = cycle.second.pos.frame →
      values.Exact report.tempo ∨ values.double cycle.second.pos.beatsPerMinute ≠ values.double report.tempo ∧
        floats.differs cycle.second.pos.beatsPerMinute (floats.narrow report.tempo)) ∧
      (report.Agrees values cycle.second → TemposTold (report.advance cycle.nframes) rest) ∧
      (¬report.Agrees values cycle.second → TemposTold ((report.note cycle.second true).advance cycle.nframes) rest)

/-- The prediction of the backend is the extrapolation, with the tempo as a float. -/
structure Tracks (transport : JalvPosition) (report : Report) : Prop where
  rolling : transport.rolling = report.rolling
  position : transport.position = report.position
  bpm : values.float transport.bpm = values.float (floats.narrow report.tempo)

end

structure Steady (tempo : UInt64) (cycles : List JackCycle) : Prop where
  rolling : ∀ cycle ∈ cycles, cycle.second.state = .rolling
  tempo : ∀ cycle ∈ cycles, cycle.second.pos.bbt ∧ cycle.second.pos.beatsPerMinute = tempo
  frames : cycles.IsChain fun cycle next => next.second.pos.frame = cycle.second.pos.frame + cycle.nframes

section

variable {backend : JalvBackend} {Value : Type} {values : TempoValues backend.floats Value}
  {transport : JalvPosition} {report : Report}

theorem transportChanged_eq_false_iff (backend : JalvBackend) (expected : JalvPosition) (transport : JackTransport) :
    transportChanged backend expected transport = false ↔
      decide (transport.state = .rolling) = expected.rolling ∧ transport.pos.frame = expected.position ∧
        (transport.pos.bbt → backend.floats.differs transport.pos.beatsPerMinute expected.bpm = false) := by
  simp only [transportChanged, decide_eq_false_iff_not, not_or, not_and, Bool.not_eq_true, ne_eq, not_not]

theorem tracks_initial (values : TempoValues backend.floats Value) :
    Tracks values (jalvProcessInit backend.urids).transport .initial := by
  obtain ⟨value, double, float⟩ := values.default
  refine ⟨rfl, rfl, ?_⟩
  exact float.trans (values.narrow_exact _ _ _ double float).symm

theorem Tracks.step (tracks : Tracks values transport report) (cycle : JackCycle) :
    Tracks values (expectedTransport backend transport cycle)
      ((report.note cycle.second (transportChanged backend transport cycle.second)).advance cycle.nframes) := by
  cases changed : transportChanged backend transport cycle.second with
  | true =>
    refine ⟨rfl, ?_, ?_⟩
    · simp [expectedTransport, Report.note, Report.advance, Report.position]
    · cases bbt : cycle.second.pos.bbt
      · simpa [expectedTransport, Report.note, Report.advance, bbt] using tracks.bpm
      · simp [expectedTransport, Report.note, Report.advance, bbt]
  | false =>
    obtain ⟨rolling, frame, tempo⟩ := (transportChanged_eq_false_iff backend transport cycle.second).mp changed
    refine ⟨rolling.trans tracks.rolling, ?_, ?_⟩
    · have here : cycle.second.pos.frame = report.position := frame.trans tracks.position
      have rolls : cycle.second.state = .rolling ↔ report.rolling = true := by
        rw [← tracks.rolling, ← rolling, decide_eq_true_iff]
      simp only [expectedTransport, Report.note, Report.advance, Report.position, rolls, here, Bool.false_eq_true,
        if_false]
      split
      · exact UInt32.add_assoc _ _ _
      · rfl
    · cases bbt : cycle.second.pos.bbt with
      | false => simpa [expectedTransport, Report.note, Report.advance, bbt] using tracks.bpm
      | true =>
        obtain ⟨value, double, float⟩ := (values.differs_iff _ _).mp (tempo bbt)
        have narrowed := values.narrow_exact _ _ _ double float
        simp [expectedTransport, Report.note, Report.advance, bbt, narrowed, ← tracks.bpm, float]

/-- The tempo is compared with the float of the last one. -/
theorem Tracks.differs_iff (tracks : Tracks values transport report) (tempo : UInt64) :
    backend.floats.differs tempo transport.bpm = backend.floats.differs tempo (backend.floats.narrow report.tempo) := by
  rw [← Bool.not_inj_iff, Bool.eq_iff_iff, Bool.not_eq_true', Bool.not_eq_true', values.differs_iff, values.differs_iff,
    tracks.bpm]

theorem TempoValues.Exact.narrow {tempo : UInt64} (exact : values.Exact tempo) :
    ∃ value, values.double tempo = some value ∧ values.float (backend.floats.narrow tempo) = some value := by
  obtain ⟨value, bpm, double, float⟩ := exact
  exact ⟨value, double, values.narrow_exact _ _ _ double float⟩

/-- The comparison tells a tempo from the last one if that one is exact, and otherwise
only if the tempo is really another one. -/
theorem differs_narrow_iff (values : TempoValues backend.floats Value) (tempo last : UInt64) :
    (backend.floats.differs tempo (backend.floats.narrow last) = true ↔ values.double tempo ≠ values.double last) ↔
      values.Exact last ∨ values.double tempo ≠ values.double last ∧
        backend.floats.differs tempo (backend.floats.narrow last) := by
  have same := values.differs_iff tempo (backend.floats.narrow last)
  cases differs : backend.floats.differs tempo (backend.floats.narrow last) with
  | true =>
    have told : values.Exact last → values.double tempo ≠ values.double last := by
      intro exact equal
      obtain ⟨value, double, float⟩ := exact.narrow
      have equals := same.mpr ⟨value, equal.trans double, float⟩
      rw [differs] at equals
      cases equals
    simp only [true_iff, and_true]
    exact ⟨Or.inr, fun either => either.elim told id⟩
  | false =>
    obtain ⟨value, double, float⟩ := same.mp differs
    simp only [Bool.false_eq_true, false_iff, not_not, and_false, or_false]
    constructor
    · exact fun equal => ⟨value, _, equal.symm.trans double, float⟩
    · intro exact
      obtain ⟨other, double', float'⟩ := exact.narrow
      rw [double, double', ← float, ← float']

/-- What one cycle reports is right exactly under the condition on its tempo. -/
theorem Tracks.exact_iff (tracks : Tracks values transport report) (snapshot : JackTransport) :
    ((transportChanged backend transport snapshot ↔ ¬report.Agrees values snapshot) ∧
        (report.note snapshot (transportChanged backend transport snapshot)).Agrees values snapshot) ↔
      (snapshot.pos.bbt → report.rolling = decide (snapshot.state = .rolling) →
        report.position = snapshot.pos.frame →
          values.Exact report.tempo ∨ values.double snapshot.pos.beatsPerMinute ≠ values.double report.tempo ∧
            backend.floats.differs snapshot.pos.beatsPerMinute (backend.floats.narrow report.tempo)) := by
  have noted : (transportChanged backend transport snapshot ↔ ¬report.Agrees values snapshot) →
      (report.note snapshot (transportChanged backend transport snapshot)).Agrees values snapshot := by
    intro told
    cases changed : transportChanged backend transport snapshot with
    | true =>
      refine ⟨rfl, by simp [Report.note, Report.position], fun bbt => ?_⟩
      simp [Report.note, bbt]
    | false =>
      rw [changed, Bool.false_eq_true, false_iff, not_not] at told
      exact told
  rw [and_iff_left_of_imp noted]
  by_cases expected : report.rolling = decide (snapshot.state = .rolling) ∧ report.position = snapshot.pos.frame
  · obtain ⟨rolling, position⟩ := expected
    cases bbt : snapshot.pos.bbt with
    | false =>
      have unchanged := (transportChanged_eq_false_iff backend transport snapshot).mpr
        ⟨(tracks.rolling.trans rolling).symm, (tracks.position.trans position).symm, by simp [bbt]⟩
      have agrees : report.Agrees values snapshot := ⟨rolling, position, by simp [bbt]⟩
      simp [unchanged, agrees]
    | true =>
      have changed : transportChanged backend transport snapshot =
          backend.floats.differs snapshot.pos.beatsPerMinute (backend.floats.narrow report.tempo) := by
        rw [← tracks.differs_iff]
        simp [transportChanged, tracks.rolling, tracks.position, rolling, position, bbt]
      have agrees : report.Agrees values snapshot ↔
          values.double snapshot.pos.beatsPerMinute = values.double report.tempo :=
        ⟨fun agrees => agrees.tempo bbt, fun same => ⟨rolling, position, fun _ => same⟩⟩
      rw [changed, agrees]
      simpa [rolling, position] using differs_narrow_iff values snapshot.pos.beatsPerMinute report.tempo
  · have changed : transportChanged backend transport snapshot = true := by
      by_contra unchanged
      obtain ⟨rolling, frame, _⟩ := (transportChanged_eq_false_iff backend transport snapshot).mp
        (Bool.eq_false_iff.mpr unchanged)
      exact expected ⟨(rolling.trans tracks.rolling).symm, (frame.trans tracks.position).symm⟩
    have differs : ¬report.Agrees values snapshot := fun agrees => expected ⟨agrees.rolling, agrees.position⟩
    exact iff_of_true (iff_of_true changed differs) fun _ rolling position => absurd ⟨rolling, position⟩ expected

theorem processTransports_cons {cycle : JackCycle} {rest : List JackCycle} :
    processTransports backend transport (cycle :: rest) =
      (processTransports backend (expectedTransport backend transport cycle) rest).map
        (transportChanged backend transport cycle.second :: ·) := by
  simp only [processTransports, processTransport_eq, Option.bind_eq_bind, Option.bind_some, transportData]
  cases processTransports backend (expectedTransport backend transport cycle) rest <;> rfl

theorem processTransports_isSome (transport : JalvPosition) (cycles : List JackCycle) :
    ∃ flags, processTransports backend transport cycles = some flags ∧ flags.length = cycles.length := by
  induction cycles generalizing transport with
  | nil => exact ⟨[], rfl, rfl⟩
  | cons cycle rest ih =>
    obtain ⟨flags, processed, length⟩ := ih (expectedTransport backend transport cycle)
    exact ⟨_, by rw [processTransports_cons, processed, Option.map_some], congrArg (· + 1) length⟩

theorem Tracks.reports_iff {cycles : List JackCycle} {flags : List Bool}
    (tracks : Tracks values transport report)
    (processed : processTransports backend transport cycles = some flags) :
    ReportsExactly values report (cycles.zip flags) ↔ TemposTold values report cycles := by
  induction cycles generalizing transport report flags with
  | nil => simp [ReportsExactly, TemposTold]
  | cons cycle rest ih =>
    rw [processTransports_cons] at processed
    obtain ⟨others, rest, rfl⟩ := Option.map_eq_some_iff.mp processed
    have here := tracks.exact_iff cycle.second
    rw [List.zip_cons_cons, ReportsExactly, TemposTold, ← and_assoc, here, ih (tracks.step cycle) rest]
    refine and_congr_right fun told => ?_
    -- A cycle that is told right goes on with what was to be reported
    obtain ⟨told, _⟩ := here.mpr told
    cases changed : transportChanged backend transport cycle.second with
    | true =>
      have differs := told.mp changed
      exact ⟨fun rest => ⟨fun agrees => absurd agrees differs, fun _ => rest⟩, fun both => both.2 differs⟩
    | false =>
      have agrees : report.Agrees values cycle.second := by
        rwa [changed, Bool.false_eq_true, false_iff, not_not] at told
      exact ⟨fun rest => ⟨fun _ => rest, fun differs => absurd agrees differs⟩, fun both => both.1 agrees⟩

theorem Report.advance_position (report : Report) (rolling : report.rolling = true) (nframes : UInt32) :
    (report.advance nframes).position = report.position + nframes := by
  have rolls : (report.advance nframes).rolling = true := rolling
  rw [position, position, if_pos rolling, if_pos rolls]
  exact (UInt32.add_assoc _ _ _).symm

theorem Steady.next {tempo : UInt64} {cycle next : JackCycle} {rest : List JackCycle}
    (steady : Steady tempo (cycle :: next :: rest)) (agrees : report.Agrees values cycle.second) :
    (report.advance cycle.nframes).Agrees values next.second := by
  obtain ⟨here, there, _⟩ := steady.rolling |> List.forall_mem_cons.mp |>.imp_right List.forall_mem_cons.mp
  obtain ⟨known, told, _⟩ := steady.tempo |> List.forall_mem_cons.mp |>.imp_right List.forall_mem_cons.mp
  have rolling : report.rolling = true := by rw [agrees.rolling, here, decide_eq_true rfl]
  refine ⟨?_, ?_, fun _ => ?_⟩
  · rw [there, decide_eq_true rfl]
    exact rolling
  · rw [report.advance_position rolling, agrees.position, (List.isChain_cons_cons.mp steady.frames).1]
  · rw [told.2, ← known.2]
    exact agrees.tempo known.1

theorem Steady.tail {tempo : UInt64} {cycle : JackCycle} {rest : List JackCycle}
    (steady : Steady tempo (cycle :: rest)) :
    Steady tempo rest :=
  ⟨fun other member => steady.rolling other (List.mem_cons_of_mem _ member),
    fun other member => steady.tempo other (List.mem_cons_of_mem _ member), steady.frames.tail⟩

theorem Steady.silent {tempo : UInt64} {cycle : JackCycle} {rest : List JackCycle} {flags : List Bool}
    (steady : Steady tempo (cycle :: rest)) (agrees : report.Agrees values cycle.second)
    (exact : ReportsExactly values (report.advance cycle.nframes) (rest.zip flags))
    (length : flags.length = rest.length) :
    ∀ changed ∈ flags, changed = false := by
  induction rest generalizing cycle report flags with
  | nil =>
    rw [List.eq_nil_of_length_eq_zero length]
    simp
  | cons next rest ih =>
    obtain ⟨changed, flags, rfl⟩ := List.exists_cons_of_length_eq_add_one length
    obtain ⟨told, _, others⟩ := exact
    have known := steady.next agrees
    have unchanged : changed = false := by
      rw [← Bool.not_eq_true, told, not_not]
      exact known
    subst unchanged
    exact List.forall_mem_cons.mpr ⟨rfl, ih steady.tail known others (Nat.succ.inj length)⟩

theorem ReportsExactly.drop {run : List (JackCycle × Bool)} (exact : ReportsExactly values report run) (count : Nat) :
    ∃ report, ReportsExactly values report (run.drop count) := by
  induction count generalizing report run with
  | zero => exact ⟨report, exact⟩
  | succ count ih =>
    cases run with
    | nil => exact ⟨report, trivial⟩
    | cons _ rest => exact ih exact.2.2

/-- From where a transport rolls steadily, only the first cycle may report it. -/
theorem ReportsExactly.steady {cycles : List JackCycle} {flags : List Bool}
    (exact : ReportsExactly values report (cycles.zip flags)) (length : flags.length = cycles.length)
    {count : Nat} {tempo : UInt64} (steady : Steady tempo (cycles.drop count)) :
    ∀ changed ∈ flags.drop (count + 1), changed = false := by
  obtain ⟨known, exact⟩ := exact.drop count
  rw [List.zip_eq_zipWith, List.drop_zipWith, ← List.zip_eq_zipWith] at exact
  rw [← List.drop_drop]
  have lengths : (flags.drop count).length = (cycles.drop count).length := by
    rw [List.length_drop, List.length_drop, length]
  generalize cycles.drop count = behind at steady exact lengths
  generalize flags.drop count = flags at exact lengths ⊢
  cases behind with
  | nil => simp [List.eq_nil_of_length_eq_zero lengths]
  | cons cycle rest =>
    obtain ⟨changed, flags, rfl⟩ := List.exists_cons_of_length_eq_add_one lengths
    exact steady.silent exact.2.1 exact.2.2 (Nat.succ.inj lengths)

/-- A run reports the transport exactly if and only if narrowing hides no last tempo, and then
reports a transport that rolls steadily only once. -/
theorem reportsExactly_iff (values : TempoValues backend.floats Value) (cycles : List JackCycle) :
    ∃ flags, processTransports backend (jalvProcessInit backend.urids).transport cycles = some flags ∧
      flags.length = cycles.length ∧
      (ReportsExactly values .initial (cycles.zip flags) ↔ TemposTold values .initial cycles) ∧
      (ReportsExactly values .initial (cycles.zip flags) → ∀ count tempo, Steady tempo (cycles.drop count) →
        ∀ changed ∈ flags.drop (count + 1), changed = false) := by
  obtain ⟨flags, processed, length⟩ := processTransports_isSome (jalvProcessInit backend.urids).transport cycles
  exact ⟨flags, processed, length, (tracks_initial values).reports_iff processed,
    fun exact _ _ => exact.steady length⟩

end

/-! Floats and doubles that are positive and normal, as `TempoValues` of some backend. -/

def widenBits (bpm : UInt32) : UInt64 := bpm.toUInt64 * 0x20000000 + 0x3800000000000000

def narrowBits (tempo : UInt64) : UInt32 := ((tempo - 0x3800000000000000 + 0x10000000) / 0x20000000).toUInt32

theorem narrowBits_widenBits (bpm : UInt32) : narrowBits (widenBits bpm) = bpm := by
  have bound := bpm.toNat_lt
  apply UInt32.toNat_inj.mp
  simp only [narrowBits, widenBits, UInt64.toNat_toUInt32, UInt64.toNat_div, UInt64.toNat_add, UInt64.toNat_sub,
    UInt64.toNat_mul, UInt32.toNat_toUInt64, UInt64.reduceToNat]
  omega

def reportTestBackend : JalvBackend :=
  { jackTestBackend with
    floats := { jackTestBackend.floats with narrow := narrowBits, differs := fun tempo bpm => tempo ≠ widenBits bpm } }

def reportTestValues : TempoValues reportTestBackend.floats UInt64 where
  double := some
  float bpm := some (widenBits bpm)
  differs_iff tempo bpm := by
    have differs : reportTestBackend.floats.differs tempo bpm = decide (tempo ≠ widenBits bpm) := rfl
    rw [differs, decide_eq_false_iff_not, not_not]
    exact ⟨fun same => ⟨tempo, rfl, congrArg some same.symm⟩,
      fun ⟨_, double, float⟩ => Option.some.inj (double.trans float.symm)⟩
  narrow_exact tempo bpm value double float := by
    have same : tempo = widenBits bpm := Option.some.inj (double.trans float.symm)
    have narrow : reportTestBackend.floats.narrow tempo = bpm := by
      rw [same]
      exact narrowBits_widenBits bpm
    rw [narrow]
    exact float
  default := ⟨defaultTempo, rfl, congrArg some (by decide)⟩

-- The bits of the double 120.1
def fractionalTempo : UInt64 := 0x405E066666666666

def rollingCycle (frame : UInt32) (tempo : UInt64) : JackCycle :=
  let transport : JackTransport :=
    ⟨.rolling, { jackTestCycle.first.pos with frame, bbt := true, beatsPerMinute := tempo }⟩
  { jackTestCycle with first := transport, second := transport }

theorem rollingCycles_steady (tempo : UInt64) : Steady tempo [rollingCycle 0 tempo, rollingCycle 64 tempo] where
  rolling := by simp [rollingCycle]
  tempo := by simp [rollingCycle]
  frames := .cons_cons rfl (.singleton _)

theorem rollingCycles_processed (tempo : UInt64) :
    processTransports reportTestBackend (jalvProcessInit reportTestBackend.urids).transport
      [rollingCycle 0 tempo, rollingCycle 64 tempo] = some [true, decide (tempo ≠ widenBits (narrowBits tempo))] := by
  rw [processTransports_cons, processTransports_cons, processTransports, Option.map_some, Option.map_some]
  simp [transportChanged, expectedTransport, rollingCycle, jackTestCycle, jalvProcessInit, reportTestBackend]

/-- A transport that rolls at 120.0 is reported once. -/
theorem reportsExactly_iff_test : ∃ flags,
    processTransports reportTestBackend (jalvProcessInit reportTestBackend.urids).transport
      [rollingCycle 0 defaultTempo, rollingCycle 64 defaultTempo] = some flags ∧
    ReportsExactly reportTestValues .initial
      ([rollingCycle 0 defaultTempo, rollingCycle 64 defaultTempo].zip flags) ∧
    ∀ changed ∈ flags.drop 1, changed = false := by
  obtain ⟨flags, processed, _, exact, silent⟩ :=
    reportsExactly_iff reportTestValues [rollingCycle 0 defaultTempo, rollingCycle 64 defaultTempo]
  have known : reportTestValues.Exact defaultTempo := by
    obtain ⟨value, double, float⟩ := reportTestValues.default
    exact ⟨value, defaultBpm, double, float⟩
  have told : ReportsExactly reportTestValues .initial
      ([rollingCycle 0 defaultTempo, rollingCycle 64 defaultTempo].zip flags) := by
    have second (report : Report) (tempo : report.tempo = defaultTempo) :
        TemposTold reportTestValues report [rollingCycle 64 defaultTempo] :=
      ⟨fun _ _ _ => Or.inl (tempo ▸ known), fun _ => trivial, fun _ => trivial⟩
    exact exact.mpr ⟨fun _ _ _ => Or.inl known, fun _ => second _ rfl, fun _ => second _ rfl⟩
  exact ⟨flags, processed, told, silent told 0 defaultTempo (rollingCycles_steady defaultTempo)⟩

/-- At 120.1 it is reported in each cycle. -/
theorem reportsExactly_refuted :
    processTransports reportTestBackend (jalvProcessInit reportTestBackend.urids).transport
      [rollingCycle 0 fractionalTempo, rollingCycle 64 fractionalTempo] = some [true, true] ∧
    Steady fractionalTempo [rollingCycle 0 fractionalTempo, rollingCycle 64 fractionalTempo] ∧
    ¬ReportsExactly reportTestValues .initial
      ([rollingCycle 0 fractionalTempo, rollingCycle 64 fractionalTempo].zip [true, true]) := by
  have narrowed : decide (fractionalTempo ≠ widenBits (narrowBits fractionalTempo)) = true := by decide
  refine ⟨?_, rollingCycles_steady fractionalTempo, ?_⟩
  · rw [rollingCycles_processed, narrowed]
  · rintro ⟨_, agrees, told, _⟩
    exact told.mp rfl ((rollingCycles_steady fractionalTempo).next agrees)

end Jalv
