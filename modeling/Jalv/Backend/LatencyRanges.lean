import Jalv.Process.Process

/-! The latency callback of the JACK backend (`latency_cb`).

JACK keeps a range of latencies for each port and mode. The ports that feed the plugin
in a mode are its inputs for the capture latency and its outputs for the playback latency.
-/

set_option autoImplicit false

namespace Jalv

inductive LatencyMode where | capture | playback
  deriving DecidableEq, Repr

structure LatencyRange where
  min : UInt32
  max : UInt32
  deriving DecidableEq, Repr

structure LatencyPort where
  flow : PortFlow
  sysPort : Option (LatencyMode → LatencyRange)

def LatencyMode.flow (mode : LatencyMode) : PortFlow :=
  if mode = .capture then .input else .output

/-- One turn of the first loop: the ports found so far, and their range. -/
def gatherRange (mode : LatencyMode) (flow : PortFlow) (found : Nat × LatencyRange) (port : LatencyPort) :
    Nat × LatencyRange :=
  match port.sysPort with
  | some ranges =>
    if port.flow = flow then
      let r := ranges mode
      let min := if r.min < found.2.min then r.min else found.2.min
      let max := if r.max > found.2.max then r.max else found.2.max
      (found.1 + 1, ⟨min, max⟩)
    else found
  | none => found

def LatencyPort.setRange (port : LatencyPort) (mode : LatencyMode) (range : LatencyRange) : LatencyPort :=
  { port with sysPort := port.sysPort.map fun ranges => Function.update ranges mode range }

def latencyCb (mode : LatencyMode) (pluginLatency : UInt32) (ports : List LatencyPort) : List LatencyPort :=
  let flow := mode.flow
  -- First calculate the min/max latency of all feeding ports
  let (portsFound, range) := ports.foldl (gatherRange mode flow) (0, ⟨uint32Max, 0⟩)
  let range := if portsFound = 0 then { range with min := 0 } else range
  -- Add the plugin's own latency
  let range : LatencyRange := ⟨range.min + pluginLatency, range.max + pluginLatency⟩
  -- Tell Jack about it
  ports.map fun port => if port.sysPort.isSome ∧ port.flow = flow then port.setRange mode range else port

def LatencyMode.fedFlow (mode : LatencyMode) : PortFlow :=
  if mode = .capture then .output else .input

def LatencyPort.range (port : LatencyPort) (mode : LatencyMode) (flow : PortFlow) : Option LatencyRange :=
  if port.flow = flow then port.sysPort.map fun ranges => ranges mode else none

def feedingRanges (mode : LatencyMode) (ports : List LatencyPort) : List LatencyRange :=
  ports.filterMap fun port => port.range mode mode.flow

/-- From the least minimum to the greatest maximum of some ranges, or zero if there are none. -/
structure Spans (ranges : List LatencyRange) (range : LatencyRange) : Prop where
  least : ranges ≠ [] → (∃ r ∈ ranges, r.min = range.min) ∧ ∀ r ∈ ranges, range.min ≤ r.min
  greatest : ranges ≠ [] → (∃ r ∈ ranges, r.max = range.max) ∧ ∀ r ∈ ranges, r.max ≤ range.max
  zero : ranges = [] → range = ⟨0, 0⟩

def LatencyRange.add (range : LatencyRange) (latency : UInt32) : LatencyRange :=
  ⟨range.min + latency, range.max + latency⟩

/-- The fed ports get the range of the feeding ports plus the latency of the plugin, the
feeding ports keep theirs, and a second call changes nothing. -/
structure PropagatesLatency (mode : LatencyMode) (pluginLatency : UInt32) (ports : List LatencyPort) : Prop where
  fed : ∃ range, Spans (feedingRanges mode ports) range ∧
    ∀ (index : Nat) (port next : LatencyPort), ports[index]? = some port →
      (latencyCb mode pluginLatency ports)[index]? = some next →
      port.flow = mode.fedFlow → port.sysPort.isSome → next.range mode mode.fedFlow = some (range.add pluginLatency)
  feeding : ∀ (index : Nat) (port next : LatencyPort), ports[index]? = some port →
    (latencyCb mode pluginLatency ports)[index]? = some next →
    port.flow = mode.flow → next.range mode mode.flow = port.range mode mode.flow
  again : latencyCb mode pluginLatency (latencyCb mode pluginLatency ports) = latencyCb mode pluginLatency ports

/-- Every registered port, feeding or fed, has the range that is to be propagated already. -/
def LatencyPropagated (mode : LatencyMode) (pluginLatency : UInt32) (ports : List LatencyPort) : Prop :=
  ∃ range, Spans (feedingRanges mode ports) range ∧ ∀ port ∈ ports, ∀ ranges, port.sysPort = some ranges →
    port.flow = mode.flow ∨ port.flow = mode.fedFlow → ranges mode = range.add pluginLatency

theorem Spans.unique {ranges : List LatencyRange} {first second : LatencyRange} (one : Spans ranges first)
    (other : Spans ranges second) : first = second := by
  by_cases empty : ranges = []
  · rw [one.zero empty, other.zero empty]
  · obtain ⟨⟨low, lowIn, lowSame⟩, lower⟩ := one.least empty
    obtain ⟨⟨low', lowIn', lowSame'⟩, lower'⟩ := other.least empty
    obtain ⟨⟨high, highIn, highSame⟩, upper⟩ := one.greatest empty
    obtain ⟨⟨high', highIn', highSame'⟩, upper'⟩ := other.greatest empty
    have min : first.min = second.min :=
      UInt32.le_antisymm (lowSame' ▸ lower low' lowIn') (lowSame ▸ lower' low lowIn)
    have max : first.max = second.max :=
      UInt32.le_antisymm (highSame ▸ upper' high highIn) (highSame' ▸ upper high' highIn')
    cases first
    cases second
    simp only at min max
    rw [min, max]

structure Gathered (ranges : List LatencyRange) (start found : Nat × LatencyRange) : Prop where
  count : found.1 = start.1 + ranges.length
  below : ∀ r ∈ ranges, found.2.min ≤ r.min
  above : ∀ r ∈ ranges, r.max ≤ found.2.max
  belowStart : found.2.min ≤ start.2.min
  aboveStart : start.2.max ≤ found.2.max
  least : found.2.min = start.2.min ∨ ∃ r ∈ ranges, r.min = found.2.min
  greatest : found.2.max = start.2.max ∨ ∃ r ∈ ranges, r.max = found.2.max

section

variable {mode : LatencyMode} {flow : PortFlow} {port : LatencyPort}

theorem LatencyPort.range_eq_some_iff {r : LatencyRange} :
    port.range mode flow = some r ↔ port.flow = flow ∧ ∃ ranges, port.sysPort = some ranges ∧ ranges mode = r := by
  unfold LatencyPort.range
  split
  · next same => simp [same]
  · next other => simp [other]

theorem gatherRange_some {r : LatencyRange} (here : port.range mode flow = some r) (found : Nat × LatencyRange) :
    gatherRange mode flow found port = (found.1 + 1, ⟨if r.min < found.2.min then r.min else found.2.min,
      if r.max > found.2.max then r.max else found.2.max⟩) := by
  obtain ⟨same, ranges, registered, rfl⟩ := LatencyPort.range_eq_some_iff.mp here
  simp [gatherRange, registered, same]

theorem gatherRange_none (here : port.range mode flow = none) (found : Nat × LatencyRange) :
    gatherRange mode flow found port = found := by
  cases registered : port.sysPort with
  | none => simp [gatherRange, registered]
  | some ranges =>
    have other : port.flow ≠ flow := by
      intro same
      rw [LatencyPort.range, if_pos same, registered] at here
      cases here
    simp [gatherRange, registered, other]

end

theorem gathered (mode : LatencyMode) (flow : PortFlow) (ports : List LatencyPort) (start : Nat × LatencyRange) :
    Gathered (ports.filterMap fun port => port.range mode flow) start (ports.foldl (gatherRange mode flow) start) := by
  induction ports generalizing start with
  | nil => exact ⟨rfl, by simp, by simp, UInt32.le_refl _, UInt32.le_refl _, Or.inl rfl, Or.inl rfl⟩
  | cons port rest ih =>
    rw [List.foldl_cons]
    cases here : port.range mode flow with
    | none =>
      simp only [List.filterMap_cons, here, gatherRange_none here]
      exact ih start
    | some r =>
      simp only [List.filterMap_cons, here, gatherRange_some here]
      generalize low : (if r.min < start.2.min then r.min else start.2.min) = min
      generalize high : (if r.max > start.2.max then r.max else start.2.max) = max
      obtain ⟨count, below, above, belowStart, aboveStart, least, greatest⟩ := ih (start.1 + 1, ⟨min, max⟩)
      simp only at belowStart aboveStart least greatest
      refine ⟨?_, ?_, ?_, ?_, ?_, ?_, ?_⟩
      · rw [count, List.length_cons]
        omega
      · exact List.forall_mem_cons.mpr ⟨by grind, below⟩
      · exact List.forall_mem_cons.mpr ⟨by grind, above⟩
      · grind
      · grind
      · simp only [List.exists_mem_cons_iff]
        grind
      · simp only [List.exists_mem_cons_iff]
        grind

theorem le_uint32Max (value : UInt32) : value ≤ uint32Max := by
  have bound := value.toNat_lt
  rw [UInt32.le_iff_toNat_le]
  change value.toNat ≤ 4294967295
  omega

section

variable (mode : LatencyMode) (pluginLatency : UInt32) (ports : List LatencyPort)

/-- The callback finds the range that spans those of the feeding ports, and sets it on these ports. -/
theorem latencyCb_eq : ∃ range, Spans (feedingRanges mode ports) range ∧
    latencyCb mode pluginLatency ports = ports.map fun port =>
      if port.sysPort.isSome ∧ port.flow = mode.flow then port.setRange mode (range.add pluginLatency) else port := by
  have loop := gathered mode mode.flow ports (0, ⟨uint32Max, 0⟩)
  rcases found : ports.foldl (gatherRange mode mode.flow) (0, ⟨uint32Max, 0⟩) with ⟨portsFound, range⟩
  rw [found] at loop
  have count : portsFound = (feedingRanges mode ports).length := loop.count.trans (Nat.zero_add _)
  refine ⟨if portsFound = 0 then { range with min := 0 } else range, ?_,
    by simp only [latencyCb, found, LatencyRange.add]⟩
  by_cases empty : feedingRanges mode ports = []
  · have none : portsFound = 0 := by rw [count, empty]; rfl
    have max : range.max = 0 := loop.greatest.resolve_right (by
      rintro ⟨r, member, _⟩
      exact absurd (empty ▸ member : r ∈ []) List.not_mem_nil)
    rw [if_pos none, max]
    exact ⟨fun some => absurd empty some, fun some => absurd empty some, fun _ => rfl⟩
  · have some : portsFound ≠ 0 := fun zero => empty (List.length_eq_zero_iff.mp (count.symm.trans zero))
    obtain ⟨r, member⟩ := List.exists_mem_of_ne_nil _ empty
    rw [if_neg some]
    refine ⟨fun _ => ⟨?_, loop.below⟩, fun _ => ⟨?_, loop.above⟩, fun none => absurd none empty⟩
    · rcases loop.least with start | known
      · exact ⟨r, member, UInt32.le_antisymm (start ▸ le_uint32Max _) (loop.below r member)⟩
      · exact known
    · rcases loop.greatest with start | known
      · exact ⟨r, member, UInt32.le_antisymm (loop.above r member) (start ▸ UInt32.zero_le)⟩
      · exact known

variable {mode pluginLatency ports}

theorem LatencyMode.flow_ne (mode : LatencyMode) : mode.fedFlow ≠ mode.flow := by
  cases mode <;> decide

theorem LatencyPort.setRange_same {port : LatencyPort} {ranges : LatencyMode → LatencyRange} {range : LatencyRange}
    (registered : port.sysPort = some ranges) (same : ranges mode = range) : port.setRange mode range = port := by
  rw [LatencyPort.setRange, registered, Option.map_some, ← same, Function.update_eq_self, ← registered]

/-- The latency is propagated exactly if there is nothing to propagate. -/
theorem propagatesLatency_iff :
    PropagatesLatency mode pluginLatency ports ↔ LatencyPropagated mode pluginLatency ports := by
  obtain ⟨range, spans, result⟩ := latencyCb_eq mode pluginLatency ports
  have after {index : Nat} {port : LatencyPort} (here : ports[index]? = some port) :
      (latencyCb mode pluginLatency ports)[index]? = some
        (if port.sysPort.isSome ∧ port.flow = mode.flow then port.setRange mode (range.add pluginLatency)
        else port) := by
    rw [result, List.getElem?_map, here, Option.map_some]
  constructor
  · intro propagates
    obtain ⟨wanted, spans', fed⟩ := propagates.fed
    cases spans.unique spans'
    refine ⟨range, spans, fun port member ranges registered flow => ?_⟩
    obtain ⟨index, here⟩ := List.mem_iff_getElem?.mp member
    rcases flow with feeding | isFed
    · -- The range of a feeding port is overwritten
      have kept := propagates.feeding index port _ here (after here) feeding
      rw [if_pos ⟨by simp [registered], feeding⟩] at kept
      simp only [LatencyPort.range, LatencyPort.setRange, feeding, registered, Option.map_some, if_true,
        Function.update_self, Option.some.injEq] at kept
      exact kept.symm
    · -- The one of a fed port is not set
      have set := fed index port _ here (after here) isFed (by simp [registered])
      rw [if_neg fun both => mode.flow_ne (isFed.symm.trans both.2)] at set
      simp only [LatencyPort.range, isFed, registered, Option.map_some, if_true, Option.some.injEq] at set
      exact set
  · rintro ⟨wanted, spans', all⟩
    cases spans.unique spans'
    have same : latencyCb mode pluginLatency ports = ports := by
      rw [result]
      refine (List.map_congr_left fun port member => ?_).trans (List.map_id ports)
      split
      · next set =>
        obtain ⟨ranges, registered⟩ := Option.isSome_iff_exists.mp set.1
        exact LatencyPort.setRange_same registered (all port member ranges registered (Or.inl set.2))
      · rfl
    refine ⟨⟨range, spans, ?_⟩, ?_, by rw [same, same]⟩
    · intro index port next here there isFed registered
      rw [same, here] at there
      cases there
      obtain ⟨ranges, known⟩ := Option.isSome_iff_exists.mp registered
      rw [LatencyPort.range, if_pos isFed, known, Option.map_some,
        all port (List.mem_of_getElem? here) ranges known (Or.inr isFed)]
    · intro index port next here there feeding
      rw [same, here] at there
      cases there
      rfl

end

def latencyTestPorts : List LatencyPort :=
  [⟨.input, some fun _ => ⟨64, 64⟩⟩, ⟨.output, some fun _ => ⟨0, 0⟩⟩]

/-- The range of the input is raised by the latency of the plugin at each call, and the output gets none. -/
theorem propagatesLatency_refuted :
    (latencyCb .capture 16 latencyTestPorts).map (fun port => port.sysPort.map fun ranges => ranges .capture) =
        [some ⟨80, 80⟩, some ⟨0, 0⟩] ∧
      ¬PropagatesLatency .capture 16 latencyTestPorts := by
  refine ⟨by decide, fun propagates => ?_⟩
  have kept := propagates.feeding 0 _ _ rfl rfl rfl
  cases kept

end Jalv
