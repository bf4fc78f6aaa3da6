import Jalv.Backend.Addressing
import Jalv.Backend.Playback

/-! The channels of the PortAudio backend (`portaudio.c`).

A stream has as many channels as the plugin has audio ports of each flow. Every cycle
gets one buffer for each channel. `none` is a read outside of the arrays of buffers.
-/

set_option autoImplicit false

namespace Jalv

open Foundation

namespace PortAudio

/-- The numbers of audio inputs and outputs, as `jalv_backend_open` counts them. -/
def countChannels (ports : List JalvProcessPort) : Nat × Nat :=
  ports.foldl (fun counts port =>
    if port.type = .audio then
      if port.flow = .input then (counts.1 + 1, counts.2)
      else if port.flow = .output then (counts.1, counts.2 + 1)
      else counts
    else counts) (0, 0)

variable {β : Type}

def connectFrom (inputs outputs : List β) : Nat → List JalvProcessPort → Nat → Nat → Option (List (Nat × β))
  | _, [], _, _ => some []
  | i, port :: rest, inIndex, outIndex =>
    if port.type = .audio then
      if port.flow = .input then do
        let buffer ← inputs[inIndex]?
        let others ← connectFrom inputs outputs (i + 1) rest (inIndex + 1) outIndex
        return (i, buffer) :: others
      else if port.flow = .output then do
        let buffer ← outputs[outIndex]?
        let others ← connectFrom inputs outputs (i + 1) rest inIndex (outIndex + 1)
        return (i, buffer) :: others
      else connectFrom inputs outputs (i + 1) rest inIndex outIndex
    else connectFrom inputs outputs (i + 1) rest inIndex outIndex

def connectPorts (proc : JalvProcess) (inputs outputs : List β) : Option (List (Nat × β)) :=
  connectFrom inputs outputs 0 proc.ports 0 0

/-- The buffers that `process_silent` sets to zero, which have all frames of the cycle. -/
def silencedBuffers (proc : JalvProcess) (outputs : List β) : Option (List β) :=
  (List.range proc.ports.length).mapM fun i => outputs[i]?

inductive CycleAudio (β : Type) where
  | silenced (buffers : List β)
  | connected (connections : List (Nat × β))

def cycleAudio (proc : JalvProcess) (inputs outputs : List β) : Option (CycleAudio β) :=
  if proc.runState = .paused then (silencedBuffers proc outputs).map .silenced
  else (connectPorts proc inputs outputs).map .connected

/-- What the backend and the main thread make of an opened process: cycles, and changes that
leave the ports alone. -/
inductive Reaches (opened : JackProcess) : JackProcess → Prop
  | opened : Reaches opened opened
  | cycle {jack next : JackProcess} (nframes : UInt32) (output : PluginOutput) :
      Reaches opened jack → processCb jack nframes output = some next → Reaches opened next
  | changed {jack next : JackProcess} : Reaches opened jack → next.proc.ports = jack.proc.ports → Reaches opened next

def audioPorts (flow : PortFlow) (index : Nat) : List JalvProcessPort → List Nat
  | [] => []
  | port :: rest =>
    if port.type = .audio ∧ port.flow = flow then index :: audioPorts flow (index + 1) rest
    else audioPorts flow (index + 1) rest

def IsAudio (proc : JalvProcess) (flow : PortFlow) (index : Nat) : Prop := proc.kinds[index]? = some (.audio, flow)

instance (proc : JalvProcess) (flow : PortFlow) (index : Nat) : Decidable (IsAudio proc flow index) :=
  inferInstanceAs (Decidable (_ = _))

/-- The audio ports of each flow are connected to the buffers in order, one to one, and nothing else is. -/
structure ConnectsChannels (proc : JalvProcess) (inputs outputs : List β) (connections : List (Nat × β)) : Prop where
  inOrder : connections.filter (fun connection => IsAudio proc .input connection.1) =
    (audioPorts .input 0 proc.ports).zip inputs
  inOnto : (audioPorts .input 0 proc.ports).length = inputs.length
  outOrder : connections.filter (fun connection => IsAudio proc .output connection.1) =
    (audioPorts .output 0 proc.ports).zip outputs
  outOnto : (audioPorts .output 0 proc.ports).length = outputs.length
  others : ∀ connection ∈ connections, IsAudio proc .input connection.1 ∨ IsAudio proc .output connection.1

/-- With as many buffers as channels were counted, a cycle reads no other ones, connects the
ports if it runs, and silences all outputs if it is paused. -/
def MapsChannels (opened : JackProcess) (proc : JalvProcess) : Prop :=
  ∀ inputs outputs : List Nat, inputs.length = (countChannels opened.proc.ports).1 →
    outputs.length = (countChannels opened.proc.ports).2 →
    if proc.runState = .paused then
      ∃ buffers, cycleAudio proc inputs outputs = some (.silenced buffers) ∧ outputs ⊆ buffers
    else ∃ connections, cycleAudio proc inputs outputs = some (.connected connections) ∧
      ConnectsChannels proc inputs outputs connections

section

variable (ports : List JalvProcessPort)

theorem countChannels_eq :
    countChannels ports = ((audioPorts .input 0 ports).length, (audioPorts .output 0 ports).length) := by
  have counts (index : Nat) (ports : List JalvProcessPort) (inputs outputs : Nat) :
      ports.foldl (fun counts port =>
        if port.type = .audio then
          if port.flow = .input then (counts.1 + 1, counts.2)
          else if port.flow = .output then (counts.1, counts.2 + 1)
          else counts
        else counts) (inputs, outputs) =
      (inputs + (audioPorts .input index ports).length, outputs + (audioPorts .output index ports).length) := by
    induction ports generalizing index inputs outputs with
    | nil => rfl
    | cons port rest ih =>
      rw [List.foldl_cons]
      by_cases audio : port.type = .audio
      · cases flow : port.flow <;> simp [audioPorts, audio, flow, ih (index + 1)] <;> omega
      · simp [audioPorts, audio, ih (index + 1)]
  have whole := counts 0 ports 0 0
  rwa [Nat.zero_add, Nat.zero_add] at whole

theorem length_audioPorts_le (flow : PortFlow) (index : Nat) :
    (audioPorts flow index ports).length ≤ ports.length := by
  induction ports generalizing index with
  | nil => exact Nat.le_refl _
  | cons port rest ih =>
    have shorter := ih (index + 1)
    rw [audioPorts]
    split <;> simp only [List.length_cons] <;> omega

/-- The audio ports of a flow are all ports exactly if each one is. -/
theorem length_audioPorts_eq_iff (flow : PortFlow) (index : Nat) :
    (audioPorts flow index ports).length = ports.length ↔ ∀ port ∈ ports, port.type = .audio ∧ port.flow = flow := by
  induction ports generalizing index with
  | nil => simp [audioPorts]
  | cons port rest ih =>
    have shorter := length_audioPorts_le rest flow (index + 1)
    rw [audioPorts, List.forall_mem_cons]
    split
    · next audio => simp [audio, ih]
    · next other =>
      simp only [other, false_and, iff_false, List.length_cons]
      omega

end

section

variable {proc : JalvProcess} {inputs outputs : List β}

theorem isAudio_cons_iff {index : Nat} {port : JalvProcessPort} {rest : List JalvProcessPort} (flow : PortFlow)
    (here : proc.ports.drop index = port :: rest) :
    IsAudio proc flow index ↔ port.type = .audio ∧ port.flow = flow := by
  have found : proc.ports[index]? = some port := by
    have first := congrArg (·[0]?) here
    simpa using first
  rw [IsAudio, JalvProcess.kinds, List.getElem?_map, found, Option.map_some, Option.some.injEq, JalvProcessPort.kind,
    Prod.mk.injEq]

theorem audioPorts_here {flow : PortFlow} {port : JalvProcessPort} (audio : port.type = .audio ∧ port.flow = flow)
    (index : Nat) (rest : List JalvProcessPort) :
    audioPorts flow index (port :: rest) = index :: audioPorts flow (index + 1) rest :=
  if_pos audio

theorem audioPorts_skip {flow : PortFlow} {port : JalvProcessPort} (other : ¬(port.type = .audio ∧ port.flow = flow))
    (index : Nat) (rest : List JalvProcessPort) :
    audioPorts flow index (port :: rest) = audioPorts flow (index + 1) rest :=
  if_neg other

theorem filter_connect {flow : PortFlow} {index used : Nat} {indices : List Nat} {buffers : List β}
    {others : List (Nat × β)} (mine : IsAudio proc flow index) (inside : used < buffers.length)
    (inOrder : others.filter (fun connection => IsAudio proc flow connection.1) =
      indices.zip (buffers.drop (used + 1))) :
    ((index, buffers[used]) :: others).filter (fun connection => IsAudio proc flow connection.1) =
      (index :: indices).zip (buffers.drop used) := by
  rw [List.filter_cons, if_pos (decide_eq_true mine), inOrder, List.drop_eq_getElem_cons inside, List.zip_cons_cons]

/-- The loop from a port on, where the buffers before have been used. -/
theorem connectFrom_spec {index inIndex outIndex : Nat} {rest : List JalvProcessPort}
    (here : proc.ports.drop index = rest)
    (inCount : inIndex + (audioPorts .input index rest).length = inputs.length)
    (outCount : outIndex + (audioPorts .output index rest).length = outputs.length) :
    ∃ connections, connectFrom inputs outputs index rest inIndex outIndex = some connections ∧
      connections.filter (fun connection => IsAudio proc .input connection.1) =
        (audioPorts .input index rest).zip (inputs.drop inIndex) ∧
      connections.filter (fun connection => IsAudio proc .output connection.1) =
        (audioPorts .output index rest).zip (outputs.drop outIndex) ∧
      ∀ connection ∈ connections, IsAudio proc .input connection.1 ∨ IsAudio proc .output connection.1 := by
  induction rest generalizing index inIndex outIndex with
  | nil => exact ⟨[], rfl, rfl, rfl, by simp⟩
  | cons port rest ih =>
    have isInput := isAudio_cons_iff .input here
    have isOutput := isAudio_cons_iff .output here
    have behind : proc.ports.drop (index + 1) = rest := by
      rw [← List.drop_drop, here]
      rfl
    rw [connectFrom]
    by_cases audio : port.type = .audio
    · rw [if_pos audio]
      cases flow : port.flow with
      | input =>
        have mine : IsAudio proc .input index := isInput.mpr ⟨audio, flow⟩
        have other : ¬IsAudio proc .output index := by simp [isOutput, flow]
        rw [audioPorts_here ⟨audio, flow⟩, List.length_cons] at inCount
        rw [audioPorts_skip fun kind => other (isOutput.mpr kind)] at outCount
        rw [audioPorts_here ⟨audio, flow⟩, audioPorts_skip fun kind => other (isOutput.mpr kind)]
        have inside : inIndex < inputs.length := by omega
        obtain ⟨others, connected, inOrder, outOrder, all⟩ :=
          @ih (index + 1) (inIndex + 1) outIndex behind (by omega) outCount
        refine ⟨(index, inputs[inIndex]) :: others, ?_, filter_connect mine inside inOrder, ?_,
          List.forall_mem_cons.mpr ⟨Or.inl mine, all⟩⟩
        · rw [if_pos rfl, List.getElem?_eq_getElem inside, connected]
          rfl
        · rw [List.filter_cons, if_neg (by simpa using other), outOrder]
      | output =>
        have mine : IsAudio proc .output index := isOutput.mpr ⟨audio, flow⟩
        have other : ¬IsAudio proc .input index := by simp [isInput, flow]
        rw [audioPorts_here ⟨audio, flow⟩, List.length_cons] at outCount
        rw [audioPorts_skip fun kind => other (isInput.mpr kind)] at inCount
        rw [audioPorts_here ⟨audio, flow⟩, audioPorts_skip fun kind => other (isInput.mpr kind)]
        have inside : outIndex < outputs.length := by omega
        obtain ⟨others, connected, inOrder, outOrder, all⟩ :=
          @ih (index + 1) inIndex (outIndex + 1) behind inCount (by omega)
        refine ⟨(index, outputs[outIndex]) :: others, ?_, ?_, filter_connect mine inside outOrder,
          List.forall_mem_cons.mpr ⟨Or.inr mine, all⟩⟩
        · rw [if_neg PortFlow.noConfusion, if_pos rfl, List.getElem?_eq_getElem inside, connected]
          rfl
        · rw [List.filter_cons, if_neg (by simpa using other), inOrder]
      | unknown =>
        have neither (flow' : PortFlow) (known : flow' ≠ .unknown) :
            audioPorts flow' index (port :: rest) = audioPorts flow' (index + 1) rest :=
          audioPorts_skip (fun kind => known (kind.2.symm.trans flow)) _ _
        rw [neither .input PortFlow.noConfusion] at inCount ⊢
        rw [neither .output PortFlow.noConfusion] at outCount ⊢
        rw [if_neg PortFlow.noConfusion, if_neg PortFlow.noConfusion]
        exact ih behind inCount outCount
    · have neither (flow : PortFlow) : audioPorts flow index (port :: rest) = audioPorts flow (index + 1) rest :=
        audioPorts_skip (fun kind => audio kind.1) _ _
      rw [neither] at inCount outCount ⊢
      rw [neither, if_neg audio]
      exact ih behind inCount outCount

end

theorem mapM_getElem?_range (outputs : List β) (count : Nat) :
    ((List.range count).mapM fun i => outputs[i]?) =
      if count ≤ outputs.length then some (outputs.take count) else none := by
  induction count with
  | zero => rfl
  | succ count ih =>
    rw [List.range_succ, List.mapM_append, ih]
    by_cases inside : count < outputs.length
    · rw [if_pos (Nat.le_of_lt inside), if_pos (Nat.succ_le_of_lt inside), List.mapM_cons,
        List.getElem?_eq_getElem inside, List.take_succ_eq_append_getElem inside]
      rfl
    · have beyond : ¬count + 1 ≤ outputs.length := inside
      rw [if_neg beyond, List.mapM_cons, List.getElem?_eq_none (Nat.not_lt.mp inside)]
      split <;> rfl

section

variable {opened jack next : JackProcess} {proc : JalvProcess}

theorem processCb_kinds {nframes : UInt32} {output : PluginOutput} (done : processCb jack nframes output = some next) :
    next.proc.kinds = jack.proc.kinds := by
  unfold processCb at done
  split at done
  · obtain ⟨⟨proc, ring⟩, bypassed, same⟩ := Option.bind_eq_some_iff.mp done
    cases same
    obtain ⟨⟨status, _⟩, applied, same⟩ := Option.map_eq_some_iff.mp bypassed
    cases same
    exact JalvProcess.kinds_of_shapes (applyUiEvents_shapes applied)
  · obtain ⟨⟨pst, middle⟩, begun, ended⟩ := Option.bind_eq_some_iff.mp done
    obtain ⟨ports, prepared, _⟩ := Option.bind_eq_some_iff.mp begun
    have applied := ((processCbBegin_eq_some_iff prepared).mp begun).1
    have before : middle.proc.kinds = jack.proc.kinds :=
      (JalvProcess.kinds_of_shapes (applyUiEvents_shapes applied)).trans
        (JalvProcess.kinds_of_layout (prepared_layout prepared))
    exact (JalvProcess.kinds_of_layout (processCbEnd_layout ended).1).trans before

theorem Reaches.kinds (reached : Reaches opened jack) : jack.proc.kinds = opened.proc.kinds := by
  induction reached with
  | opened => rfl
  | cycle nframes output _ done ih => exact (processCb_kinds done).trans ih
  | changed _ same ih =>
    rw [JalvProcess.kinds, same]
    exact ih

theorem audioPorts_of_kinds {ports others : List JalvProcessPort}
    (same : ports.map JalvProcessPort.kind = others.map JalvProcessPort.kind) (flow : PortFlow) (index : Nat) :
    audioPorts flow index ports = audioPorts flow index others := by
  induction ports generalizing others index with
  | nil =>
    cases others with
    | nil => rfl
    | cons => cases same
  | cons port rest ih =>
    cases others with
    | nil => cases same
    | cons other behind =>
      obtain ⟨here, tail⟩ := List.cons.inj same
      obtain ⟨type, flows⟩ := Prod.mk.inj here
      rw [audioPorts, audioPorts, ih tail, type, flows]

/-- A running cycle connects the channels that were counted. -/
theorem connectPorts_connects {inputs outputs : List β}
    (ins : (audioPorts .input 0 proc.ports).length = inputs.length)
    (outs : (audioPorts .output 0 proc.ports).length = outputs.length) :
    ∃ connections, connectPorts proc inputs outputs = some connections ∧
      ConnectsChannels proc inputs outputs connections := by
  obtain ⟨connections, connected, inOrder, outOrder, others⟩ :=
    @connectFrom_spec _ proc inputs outputs 0 0 0 proc.ports rfl (by rw [Nat.zero_add, ins])
      (by rw [Nat.zero_add, outs])
  rw [List.drop_zero] at inOrder outOrder
  exact ⟨connections, connected, inOrder, ins, outOrder, outs, others⟩

/-- The channels are mapped as they should be in each running cycle, and in a paused one
exactly if each port is an audio output. -/
theorem mapsChannels_iff (reached : Reaches opened jack) :
    MapsChannels opened jack.proc ↔
      (jack.proc.runState = .paused → ∀ port ∈ opened.proc.ports, port.type = .audio ∧ port.flow = .output) := by
  have same := reached.kinds
  have count : jack.proc.ports.length = opened.proc.ports.length := by
    have lengths := congrArg List.length same
    rwa [JalvProcess.kinds, JalvProcess.kinds, List.length_map, List.length_map] at lengths
  have all := length_audioPorts_eq_iff opened.proc.ports .output 0
  have fewer := length_audioPorts_le opened.proc.ports .output 0
  rw [MapsChannels, countChannels_eq]
  by_cases paused : jack.proc.runState = .paused
  · simp only [paused, if_true, true_implies, cycleAudio, silencedBuffers, mapM_getElem?_range]
    rw [← all, count]
    constructor
    · intro maps
      obtain ⟨buffers, used, _⟩ := maps (List.replicate _ 0) (List.replicate _ 0) List.length_replicate
        List.length_replicate
      obtain ⟨_, silenced, _⟩ := Option.map_eq_some_iff.mp used
      split at silenced
      · next inside =>
        rw [List.length_replicate] at inside
        omega
      · cases silenced
    · intro whole inputs outputs _ length
      refine ⟨outputs, ?_, List.Subset.refl outputs⟩
      rw [if_pos (by omega), List.take_of_length_le (by omega), Option.map_some]
  · simp only [paused, if_false, false_implies, iff_true, cycleAudio]
    intro inputs outputs ins outs
    have sameIns : (audioPorts .input 0 jack.proc.ports).length = inputs.length := by
      rw [audioPorts_of_kinds same, ins]
    have sameOuts : (audioPorts .output 0 jack.proc.ports).length = outputs.length := by
      rw [audioPorts_of_kinds same, outs]
    obtain ⟨connections, connected, connects⟩ := connectPorts_connects sameIns sameOuts
    exact ⟨connections, by rw [connected, Option.map_some], connects⟩

end

def channelsTestPort (flow : PortFlow) : JalvProcessPort :=
  ⟨.audio, flow, false, [], none, 0, false, false, false, false, false⟩

def channelsTestJack (runState : JalvRunState) : JackProcess where
  proc := { jalvProcessInit testUrids with
    ports := [channelsTestPort .input, channelsTestPort .output]
    controlsBuf := [0, 0]
    runState }
  uiToPlugin := .empty 4095
  pluginToUi := .empty 4095

/-- A running effect still maps its channels behind a cycle. -/
theorem mapsChannels_running : ∃ next,
    processCb (channelsTestJack .running) 64 ⟨fun _ => 0, fun _ => 0, fun _ => 0, fun _ _ => 0⟩ = some next ∧
      MapsChannels (channelsTestJack .running) next.proc := by
  refine ⟨_, rfl, (mapsChannels_iff (.cycle 64 _ .opened rfl)).mpr fun paused => ?_⟩
  cases paused

/-- Paused, the effect reads the buffer of a second output channel. -/
theorem mapsChannels_refuted :
    Reaches (channelsTestJack .running) (channelsTestJack .paused) ∧
      silencedBuffers (channelsTestJack .paused).proc [4096] = none ∧
      ¬MapsChannels (channelsTestJack .running) (channelsTestJack .paused).proc := by
  refine ⟨.changed .opened rfl, rfl, fun maps => ?_⟩
  obtain ⟨buffers, silenced, _⟩ := maps [8192] [4096] rfl rfl
  cases silenced

end PortAudio

end Jalv
