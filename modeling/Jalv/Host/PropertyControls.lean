import Jalv.Host.Lookup

/-! The controls of the properties of a plugin (`jalv_create_controls`).

The writable properties come first and then the readable ones, where the second
loop marks the control that the first one made. It looks for this control by its
node alone, and takes that of a port if the port has the same node.
-/

set_option autoImplicit false

namespace Jalv

open Foundation

structure Control.Describes (control : Control) (world : World) (forge : Forge) (writes reads : LilvNode → Prop) :
    Prop where
  id : control.id = .property (world.map control.node)
  symbol : control.symbol = world.symbol control.node
  type : control.valueType = propertyValueType world forge control.node
  writable : control.isWritable = true ↔ writes control.node
  readable : control.isReadable = true ↔ reads control.node

/-- The controls of a plugin are those from before and one for each property with a known type, each with
its own flags, and the lookup by URID finds these and no others. -/
structure PropertyControls (plugin : LilvPlugin) (jalv next : JalvImpl) : Prop where
  controls : ∃ properties, next.controls = jalv.controls ++ properties ∧ (properties.map Control.node).Nodup ∧
    (∀ property, property ∈ properties.map Control.node ↔
      (property ∈ plugin.writable ∨ property ∈ plugin.readable) ∧
        propertyValueType jalv.world jalv.forge property ≠ 0) ∧
    ∀ control ∈ properties,
      control.Describes jalv.world jalv.forge (· ∈ plugin.writable) (· ∈ plugin.readable)
  found : ∀ property, property ∈ plugin.writable ∨ property ∈ plugin.readable →
    propertyValueType jalv.world jalv.forge property ≠ 0 →
      ∃ pointer control, getPropertyControl next.controls (jalv.world.map property) = some pointer ∧
        next.controls[pointer]? = some control ∧ control.node = property ∧
        control.id = .property (jalv.world.map property)
  missing : ∀ urid, (∀ property, property ∈ plugin.writable ∨ property ∈ plugin.readable →
    propertyValueType jalv.world jalv.forge property ≠ 0 → jalv.world.map property ≠ urid) →
      getPropertyControl next.controls urid = none

/-- Each query lists a property once, and the URI map tells the properties apart. -/
structure LilvPlugin.Queries (plugin : LilvPlugin) (world : World) : Prop where
  writable : plugin.writable.Nodup
  readable : plugin.readable.Nodup
  distinct : ∀ property ∈ plugin.writable ++ plugin.readable, ∀ other ∈ plugin.writable ++ plugin.readable,
    world.map property = world.map other → property = other

/-- A property that is both writable and readable does not have the node of a port with a control, unless
its type is unknown and the first such port is an output. -/
def LilvPlugin.Apart (plugin : LilvPlugin) (jalv : JalvImpl) : Prop :=
  ∀ property ∈ plugin.writable, property ∈ plugin.readable →
    ∀ control, jalv.controls.find? (fun control => control.node = property) = some control →
      propertyValueType jalv.world jalv.forge property = 0 ∧ control.isReadable = true

section

variable {controls marked : List Control} {property : LilvNode}

theorem markReadable_nil : markReadable [] property = none := rfl

theorem markReadable_cons (control : Control) (controls : List Control) (property : LilvNode) :
    markReadable (control :: controls) property =
      if control.node = property then some ({ control with isReadable := true } :: controls)
      else (markReadable controls property).map (control :: ·) := by
  unfold markReadable
  rw [List.findIdx?_cons]
  by_cases here : control.node = property
  · rw [if_pos (decide_eq_true here), if_pos here]
    rfl
  · rw [if_neg (by simpa using here), if_neg here]
    cases found : controls.findIdx? fun control => control.node = property with
    | none => rfl
    | some pointer =>
      simp only [Option.map_some, modifyControl, List.getElem?_cons_succ]
      cases controls[pointer]? <;> rfl

theorem markReadable_eq_none_iff : markReadable controls property = none ↔ property ∉ controls.map Control.node := by
  induction controls with
  | nil => simp [markReadable_nil]
  | cons control rest ih =>
    rw [markReadable_cons, List.map_cons, List.mem_cons, not_or]
    split
    · next here => simp [here]
    · next other => simp [ih, Ne.symm other]

theorem markReadable_append (before behind : List Control) :
    markReadable (before ++ behind) property =
      match markReadable before property with
      | some marked => some (marked ++ behind)
      | none => (markReadable behind property).map (before ++ ·) := by
  induction before with
  | nil => simp [markReadable_nil]
  | cons control rest ih =>
    rw [List.cons_append, markReadable_cons, markReadable_cons, ih]
    split
    · rfl
    · cases markReadable rest property <;> simp [Function.comp_def]

theorem markReadable_nodes (found : markReadable controls property = some marked) :
    marked.map Control.node = controls.map Control.node := by
  obtain ⟨pointer, control, here, rfl⟩ := markReadable_some found
  exact map_set_of_same Control.node here rfl

/-- Marking changes the first control with a node, and no other node's. -/
theorem find?_markReadable (found : markReadable controls property = some marked) (other : LilvNode) :
    marked.find? (fun control => control.node = other) =
      (controls.find? fun control => control.node = other).map fun control =>
        if other = property then { control with isReadable := true } else control := by
  induction controls generalizing marked with
  | nil => cases found
  | cons control rest ih =>
    rw [markReadable_cons] at found
    split at found
    · next here =>
      cases found
      by_cases same : other = property
      · simp [here, same]
      · simp [here, same, Ne.symm same]
    · next elsewhere =>
      obtain ⟨others, behind, rfl⟩ := Option.map_eq_some_iff.mp found
      by_cases same : control.node = other
      · have distinct : other ≠ property := same ▸ elsewhere
        simp [same, distinct]
      · simp [same, ih behind]

theorem markReadable_readable (found : markReadable controls property = some marked)
    (already : ∀ control, controls.find? (fun control => control.node = property) = some control →
      control.isReadable = true) : marked = controls := by
  induction controls generalizing marked with
  | nil => cases found
  | cons control rest ih =>
    rw [markReadable_cons] at found
    split at found
    · next here =>
      cases found
      have set : control.isReadable = true := already control (by simp [here])
      rw [← set]
    · next elsewhere =>
      obtain ⟨others, behind, rfl⟩ := Option.map_eq_some_iff.mp found
      rw [ih behind fun control first => already control (by simpa [elsewhere] using first)]

theorem markReadable_describes {world : World} {forge : Forge} {writes reads : LilvNode → Prop}
    (found : markReadable controls property = some marked) (unique : (controls.map Control.node).Nodup)
    (describes : ∀ control ∈ controls, control.Describes world forge writes reads) :
    ∀ control ∈ marked, control.Describes world forge writes fun other => other = property ∨ reads other := by
  induction controls generalizing marked with
  | nil => cases found
  | cons control rest ih =>
    obtain ⟨first, others⟩ := List.forall_mem_cons.mp describes
    obtain ⟨once, unique⟩ := List.nodup_cons.mp unique
    rw [markReadable_cons] at found
    -- A control with another node is read if it was
    have unmarked {entry : Control} (entryDescribes : entry.Describes world forge writes reads)
        (elsewhere : entry.node ≠ property) :
        entry.Describes world forge writes fun other => other = property ∨ reads other :=
      ⟨entryDescribes.id, entryDescribes.symbol, entryDescribes.type, entryDescribes.writable, by
        rw [entryDescribes.readable]
        simp [elsewhere]⟩
    split at found
    · next here =>
      cases found
      refine List.forall_mem_cons.mpr ⟨?_, fun entry member => unmarked (others entry member) ?_⟩
      · exact ⟨first.id, first.symbol, first.type, first.writable, iff_of_true rfl (Or.inl here)⟩
      · rintro same
        exact once (List.mem_map.mpr ⟨entry, member, same.trans here.symm⟩)
    · next elsewhere =>
      obtain ⟨behind, later, rfl⟩ := Option.map_eq_some_iff.mp found
      exact List.forall_mem_cons.mpr ⟨unmarked first elsewhere, ih later unique others⟩

end

theorem defaultValue_defined (world : World) (forge : Forge) (proposal : Option UInt64) (node : Option LilvNode) :
    ∃ value, defaultValue world forge proposal node = some value := by
  -- The first value of a control can be of any size
  have set (atom : Atom) : ∃ value, (anyValueSet proposal .initial atom).map (·.2) = some value := by
    have representable : (ValueCall.set proposal atom).Representable ValueStore.initial.value :=
      ⟨fun long => absurd long (by decide), fun _ _ => rfl⟩
    obtain ⟨reply, value, done, _⟩ := ValueCall.run_owned ValueStore.owned_initial representable
    have returned : anyValueSet proposal .initial atom = some (reply, value) := done
    exact ⟨value, by rw [returned]; rfl⟩
  cases node with
  | none => exact ⟨_, rfl⟩
  | some node =>
    cases node with
    | uri text =>
      rw [defaultValue, anyValueSetNode]
      split <;> exact set _
    | string text => exact set (.ofBytes forge.string (text ++ [0]))
    | float bits => exact set (.ofBytes forge.float (word bits))
    | int value => exact set (.ofBytes forge.int (word value.toUInt32))
    | bool value => exact set (.ofBytes forge.bool [if value then 1 else 0])
    | blank => exact ⟨_, rfl⟩

structure Listed (plugin : LilvPlugin) (start : JalvImpl) (ports : List Control) (listed : List LilvNode)
    (reads : LilvNode → Prop) (jalv : JalvImpl) : Prop where
  same : start.SameWorld jalv
  controls : ∃ properties, jalv.controls = ports ++ properties ∧ properties.map Control.node = listed ∧
    ∀ control ∈ properties, control.Describes start.world start.forge (· ∈ plugin.writable) reads

-- The controls of ports after the second loop has come across a property.
def markPort (plugin : LilvPlugin) (ports : List Control) (property : LilvNode) : List Control :=
  if property ∈ plugin.writable then (markReadable ports property).getD ports else ports

-- The properties with a known type that have a control after a part of the readable ones.
def LilvPlugin.controlled (plugin : LilvPlugin) (start : JalvImpl) (done : List LilvNode) : List LilvNode :=
  (plugin.writable ++ done.filter (· ∉ plugin.writable)).filter fun property =>
    propertyValueType start.world start.forge property ≠ 0

def LilvPlugin.ReadAmong (plugin : LilvPlugin) (start : JalvImpl) (done : List LilvNode) (property : LilvNode) :
    Prop :=
  property ∈ done ∧ (property ∈ plugin.writable → property ∉ start.controls.map Control.node)

def PropertyLoop (plugin : LilvPlugin) (start : JalvImpl) (done : List LilvNode) (jalv : JalvImpl) : Prop :=
  Listed plugin start (done.foldl (markPort plugin) start.controls) (plugin.controlled start done)
    (plugin.ReadAmong start done) jalv

section

variable {plugin : LilvPlugin} {start jalv : JalvImpl} {ports : List Control} {listed : List LilvNode}
variable {reads after : LilvNode → Prop} {property : LilvNode}

theorem Listed.reads_congr (here : Listed plugin start ports listed reads jalv)
    (same : ∀ property ∈ listed, reads property ↔ after property) :
    Listed plugin start ports listed after jalv := by
  obtain ⟨properties, controls, nodes, describes⟩ := here.controls
  refine ⟨here.same, properties, controls, nodes, fun control member => ?_⟩
  have entry := describes control member
  exact ⟨entry.id, entry.symbol, entry.type, entry.writable,
    entry.readable.trans (same control.node (nodes ▸ List.mem_map_of_mem member))⟩

theorem Listed.addProperty (writable : Bool) (property : LilvNode)
    (here : Listed plugin start ports listed reads jalv)
    (flags : propertyValueType start.world start.forge property ≠ 0 →
      (writable = true ↔ property ∈ plugin.writable) ∧ (writable = false ↔ reads property)) :
    ∃ next, Jalv.addProperty jalv writable property = some next ∧
      Listed plugin start ports
        (listed ++ [property].filter fun property => propertyValueType start.world start.forge property ≠ 0)
        reads next := by
  obtain ⟨properties, controls, nodes, describes⟩ := here.controls
  obtain ⟨world, forge⟩ := here.same
  obtain ⟨value, set⟩ := defaultValue_defined jalv.world jalv.forge (jalv.proposal 0) (jalv.world.default property)
  refine ⟨_, addProperty_eq set, ⟨world, forge⟩, ?_⟩
  rw [world, forge]
  by_cases unknown : propertyValueType start.world start.forge property = 0
  · exact ⟨properties, by rw [if_pos unknown, controls], by simp [nodes, unknown], describes⟩
  · obtain ⟨writes, reading⟩ := flags unknown
    have describesNew : (propertyControl jalv writable property value).Describes start.world start.forge
        (· ∈ plugin.writable) reads :=
      ⟨by rw [← world]; rfl, by rw [← world]; rfl, by rw [← world, ← forge]; rfl, writes,
        by simpa [propertyControl] using reading⟩
    refine ⟨properties ++ [propertyControl jalv writable property value], ?_, ?_,
      forall_mem_concat describes describesNew⟩
    · rw [if_neg unknown, addControl, controls, List.append_assoc]
    · simp [nodes, unknown, propertyControl]

theorem createWritable_listed (plugin : LilvPlugin) (start : JalvImpl) :
    ∃ written, jalvCreateControls plugin true start = some written ∧
      Listed plugin start start.controls
        (plugin.writable.filter fun property => propertyValueType start.world start.forge property ≠ 0)
        (fun _ => False) written := by
  refine foldlM_invariant (fun done => Listed plugin start start.controls
    (done.filter fun property => propertyValueType start.world start.forge property ≠ 0) fun _ => False)
    ⟨⟨rfl, rfl⟩, [], by simp, rfl, by simp⟩ fun done property rest jalv whole here => ?_
  have member : property ∈ plugin.writable := by
    rw [show plugin.writable = done ++ property :: rest from whole]
    simp
  obtain ⟨next, added, listed⟩ := here.addProperty true property
    fun _ => ⟨by simp [member], by simp⟩
  refine ⟨next, ?_, by rw [List.filter_append]; exact listed⟩
  rw [createControl, if_neg (by simp)]
  exact added

theorem markPort_nodes (plugin : LilvPlugin) (ports : List Control) (property : LilvNode) :
    (markPort plugin ports property).map Control.node = ports.map Control.node := by
  unfold markPort
  split
  · cases found : markReadable ports property with
    | none => rfl
    | some marked => exact markReadable_nodes found
  · rfl

theorem markPorts_nodes (plugin : LilvPlugin) (done : List LilvNode) (ports : List Control) :
    (done.foldl (markPort plugin) ports).map Control.node = ports.map Control.node := by
  induction done generalizing ports with
  | nil => rfl
  | cons property rest ih => rw [List.foldl_cons, ih, markPort_nodes]

theorem createControl_marked {marked : List Control} (written : property ∈ plugin.writable)
    (found : markReadable jalv.controls property = some marked) :
    createControl plugin false jalv property = some { jalv with controls := marked } := by
  rw [createControl, if_pos ⟨rfl, written⟩, found]

theorem createControl_unmarked (writable : Bool)
    (missing : property ∈ plugin.writable → markReadable jalv.controls property = none) :
    createControl plugin writable jalv property = addProperty jalv writable property := by
  unfold createControl
  split
  · next both => rw [missing both.2]
  · rfl

theorem Listed.createControl_port {marked : List Control} (here : Listed plugin start ports listed reads jalv)
    (written : property ∈ plugin.writable) (found : markReadable ports property = some marked) :
    ∃ next, createControl plugin false jalv property = some next ∧
      Listed plugin start marked listed reads next := by
  obtain ⟨properties, controls, entries⟩ := here.controls
  refine ⟨{ jalv with controls := marked ++ properties }, createControl_marked written ?_, here.same, properties, rfl,
    entries⟩
  rw [controls, markReadable_append, found]

theorem Listed.createControl_property (here : Listed plugin start ports listed reads jalv)
    (written : property ∈ plugin.writable) (port : markReadable ports property = none)
    (member : property ∈ listed) (unique : listed.Nodup) :
    ∃ next, createControl plugin false jalv property = some next ∧
      Listed plugin start ports listed (fun other => other = property ∨ reads other) next := by
  obtain ⟨properties, controls, rfl, describes⟩ := here.controls
  cases found : markReadable properties property with
  | none => exact absurd member (markReadable_eq_none_iff.mp found)
  | some marked =>
    refine ⟨{ jalv with controls := ports ++ marked }, createControl_marked written ?_, here.same, marked, rfl,
      markReadable_nodes found, markReadable_describes found unique describes⟩
    rw [controls, markReadable_append, port, found]
    rfl

theorem Listed.markReadable_none (here : Listed plugin start ports listed reads jalv)
    (port : markReadable ports property = none) (member : property ∉ listed) :
    markReadable jalv.controls property = none := by
  obtain ⟨properties, controls, rfl, _⟩ := here.controls
  rw [controls, markReadable_append, port, markReadable_eq_none_iff.mpr member]
  rfl

theorem LilvPlugin.controlled_writable {done : List LilvNode} (written : property ∈ plugin.writable) :
    plugin.controlled start (done ++ [property]) = plugin.controlled start done := by
  simp [controlled, written]

theorem LilvPlugin.controlled_other {done : List LilvNode} (other : property ∉ plugin.writable) :
    plugin.controlled start (done ++ [property]) = plugin.controlled start done ++
      [property].filter fun property => propertyValueType start.world start.forge property ≠ 0 := by
  have kept : (done ++ [property]).filter (· ∉ plugin.writable) = done.filter (· ∉ plugin.writable) ++ [property] := by
    simp [other]
  rw [controlled, kept, ← List.append_assoc, List.filter_append, controlled]

theorem LilvPlugin.mem_controlled {done : List LilvNode} :
    property ∈ plugin.controlled start done ↔
      (property ∈ plugin.writable ∨ property ∈ done) ∧ propertyValueType start.world start.forge property ≠ 0 := by
  by_cases written : property ∈ plugin.writable <;> simp [controlled, written]

theorem LilvPlugin.controlled_nodup {done : List LilvNode} (writable : plugin.writable.Nodup) (unique : done.Nodup) :
    (plugin.controlled start done).Nodup := by
  refine List.Nodup.filter _ (List.nodup_append.mpr ⟨writable, unique.filter _, ?_⟩)
  rintro property written other behind rfl
  simp [written] at behind

-- A turn of the loop does not flag the other properties.
theorem LilvPlugin.readAmong_append {done : List LilvNode} {other : LilvNode} (distinct : other ≠ property) :
    plugin.ReadAmong start done other ↔ plugin.ReadAmong start (done ++ [property]) other := by
  simp [ReadAmong, distinct]

theorem propertyLoop_append {done : List LilvNode} {next : JalvImpl} :
    PropertyLoop plugin start (done ++ [property]) next ↔
      Listed plugin start (markPort plugin (done.foldl (markPort plugin) start.controls) property)
        (plugin.controlled start (done ++ [property])) (plugin.ReadAmong start (done ++ [property])) next := by
  rw [PropertyLoop, List.foldl_append, List.foldl_cons, List.foldl_nil]

/-- A property that is writable too marks the port with its node if there is one. -/
theorem PropertyLoop.createControl_port {done : List LilvNode} {marked : List Control}
    (here : PropertyLoop plugin start done jalv) (fresh : property ∉ done) (written : property ∈ plugin.writable)
    (found : markReadable (done.foldl (markPort plugin) start.controls) property = some marked) :
    ∃ next, createControl plugin false jalv property = some next ∧
      PropertyLoop plugin start (done ++ [property]) next := by
  have port : property ∈ start.controls.map Control.node := by
    by_contra missing
    rw [← markPorts_nodes plugin done] at missing
    cases (markReadable_eq_none_iff.mpr missing).symm.trans found
  obtain ⟨next, created, listed⟩ := Listed.createControl_port here written found
  refine ⟨next, created, ?_⟩
  rw [propertyLoop_append, LilvPlugin.controlled_writable written, markPort, if_pos written, found]
  refine listed.reads_congr fun other _ => ?_
  by_cases same : other = property
  · subst same
    exact iff_of_false (fun read => fresh read.1) fun read => read.2 written port
  · exact LilvPlugin.readAmong_append same

/-- A property that is writable too flags its own control if no port is in the way, unless it has none because
its type is unknown. -/
theorem PropertyLoop.createControl_property {done : List LilvNode} (here : PropertyLoop plugin start done jalv)
    (unique : (plugin.controlled start done).Nodup) (written : property ∈ plugin.writable)
    (missing : markReadable (done.foldl (markPort plugin) start.controls) property = none) :
    ∃ next, createControl plugin false jalv property = some next ∧
      PropertyLoop plugin start (done ++ [property]) next := by
  have port : property ∉ start.controls.map Control.node := by
    rw [← markPorts_nodes plugin done]
    exact markReadable_eq_none_iff.mp missing
  simp only [propertyLoop_append, LilvPlugin.controlled_writable written, markPort, if_pos written, missing,
    Option.getD_none]
  by_cases member : property ∈ plugin.controlled start done
  · obtain ⟨next, created, listed⟩ := Listed.createControl_property here written missing member unique
    refine ⟨next, created, listed.reads_congr fun other _ => ?_⟩
    by_cases same : other = property
    · subst same
      exact iff_of_true (Or.inl rfl) ⟨by simp, fun _ => port⟩
    · rw [or_iff_right same]
      exact LilvPlugin.readAmong_append same
  · -- The loop over the writable properties has dropped it because of its type, and so does this one
    have unknown : propertyValueType start.world start.forge property = 0 := by
      by_contra known
      exact member (LilvPlugin.mem_controlled.mpr ⟨Or.inl written, known⟩)
    obtain ⟨next, added, listed⟩ := Listed.addProperty false property here fun known => absurd unknown known
    rw [List.filter_cons_of_neg (by simp [unknown]), List.filter_nil, List.append_nil] at listed
    refine ⟨next, ?_, listed.reads_congr fun other among =>
      LilvPlugin.readAmong_append fun same => member (same ▸ among)⟩
    rw [createControl_unmarked false fun _ => Listed.markReadable_none here missing member]
    exact added

theorem PropertyLoop.createControl_readable {done : List LilvNode} (here : PropertyLoop plugin start done jalv)
    (fresh : property ∉ done) (other : property ∉ plugin.writable) :
    ∃ next, createControl plugin false jalv property = some next ∧
      PropertyLoop plugin start (done ++ [property]) next := by
  have skipped : property ∉ plugin.controlled start done := fun member =>
    (LilvPlugin.mem_controlled.mp member).1.elim other fresh
  have ahead : Listed plugin start (done.foldl (markPort plugin) start.controls) (plugin.controlled start done)
      (plugin.ReadAmong start (done ++ [property])) jalv :=
    Listed.reads_congr here fun node among => LilvPlugin.readAmong_append fun same => skipped (same ▸ among)
  obtain ⟨next, added, listed⟩ := ahead.addProperty false property
    fun _ => ⟨by simp [other], by simp [LilvPlugin.ReadAmong, other]⟩
  refine ⟨next, (createControl_unmarked false fun written => absurd written other).trans added, ?_⟩
  rw [propertyLoop_append, LilvPlugin.controlled_other other, markPort, if_neg other]
  exact listed

theorem PropertyLoop.createControl {done rest : List LilvNode} (queries : plugin.Queries start.world)
    (whole : plugin.readable = done ++ property :: rest) (here : PropertyLoop plugin start done jalv) :
    ∃ next, Jalv.createControl plugin false jalv property = some next ∧
      PropertyLoop plugin start (done ++ [property]) next := by
  have unique := queries.readable
  rw [whole] at unique
  obtain ⟨before, _, apart⟩ := List.nodup_append.mp unique
  have fresh : property ∉ done := fun member => apart _ member _ List.mem_cons_self rfl
  by_cases written : property ∈ plugin.writable
  · cases found : markReadable (done.foldl (markPort plugin) start.controls) property with
    | some marked => exact here.createControl_port fresh written found
    | none => exact here.createControl_property (LilvPlugin.controlled_nodup queries.writable before) written found
  · exact here.createControl_readable fresh written

/-- Both loops succeed, and what they leave is known whatever ports there are. -/
theorem createControls_loop (queries : plugin.Queries start.world) :
    ∃ written final, jalvCreateControls plugin true start = some written ∧
      jalvCreateControls plugin false written = some final ∧ PropertyLoop plugin start plugin.readable final := by
  obtain ⟨written, writable, listed⟩ := createWritable_listed plugin start
  have begins : PropertyLoop plugin start [] written := by
    have none : plugin.controlled start [] =
        plugin.writable.filter fun property => propertyValueType start.world start.forge property ≠ 0 := by
      simp [LilvPlugin.controlled]
    rw [PropertyLoop, none]
    exact listed.reads_congr fun other _ => iff_of_false id fun read => by cases read.1
  obtain ⟨final, readable, last⟩ := @foldlM_invariant _ _ (createControl plugin false) (PropertyLoop plugin start) _ _
    begins fun done property rest state whole here => here.createControl queries whole
  exact ⟨written, final, writable, readable, last⟩

theorem find?_markPort (plugin : LilvPlugin) (ports : List Control) (property node : LilvNode) :
    (markPort plugin ports property).find? (fun control => control.node = node) =
      (ports.find? fun control => control.node = node).map fun control =>
        if node = property ∧ node ∈ plugin.writable then { control with isReadable := true } else control := by
  unfold markPort
  split
  · next written =>
    cases found : markReadable ports property with
    | none =>
      by_cases same : node = property
      · subst same
        have missing : (ports.find? fun control => control.node = node) = none := by
          rw [List.find?_eq_none]
          intro control member here
          exact markReadable_eq_none_iff.mp found (List.mem_map.mpr ⟨control, member, of_decide_eq_true here⟩)
        rw [Option.getD_none, missing]
        rfl
      · simp [same]
    | some marked =>
      rw [Option.getD_some, find?_markReadable found node]
      by_cases same : node = property
      · simp [same, written]
      · simp [same]
  · next other =>
    have neither : ¬ (node = property ∧ node ∈ plugin.writable) := fun both => other (both.1 ▸ both.2)
    simp [neither]

/-- The loop over the readable properties marks the first port with the node of each one that is writable too. -/
theorem find?_markPorts (plugin : LilvPlugin) (done : List LilvNode) (ports : List Control) (node : LilvNode) :
    (done.foldl (markPort plugin) ports).find? (fun control => control.node = node) =
      (ports.find? fun control => control.node = node).map fun control =>
        if node ∈ done ∧ node ∈ plugin.writable then { control with isReadable := true } else control := by
  induction done generalizing ports with
  | nil => simp
  | cons property rest ih =>
    rw [List.foldl_cons, ih, find?_markPort, Option.map_map]
    congr 1
    funext control
    by_cases written : node ∈ plugin.writable <;> by_cases later : node ∈ rest <;>
      rcases eq_or_ne node property with rfl | first <;> simp [*]

theorem markPorts_apart (apart : plugin.Apart jalv) {done : List LilvNode}
    (among : ∀ property ∈ done, property ∈ plugin.readable) :
    done.foldl (markPort plugin) jalv.controls = jalv.controls := by
  induction done with
  | nil => rfl
  | cons property rest ih =>
    obtain ⟨readable, among⟩ := List.forall_mem_cons.mp among
    have unmarked : markPort plugin jalv.controls property = jalv.controls := by
      unfold markPort
      split
      · next written =>
        cases found : markReadable jalv.controls property with
        | none => rfl
        | some marked =>
          exact markReadable_readable found fun control first => (apart property written readable control first).2
      · rfl
    rw [List.foldl_cons, unmarked, ih among]

theorem getPropertyControl_found {controls : List Control} {urid : URID}
    (listed : .property urid ∈ controls.map Control.id) :
    ∃ pointer control, getPropertyControl controls urid = some pointer ∧ controls[pointer]? = some control ∧
      control.id = .property urid := by
  obtain ⟨entry, member, id⟩ := List.mem_map.mp listed
  have some : (getPropertyControl controls urid).isSome := by
    rw [getPropertyControl, List.findIdx?_isSome, List.any_eq_true]
    exact ⟨entry, member, decide_eq_true id⟩
  obtain ⟨pointer, found⟩ := Option.isSome_iff_exists.mp some
  obtain ⟨inside, here, _⟩ := List.findIdx?_eq_some_iff_getElem.mp found
  exact ⟨pointer, controls[pointer], found, List.getElem?_eq_getElem inside, of_decide_eq_true here⟩

/-- Without a port in the way, each property is flagged as the queries say. -/
theorem PropertyLoop.propertyControls (queries : plugin.Queries start.world)
    (ports : ∀ control ∈ start.controls, ∃ index, control.id = .port index) (apart : plugin.Apart start)
    (here : PropertyLoop plugin start plugin.readable jalv) : PropertyControls plugin start jalv := by
  obtain ⟨properties, controls, nodes, describes⟩ := here.controls
  rw [markPorts_apart apart fun _ => id] at controls
  have listed (node : LilvNode) : node ∈ properties.map Control.node ↔
      (node ∈ plugin.writable ∨ node ∈ plugin.readable) ∧ propertyValueType start.world start.forge node ≠ 0 := by
    rw [nodes, LilvPlugin.mem_controlled]
  have flagged (control : Control) (member : control ∈ properties) :
      control.Describes start.world start.forge (· ∈ plugin.writable) (· ∈ plugin.readable) := by
    have entry := describes control member
    refine ⟨entry.id, entry.symbol, entry.type, entry.writable, entry.readable.trans ?_⟩
    refine ⟨And.left, fun readable => ⟨readable, fun written port => ?_⟩⟩
    -- A port with the same node would have an unknown type
    obtain ⟨other, among, same⟩ := List.mem_map.mp port
    obtain ⟨first, found⟩ : ∃ first, (start.controls.find? fun other => other.node = control.node) = some first :=
      Option.isSome_iff_exists.mp (List.find?_isSome.mpr ⟨other, among, decide_eq_true same⟩)
    exact ((listed control.node).mp (List.mem_map_of_mem member)).2 (apart _ written readable first found).1
  -- A control with the identifier of a property is that of the property
  have owner {control : Control} {urid : URID} (member : control ∈ jalv.controls)
      (id : control.id = .property urid) :
      control.node ∈ properties.map Control.node ∧ start.world.map control.node = urid := by
    rw [controls] at member
    rcases List.mem_append.mp member with port | property
    · obtain ⟨index, other⟩ := ports control port
      cases id.symm.trans other
    · exact ⟨List.mem_map_of_mem property, ControlId.property.inj ((flagged control property).id.symm.trans id)⟩
  have among {node : LilvNode} (either : node ∈ plugin.writable ∨ node ∈ plugin.readable) :
      node ∈ plugin.writable ++ plugin.readable :=
    List.mem_append.mpr either
  refine ⟨⟨properties, controls, nodes ▸ LilvPlugin.controlled_nodup queries.writable queries.readable, listed,
    flagged⟩, fun property either known => ?_, fun urid others => ?_⟩
  · obtain ⟨entry, member, rfl⟩ := List.mem_map.mp ((listed property).mpr ⟨either, known⟩)
    have identified : .property (start.world.map entry.node) ∈ jalv.controls.map Control.id := by
      rw [controls]
      exact List.mem_map.mpr ⟨entry, List.mem_append_right _ member, (flagged entry member).id⟩
    obtain ⟨pointer, control, found, there, id⟩ := getPropertyControl_found identified
    obtain ⟨own, same⟩ := owner (List.mem_of_getElem? there) id
    have node := queries.distinct _ (among ((listed _).mp own).1) _ (among either) same
    exact ⟨pointer, control, found, there, node, id⟩
  · rw [getPropertyControl, List.findIdx?_eq_none_iff]
    intro control member
    refine decide_eq_false fun id => ?_
    obtain ⟨own, same⟩ := owner member id
    obtain ⟨either, known⟩ := (listed _).mp own
    exact others _ either known same

/-- A port in the way is flagged in place of the property. -/
theorem PropertyLoop.apart (here : PropertyLoop plugin start plugin.readable jalv)
    (right : PropertyControls plugin start jalv) : plugin.Apart start := by
  obtain ⟨properties, controls, nodes, describes⟩ := here.controls
  obtain ⟨entries, others, _, _, flagged⟩ := right.controls
  have length := congrArg List.length (markPorts_nodes plugin plugin.readable start.controls)
  rw [List.length_map, List.length_map] at length
  obtain ⟨unmarked, rfl⟩ := List.append_inj (controls.symm.trans others) length
  intro property written readable control first
  have node : control.node = property := by simpa using List.find?_some first
  have port : property ∈ start.controls.map Control.node :=
    List.mem_map.mpr ⟨control, List.mem_of_find?_eq_some first, node⟩
  constructor
  · by_contra known
    obtain ⟨entry, member, rfl⟩ : ∃ entry ∈ properties, entry.node = property := by
      rw [← List.mem_map, nodes]
      exact LilvPlugin.mem_controlled.mpr ⟨Or.inl written, known⟩
    have read := (flagged entry member).readable.mpr readable
    exact ((describes entry member).readable.mp read).2 written port
  · have marked := find?_markPorts plugin plugin.readable start.controls property
    rw [unmarked, first, Option.map_some, if_pos ⟨readable, written⟩] at marked
    rw [Option.some.inj marked]

/-- The property controls are complete and flagged if and only if no port with a control is in the way of
the second loop. -/
theorem propertyControls_iff (queries : plugin.Queries jalv.world)
    (ports : ∀ control ∈ jalv.controls, ∃ index, control.id = .port index) :
    (∃ written final, jalvCreateControls plugin true jalv = some written ∧
      jalvCreateControls plugin false written = some final ∧ PropertyControls plugin jalv final) ↔
    plugin.Apart jalv := by
  obtain ⟨written, final, writable, readable, loop⟩ := createControls_loop queries
  constructor
  · rintro ⟨first, last, firstRun, lastRun, right⟩
    cases writable.symm.trans firstRun
    cases readable.symm.trans lastRun
    exact loop.apart right
  · exact fun apart => ⟨written, final, writable, readable, loop.propertyControls queries ports apart⟩

end

def propertyTestNode (letter : UInt8) : LilvNode := .uri [117, 114, 110, 58, letter]

def propertyTestPlugin : LilvPlugin where
  ports := []
  few := by decide
  defaults := []
  writable := [propertyTestNode 97, propertyTestNode 98]
  readable := [propertyTestNode 98]
  threadSafeRestore := false

def propertyTestHost (portNode : LilvNode) : JalvImpl :=
  { lookupTestHost with
    world := { lookupTestHost.world with
      map := fun node => if node = propertyTestNode 97 then 1 else 2
      hasRange := fun _ type => type = .float }
    controls := [⟨.port 0, portNode, [], 3, .initial, true, false⟩] }

theorem propertyControls_iff_test :
    ∃ written final,
      jalvCreateControls propertyTestPlugin true (propertyTestHost (propertyTestNode 99)) = some written ∧
      jalvCreateControls propertyTestPlugin false written = some final ∧
      PropertyControls propertyTestPlugin (propertyTestHost (propertyTestNode 99)) final := by
  have queries : propertyTestPlugin.Queries (propertyTestHost (propertyTestNode 99)).world :=
    ⟨by decide, by decide, by decide⟩
  have ports : ∀ control ∈ (propertyTestHost (propertyTestNode 99)).controls, ∃ index, control.id = .port index := by
    intro control member
    cases List.mem_singleton.mp member
    exact ⟨0, rfl⟩
  refine (propertyControls_iff queries ports).mpr fun property written readable control first => ?_
  cases List.mem_singleton.mp readable
  cases first

/-- The port has the node of a property that is both writable and readable. It is flagged as readable, and the
property is not. -/
theorem propertyControls_refuted :
    ∃ written final,
      jalvCreateControls propertyTestPlugin true (propertyTestHost (propertyTestNode 98)) = some written ∧
      jalvCreateControls propertyTestPlugin false written = some final ∧
      ¬ PropertyControls propertyTestPlugin (propertyTestHost (propertyTestNode 98)) final := by
  refine ⟨_, _, rfl, rfl, fun right => ?_⟩
  obtain ⟨properties, controls, _⟩ := right.controls
  cases controls

end Jalv
