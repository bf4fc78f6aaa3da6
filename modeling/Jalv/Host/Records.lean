import Jalv.Foundation.Lists
import Jalv.Host.Acquired

/-! The records of ports and controls that opening a plugin creates, and the array of controls. -/

set_option autoImplicit false

namespace Jalv

open Foundation

namespace Life

section

variable {env : Environment} {start life : Life}

theorem addControl_ledger {control resource : Resource} (other : resource ≠ .controls) :
    (life.addControl env control).ledger resource = life.ledger resource := by
  unfold addControl
  split
  · simp [other]
  · rfl

theorem newControl_ledger {control resource : Resource} {stored : Bool} (other : resource ≠ .controls) :
    (life.newControl env control stored).ledger resource =
      if resource = control then (life.ledger resource).acquire else life.ledger resource := by
  unfold newControl
  split
  · rw [addControl_ledger other, change_ledger, Ledger.change_apply]
  · rw [change_ledger, Ledger.change_apply]

theorem newControl_frame (control : Resource) (stored : Bool) :
    ∃ ledger controls, life.newControl env control stored = { life with ledger, controls } := by
  unfold newControl addControl
  split
  · split <;> exact ⟨_, _, rfl⟩
  · exact ⟨_, _, rfl⟩

structure Stored (env : Environment) (life : Life) : Prop where
  array : (life.ledger .controls).Tidy
  nodup : life.controls.Nodup
  member : ∀ resource, resource ∈ life.controls ↔ resource.IsControl ∧ life.setUp resource ∧ env.Keeps resource

theorem Stored.congr {next : Life} (stored : Stored env life) (array : next.ledger .controls = life.ledger .controls)
    (controls : next.controls = life.controls)
    (others : ∀ resource : Resource, resource.IsControl → next.ledger resource = life.ledger resource) :
    Stored env next where
  array := by
    rw [array]
    exact stored.array
  nodup := by
    rw [controls]
    exact stored.nodup
  member resource := by
    rw [controls, stored.member]
    refine and_congr_right fun control => ?_
    rw [setUp, setUp, others resource control]

theorem Stored.newControl {control : Resource} {kept : Bool} (stored : Stored env life) (isControl : control.IsControl)
    (fresh : (life.ledger control).pointer = none) (keeps : env.Keeps control ↔ kept ∧ env.room control) :
    Stored env (life.newControl env control kept) := by
  have differs : Resource.controls ≠ control := by
    rintro rfl
    exact isControl
  have new : (life.newControl env control kept).setUp control := by
    rw [setUp, newControl_ledger differs.symm, if_pos rfl]
    rfl
  have others {resource : Resource} (other : resource ≠ control) (isControl : resource.IsControl) :
      (life.newControl env control kept).setUp resource = life.setUp resource := by
    have noArray : resource ≠ .controls := by
      rintro rfl
      exact isControl
    rw [setUp, newControl_ledger noArray, if_neg other, setUp]
  have gone : life.setUp control = false := by
    rw [setUp, fresh]
    rfl
  have outside : control ∉ life.controls := by simp [stored.member, gone]
  have array : ((life.acquire control).ledger .controls).Tidy := by
    rw [change_ledger, Ledger.change_apply, if_neg differs]
    exact stored.array
  have member (controls : List Resource)
      (content : ∀ resource, resource ∈ controls ↔ resource ∈ life.controls ∨ resource = control ∧ env.Keeps control)
      (resource : Resource) : resource ∈ controls ↔
        resource.IsControl ∧ (life.newControl env control kept).setUp resource ∧ env.Keeps resource := by
    rw [content, stored.member]
    by_cases same : resource = control
    · subst same
      simp [isControl, new, gone]
    · simp only [same, false_and, or_false]
      refine and_congr_right fun isControl => ?_
      rw [others same isControl]
  by_cases keep : env.Keeps control
  · obtain ⟨stores, room⟩ := keeps.mp keep
    have shape : life.newControl env control kept =
        { (life.acquire control).renew .controls with controls := life.controls ++ [control] } := by
      rw [Life.newControl, if_pos stores, addControl, if_pos room]
      rfl
    have content (resource : Resource) : resource ∈ life.controls ++ [control] ↔
        resource ∈ life.controls ∨ resource = control ∧ env.Keeps control := by
      simp [keep]
    refine ⟨?_, ?_, ?_⟩
    · rw [shape]
      simpa using array.renew
    · rw [shape]
      exact List.nodup_append.mpr ⟨stored.nodup, List.pairwise_singleton _ _, by grind⟩
    · have all := member _ content
      rw [shape] at all ⊢
      exact all
  · have shape : life.newControl env control kept = life.acquire control := by
      unfold Life.newControl addControl
      grind
    have content (resource : Resource) : resource ∈ life.controls ↔
        resource ∈ life.controls ∨ resource = control ∧ env.Keeps control := by
      simp [keep]
    refine ⟨?_, ?_, ?_⟩
    · rw [shape]
      exact array
    · rw [shape]
      exact stored.nodup
    · have all := member _ content
      rw [shape] at all ⊢
      exact all

section

variable {index port : Nat} {here : LilvPort}

theorem visits_step (found : env.ports[index]? = some here) : index ≤ port ∧ env.Visits index port ↔
    port = index ∨ env.knows here ∧ index + 1 ≤ port ∧ env.Visits (index + 1) port := by
  have inside := (List.getElem?_eq_some_iff.mp found).1
  unfold Environment.Visits
  constructor
  · rintro ⟨later, bound, known⟩
    rcases Nat.eq_or_lt_of_le later with same | after
    · exact .inl same.symm
    · exact .inr ⟨known index le_rfl after here found, after, bound, fun earlier above => known earlier (by omega)⟩
  · rintro (same | ⟨knows, later, bound, known⟩)
    · exact ⟨by omega, by omega, fun earlier above below => by omega⟩
    · refine ⟨by omega, bound, fun earlier above below other member => ?_⟩
      rcases Nat.eq_or_lt_of_le above with same | after
      · subst same
        rw [Option.mem_def, found] at member
        cases member
        exact knows
      · exact known earlier after below other member

theorem controls_step (found : env.ports[index]? = some here) : index ≤ port ∧ env.Controls index port ↔
    env.knows here ∧ (port = index ∧ here.isControl ∨ index + 1 ≤ port ∧ env.Controls (index + 1) port) := by
  have visits := @visits_step env index port here found
  unfold Environment.Controls
  constructor
  · rintro ⟨later, visited, other, member, knows, control⟩
    rcases visits.mp ⟨later, visited⟩ with same | ⟨known, after, rest⟩
    · subst same
      rw [Option.mem_def, found] at member
      cases member
      exact ⟨knows, .inl ⟨rfl, control⟩⟩
    · exact ⟨known, .inr ⟨after, rest, other, member, knows, control⟩⟩
  · rintro ⟨knows, ⟨same, control⟩ | ⟨after, rest, other⟩⟩
    · have visited := visits.mpr (.inl same)
      exact ⟨visited.1, visited.2, here, by rw [same, found, Option.mem_def], knows, control⟩
    · have visited := visits.mpr (.inr ⟨knows, after, rest⟩)
      exact ⟨visited.1, visited.2, other⟩

end

def PortSets (env : Environment) (index : Nat) : Resource → Prop
  | .symbol port => index ≤ port ∧ env.Visits index port
  | .label port => (index ≤ port ∧ env.Visits index port) ∧ env.named port
  | .portControl port => index ≤ port ∧ env.Controls index port
  | _ => False

theorem not_portSets {index : Nat} (behind : env.ports.length ≤ index) (resource : Resource) :
    ¬PortSets env index resource := by
  have none (port : Nat) (later : index ≤ port) : ¬env.Visits index port := fun visited => by
    have inside := visited.1
    omega
  cases resource with
  | symbol port => exact fun sets => none port sets.1 sets.2
  | label port => exact fun sets => none port sets.1.1 sets.1.2
  | portControl port => exact fun sets => none port sets.1 sets.2.1
  | _ => exact id

theorem portSets_step {index : Nat} {here : LilvPort} (found : env.ports[index]? = some here) (resource : Resource) :
    (resource = .symbol index ∨ resource = .label index ∧ env.named index) ∨
        env.knows here ∧ (resource = .portControl index ∧ here.isControl ∨ PortSets env (index + 1) resource) ↔
      PortSets env index resource := by
  cases resource with
  | symbol port => simp [PortSets, visits_step found]
  | label port =>
    simp only [PortSets, visits_step found, reduceCtorEq, false_and, false_or, Resource.label.injEq]
    grind
  | portControl port => simp [PortSets, controls_step found]
  | _ => simp [PortSets]

theorem initPort_given (index : Nat) (resource : Resource) :
    (life.ledger resource).Given (resource = .symbol index ∨ resource = .label index ∧ env.named index)
      ((life.initPort env index).ledger resource) := by
  unfold initPort
  cases named : env.named index <;> cases resource <;> simp [Account.Given] <;> grind

def createdPort (env : Environment) (index : Nat) (port : LilvPort) (life : Life) : Life :=
  if port.isControl then (life.initPort env index).newControl env (.portControl index) true
  else life.initPort env index

theorem createPortsFrom_cons (index : Nat) (here : LilvPort) (rest : List LilvPort) :
    createPortsFrom env index (here :: rest) life =
      if env.knows here then createPortsFrom env (index + 1) rest (createdPort env index here life)
      else (true, life.initPort env index) := by
  rw [createPortsFrom, Environment.knows]
  cases jalvProcessPortInit env.useJackMetadata here <;> rfl

theorem createdPort_given {resource : Resource} (other : resource ≠ .controls) (index : Nat) (port : LilvPort) :
    ((life.initPort env index).ledger resource).Given (resource = .portControl index ∧ port.isControl)
      ((createdPort env index port life).ledger resource) := by
  unfold createdPort
  split
  · next control =>
    rw [newControl_ledger other]
    split
    · next same => exact .of ⟨same, control⟩
    · next differ => exact .not fun sets => differ sets.1
  · next none => exact .not fun sets => none sets.2

theorem createPortsFrom_given {index : Nat} {ports : List LilvPort} (rest : env.ports.drop index = ports)
    {resource : Resource} (other : resource ≠ .controls) :
    (life.ledger resource).Given (PortSets env index resource)
      ((createPortsFrom env index ports life).2.ledger resource) := by
  induction ports generalizing index life with
  | nil => exact .not (not_portSets (List.drop_eq_nil_iff.mp rest) resource)
  | cons here others ih =>
    obtain ⟨found, behind⟩ := of_drop_eq_cons rest
    have begun := @initPort_given env life index resource
    rw [createPortsFrom_cons]
    split
    · next known =>
      have last := (@createdPort_given env life _ other index here).trans (ih behind) (by
        rintro ⟨⟨rfl, _⟩, later, _⟩
        omega)
      refine (begun.trans last ?_).congr ?_
      · rintro ⟨rfl | ⟨rfl, _⟩, ⟨differ, _⟩ | sets⟩
        · cases differ
        · exact absurd sets.1 (by omega)
        · cases differ
        · exact absurd sets.1.1 (by omega)
      · rw [← portSets_step found]
        simp [known]
    · next unknown =>
      exact begun.congr ((or_iff_left fun sets => unknown sets.1).symm.trans (portSets_step found resource))

theorem initPort_same (index : Nat) : life.SameFields (life.initPort env index) := by
  have begun := (SameFields.refl life).change (.symbol index) .acquire
  exact (begun.change _ _).ite begun

theorem createdPort_frame (index : Nat) (port : LilvPort) :
    ∃ ledger controls, createdPort env index port life = { life with ledger, controls } := by
  obtain ⟨ledger, same⟩ := @initPort_same env life index
  unfold createdPort
  rw [same]
  split
  · exact newControl_frame _ _
  · exact ⟨_, _, rfl⟩

theorem createPortsFrom_frame (index : Nat) (ports : List LilvPort) :
    ∃ ledger controls, (createPortsFrom env index ports life).2 = { life with ledger, controls } := by
  induction ports generalizing index life with
  | nil => exact ⟨_, _, rfl⟩
  | cons here rest ih =>
    rw [createPortsFrom_cons]
    split
    · obtain ⟨ledger, controls, same⟩ := @createdPort_frame env life index here
      rw [same]
      exact ih (index + 1)
    · obtain ⟨ledger, same⟩ := @initPort_same env life index
      exact ⟨ledger, _, same⟩

theorem createPortsFrom_failed (index : Nat) (ports : List LilvPort) :
    (createPortsFrom env index ports life).1 = true ↔ ∃ port ∈ ports, ¬env.knows port := by
  induction ports generalizing index life with
  | nil => simp [createPortsFrom]
  | cons here rest ih =>
    rw [createPortsFrom_cons, List.exists_mem_cons_iff]
    split
    · next known => rw [ih, or_iff_right (not_not_intro known)]
    · next unknown => exact iff_of_true rfl (.inl unknown)

theorem Stored.createPortsFrom {index : Nat} {ports : List LilvPort} (stored : Stored env life)
    (fresh : ∀ port, index ≤ port → (life.ledger (.portControl port)).pointer = none) :
    Stored env (createPortsFrom env index ports life).2 := by
  induction ports generalizing index life with
  | nil => exact stored
  | cons here rest ih =>
    obtain ⟨_, same⟩ := @initPort_same env life index
    have kept (resource : Resource) (differ : ¬(resource = .symbol index ∨ resource = .label index ∧ env.named index)) :
        (life.initPort env index).ledger resource = life.ledger resource := (initPort_given index resource).2 differ
    have begun : Stored env (life.initPort env index) :=
      stored.congr (kept _ (by simp)) (by rw [same]) fun resource control =>
        kept resource (by rintro (rfl | ⟨rfl, _⟩) <;> exact control)
    have unset (port : Nat) (later : index ≤ port) :
        ((life.initPort env index).ledger (.portControl port)).pointer = none := by
      rw [kept _ (by simp)]
      exact fresh port later
    rw [createPortsFrom_cons]
    split
    · refine ih ?_ fun port later => ?_
      · unfold createdPort
        split
        · exact begun.newControl trivial (unset index le_rfl) (by simp [Environment.Keeps])
        · exact begun
      · have differ : ¬(Resource.portControl port = .portControl index ∧ here.isControl) := by
          rintro ⟨same, _⟩
          cases same
          omega
        have other : Resource.portControl port ≠ .controls := nofun
        rw [(createdPort_given other index here).2 differ]
        exact unset port (by omega)
    · exact begun

theorem jalvCreatePorts_stage {resource : Resource} (other : resource ≠ .controls) :
    (life.ledger resource).Given (resource.stage = 4 ∧ start.Sets env resource)
      ((life.jalvCreatePorts env).2.ledger resource) := by
  let allocated := ((life.acquire .ports).acquire .processPorts).acquire .controlsBuf
  have begun : (life.ledger resource).Given (resource = .ports ∨ resource = .processPorts ∨ resource = .controlsBuf)
      (allocated.ledger resource) := by
    cases resource <;> simp [Account.Given, allocated]
  have rest := @createPortsFrom_given env { allocated with numPorts := env.ports.length } 0 env.ports List.drop_zero
    resource other
  refine (begun.trans rest ?_).congr ?_
  · rintro ⟨rfl | rfl | rfl, sets⟩ <;> exact sets
  · cases resource <;> simp [PortSets, Resource.stage, Sets]

theorem createControlsFrom_given {number : Nat} {records : List Bool} {resource : Resource}
    (other : resource ≠ .controls) :
    (life.ledger resource).Given
      (∃ record, resource = .propertyControl record ∧ number ≤ record ∧ record < number + records.length)
      ((createControlsFrom env number records life).ledger resource) := by
  induction records generalizing number life with
  | nil => exact .not (by rintro ⟨record, _, above, below⟩; simp at below; omega)
  | cons known rest ih =>
    have begun : (life.ledger resource).Given (resource = .propertyControl number)
        ((life.newControl env (.propertyControl number) known).ledger resource) := by
      rw [newControl_ledger other]
      split
      · next same => exact .of same
      · next differ => exact .not differ
    refine (begun.trans ih ?_).congr ?_
    · rintro ⟨same, record, again, above, _⟩
      rw [same] at again
      cases again
      omega
    · rw [List.length_cons]
      constructor
      · rintro (same | ⟨record, same, above, below⟩)
        · exact ⟨number, same, by omega, by omega⟩
        · exact ⟨record, same, by omega, by omega⟩
      · rintro ⟨record, same, above, below⟩
        rcases Nat.eq_or_lt_of_le above with here | after
        · exact .inl (by rw [same, here])
        · exact .inr ⟨record, same, after, by omega⟩

theorem createControlsFrom_frame (number : Nat) (records : List Bool) :
    ∃ ledger controls, createControlsFrom env number records life = { life with ledger, controls } := by
  induction records generalizing number life with
  | nil => exact ⟨_, _, rfl⟩
  | cons known rest ih =>
    obtain ⟨ledger, controls, same⟩ := @newControl_frame env life (.propertyControl number) known
    rw [createControlsFrom, same]
    exact ih (number + 1)

theorem Stored.createControlsFrom {number : Nat} {records : List Bool} (stored : Stored env life)
    (known : ∀ index (inside : index < records.length),
      (env.writable ++ env.readable)[number + index]? = some records[index])
    (fresh : ∀ record, number ≤ record → (life.ledger (.propertyControl record)).pointer = none) :
    Stored env (createControlsFrom env number records life) := by
  induction records generalizing number life with
  | nil => exact stored
  | cons record rest ih =>
    have keeps : env.Keeps (.propertyControl number) ↔ record ∧ env.room (.propertyControl number) := by
      have here := known 0 (Nat.zero_lt_succ _)
      rw [Nat.add_zero, List.getElem_cons_zero] at here
      simp [Environment.Keeps, here, and_comm]
    refine ih (stored.newControl trivial (fresh number le_rfl) keeps) (fun index inside => ?_) fun later above => ?_
    · have next := known (index + 1) (Nat.succ_lt_succ inside)
      rw [List.getElem_cons_succ] at next
      rw [← next]
      congr 1
      omega
    · have other : Resource.propertyControl later ≠ .controls := nofun
      have differ : Resource.propertyControl later ≠ .propertyControl number := by
        rintro ⟨⟩
        omega
      rw [newControl_ledger other, if_neg differ]
      exact fresh later (by omega)

theorem jalvCreatePorts_frame : ∃ ledger controls, (life.jalvCreatePorts env).2 =
    { life with ledger, controls, numPorts := env.ports.length } := by
  have loop := @createPortsFrom_frame env { ((life.acquire .ports).acquire .processPorts).acquire .controlsBuf with
    numPorts := env.ports.length } 0 env.ports
  obtain ⟨ledger, controls, same⟩ := loop
  exact ⟨ledger, controls, same⟩

theorem Stored.jalvCreatePorts (stored : Stored env life)
    (fresh : ∀ port, (life.ledger (.portControl port)).pointer = none) : Stored env (life.jalvCreatePorts env).2 := by
  have allocated : Stored env { ((life.acquire .ports).acquire .processPorts).acquire .controlsBuf with
      numPorts := env.ports.length } :=
    stored.congr rfl rfl fun resource control => by cases resource <;> first | rfl | exact control.elim
  exact allocated.createPortsFrom fun port _ => fresh port

theorem jalvCreateControls_frame : ∃ ledger controls,
    (life.jalvCreateControls env true).jalvCreateControls env false = { life with ledger, controls } := by
  obtain ⟨_, _, first⟩ := @createControlsFrom_frame env life 0 env.writable
  obtain ⟨ledger, controls, second⟩ :=
    @createControlsFrom_frame env (life.jalvCreateControls env true) env.writable.length env.readable
  have writable : life.jalvCreateControls env true = createControlsFrom env 0 env.writable life := rfl
  refine ⟨ledger, controls, second.trans ?_⟩
  rw [writable, first]

theorem Stored.jalvCreateControls (stored : Stored env life)
    (fresh : ∀ record, (life.ledger (.propertyControl record)).pointer = none) :
    Stored env ((life.jalvCreateControls env true).jalvCreateControls env false) := by
  have writable : Stored env (life.jalvCreateControls env true) := by
    refine stored.createControlsFrom (fun index inside => ?_) fun record _ => fresh record
    rw [Nat.zero_add, List.getElem?_append_left inside, List.getElem?_eq_getElem inside]
  refine writable.createControlsFrom (fun index inside => ?_) fun record above => ?_
  · rw [List.getElem?_append_right (by omega), Nat.add_sub_cancel_left, List.getElem?_eq_getElem inside]
  · have other : Resource.propertyControl record ≠ .controls := nofun
    have kept := (@createControlsFrom_given env life 0 env.writable _ other).2 (by
      rintro ⟨_, ⟨⟩, _, below⟩
      omega)
    have same : (life.jalvCreateControls env true).ledger (.propertyControl record) =
        life.ledger (.propertyControl record) := kept
    rw [same]
    exact fresh record

theorem jalvCreateControls_stage {resource : Resource} (other : resource ≠ .controls) :
    (life.ledger resource).Given (resource.stage = 6 ∧ start.Sets env resource)
      (((life.jalvCreateControls env true).jalvCreateControls env false).ledger resource) := by
  have first := @createControlsFrom_given env life 0 env.writable resource other
  have second := @createControlsFrom_given env (life.jalvCreateControls env true) env.writable.length env.readable
    resource other
  refine (first.trans second ?_).congr ?_
  · rintro ⟨⟨record, rfl, _, below⟩, _, ⟨⟩, above, _⟩
    omega
  · constructor
    · rintro (⟨record, rfl, above, below⟩ | ⟨record, rfl, above, below⟩)
      · exact ⟨rfl, show record < _ by omega⟩
      · exact ⟨rfl, show record < _ by omega⟩
    · rintro ⟨stage, sets⟩
      cases resource with
      | propertyControl record =>
        have bound : record < env.writable.length + env.readable.length := sets
        rcases Nat.lt_or_ge record env.writable.length with inside | behind
        · exact .inl ⟨record, rfl, Nat.zero_le _, by omega⟩
        · exact .inr ⟨record, rfl, behind, bound⟩
      | _ => cases stage

end

end Life

end Jalv
