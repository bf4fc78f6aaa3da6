import Jalv.Foundation.Grouping
import Jalv.Interner.Search

/-! The order of the groups of controls in the GTK interface (`gtk/controls.c`).

Two groups are compared by name, and a group and no group by address, of which the
difference is converted to an `int`.
-/

set_option autoImplicit false

namespace Jalv

open Foundation

structure GroupNode where
  name : CString
  address : UInt64
  nonnull : address ≠ 0

structure GroupedControl where
  group : Option GroupNode
  isHidden : Bool

namespace GroupedControl

def groupName (control : GroupedControl) : Option CString := control.group.map GroupNode.name

-- `(intptr_t)control->group`, which is zero without a group
def groupAddress (control : GroupedControl) : UInt64 := (control.group.map GroupNode.address).getD 0

end GroupedControl

def controlGroupCmp (control1 control2 : GroupedControl) : Int :=
  match control1.group, control2.group with
  | some group1, some group2 => strcmp group1.name group2.name
  -- The upper half of the difference is lost
  | _, _ => (control1.groupAddress - control2.groupAddress).toUInt32.toInt32.toInt

/-- The loop of `build_control_widget` over the sorted controls: the groups of the headings that
it adds behind a control of the group `lastGroup`. -/
def groupHeadings (showHidden : Bool) : Option GroupNode → List GroupedControl → List CString
  | _, [] => []
  | lastGroup, record :: rest =>
    if record.isHidden ∧ !showHidden then groupHeadings showHidden lastGroup rest
    else
      match record.group with
      | none => groupHeadings showHidden none rest
      -- Check group and add new heading if necessary
      | some group =>
        if lastGroup.map GroupNode.name = some group.name then groupHeadings showHidden (some group) rest
        else group.name :: groupHeadings showHidden (some group) rest

def GroupedControl.IsShown (showHidden : Bool) (control : GroupedControl) : Prop :=
  control.isHidden = true → showHidden = true

instance (showHidden : Bool) (control : GroupedControl) : Decidable (control.IsShown showHidden) :=
  inferInstanceAs (Decidable (_ → _))

/-- In a list of controls that is sorted, the controls of each group stand together, and each group
with a control that is shown gets one heading. -/
structure HeadsGroups (sorted : List GroupedControl) : Prop where
  grouped : Grouped GroupedControl.groupName sorted
  once (showHidden : Bool) : (groupHeadings showHidden none sorted).Nodup
  heads (showHidden : Bool) (name : CString) : name ∈ groupHeadings showHidden none sorted ↔
    ∃ control ∈ sorted, control.groupName = some name ∧ control.IsShown showHidden

/-- The comparison is a total preorder, in which controls are equal exactly if their groups are, and
whatever order it sorts the controls into, each group is headed once. -/
structure SortsGroups (controls : List GroupedControl) : Prop where
  orders : Preorders controlGroupCmp controls
  equal : ∀ first ∈ controls, ∀ second ∈ controls,
    controlGroupCmp first second = 0 ↔ first.groupName = second.groupName
  heads : ∀ sorted : List GroupedControl, sorted.Perm controls →
    (sorted.Pairwise fun first second => controlGroupCmp first second ≤ 0) → HeadsGroups sorted

def GroupNode.low (group : GroupNode) : UInt32 := group.address.toUInt32

/-- If a control has no group, no lower half of an address is zero or has its first bit set alone, and
the groups whose first bit is set have smaller names than the others. -/
structure GroupsApart (controls : List GroupedControl) : Prop where
  addresses : ∀ single ∈ controls, single.group = none → ∀ control ∈ controls, ∀ group,
    control.group = some group → group.low ≠ 0 ∧ group.low ≠ 0x80000000
  names : ∀ single ∈ controls, single.group = none → ∀ first ∈ controls, ∀ second ∈ controls, ∀ group1 group2,
    first.group = some group1 → second.group = some group2 → 0x80000000 < group1.low → group2.low < 0x80000000 →
      strcmp group1.name group2.name < 0

section

variable {controls : List GroupedControl} {control1 control2 : GroupedControl} {group group1 group2 : GroupNode}

theorem toInt_toInt32 (value : UInt32) :
    value.toInt32.toInt = if value.toNat < 2 ^ 31 then (value.toNat : Int) else value.toNat - 2 ^ 32 := by
  change value.toBitVec.toInt = _
  rw [BitVec.toInt_eq_toNat_cond]
  change (if 2 * value.toNat < 2 ^ 32 then (value.toNat : Int) else value.toNat - (2 ^ 32 : Nat)) = _
  split <;> split <;> omega

theorem controlGroupCmp_groups (has1 : control1.group = some group1) (has2 : control2.group = some group2) :
    controlGroupCmp control1 control2 = strcmp group1.name group2.name := by
  rw [controlGroupCmp, has1, has2]

theorem controlGroupCmp_none (none1 : control1.group = none) (none2 : control2.group = none) :
    controlGroupCmp control1 control2 = 0 := by
  simp [controlGroupCmp, GroupedControl.groupAddress, none1, none2]

/-- The signs of the comparison with a control that has no group. -/
theorem controlGroupCmp_single (has : control1.group = some group) (none : control2.group = none) :
    (controlGroupCmp control1 control2 < 0 ↔ 0x80000000 ≤ group.low) ∧
      (controlGroupCmp control1 control2 = 0 ↔ group.low = 0) ∧
      (controlGroupCmp control2 control1 < 0 ↔ 0 < group.low ∧ group.low ≤ 0x80000000) ∧
      (controlGroupCmp control2 control1 = 0 ↔ group.low = 0) := by
  have difference : controlGroupCmp control1 control2 = group.low.toInt32.toInt := by
    simp [controlGroupCmp, GroupedControl.groupAddress, has, none, GroupNode.low]
  have negated : controlGroupCmp control2 control1 = (0 - group.low).toInt32.toInt := by
    simp [controlGroupCmp, GroupedControl.groupAddress, has, none, GroupNode.low]
  rw [difference, negated, toInt_toInt32, toInt_toInt32]
  simp only [UInt32.le_iff_toNat_le, UInt32.lt_iff_toNat_lt, ← UInt32.toNat_inj, UInt32.toNat_sub, UInt32.reduceToNat]
  have bound := group.low.toNat_lt
  refine ⟨?_, ?_, ?_, ?_⟩ <;> split <;> omega

/-- With such addresses, no group comes behind exactly those groups whose lower half has its first bit set. -/
theorem GroupsApart.single (apart : GroupsApart controls) (in1 : control1 ∈ controls) (in2 : control2 ∈ controls)
    (has : control1.group = some group) (none : control2.group = none) :
    (controlGroupCmp control1 control2 < 0 ↔ 0x80000000 < group.low) ∧
      (0 < controlGroupCmp control1 control2 ↔ group.low < 0x80000000) ∧
      (controlGroupCmp control2 control1 < 0 ↔ group.low < 0x80000000) ∧
      (0 < controlGroupCmp control2 control1 ↔ 0x80000000 < group.low) := by
  obtain ⟨nonzero, other⟩ := apart.addresses control2 in2 none control1 in1 group has
  obtain ⟨less, equal, less', equal'⟩ := controlGroupCmp_single has none
  simp only [UInt32.le_iff_toNat_le, UInt32.lt_iff_toNat_lt, ← UInt32.toNat_inj, ne_eq, UInt32.reduceToNat] at *
  omega

theorem GroupsApart.antisymm (apart : GroupsApart controls) (in1 : control1 ∈ controls) (in2 : control2 ∈ controls) :
    controlGroupCmp control2 control1 < 0 ↔ 0 < controlGroupCmp control1 control2 := by
  cases has1 : control1.group with
  | none =>
    cases has2 : control2.group with
    | none => simp [controlGroupCmp_none has1 has2, controlGroupCmp_none has2 has1]
    | some group2 =>
      obtain ⟨less, _, _, greater⟩ := apart.single in2 in1 has2 has1
      rw [less, greater]
  | some group1 =>
    cases has2 : control2.group with
    | none =>
      obtain ⟨_, greater, less, _⟩ := apart.single in1 in2 has1 has2
      rw [less, greater]
    | some group2 =>
      rw [controlGroupCmp_groups has1 has2, controlGroupCmp_groups has2 has1, strcmp_neg]
      exact (strcmp_pos _ _).symm

theorem GroupsApart.equal (apart : GroupsApart controls) (in1 : control1 ∈ controls) (in2 : control2 ∈ controls) :
    controlGroupCmp control1 control2 = 0 ↔ control1.groupName = control2.groupName := by
  unfold GroupedControl.groupName
  cases has1 : control1.group with
  | none =>
    cases has2 : control2.group with
    | none => simp [controlGroupCmp_none has1 has2]
    | some group2 =>
      have nonzero := (apart.addresses control1 in1 has1 control2 in2 group2 has2).1
      simp [(controlGroupCmp_single has2 has1).2.2.2, nonzero]
  | some group1 =>
    cases has2 : control2.group with
    | none =>
      have nonzero := (apart.addresses control2 in2 has2 control1 in1 group1 has1).1
      simp [(controlGroupCmp_single has1 has2).2.1, nonzero]
    | some group2 => simp [controlGroupCmp_groups has1 has2, strcmp_eq_zero]

/-- Every group is on one side of no group. -/
theorem GroupsApart.side (apart : GroupsApart controls) (in1 : control1 ∈ controls) (in2 : control2 ∈ controls)
    (has : control1.group = some group) (none : control2.group = none) :
    0x80000000 < group.low ∨ group.low < 0x80000000 := by
  obtain ⟨_, other⟩ := apart.addresses control2 in2 none control1 in1 group has
  exact UInt32.lt_or_lt_of_ne (Ne.symm other)

theorem GroupsApart.trans (apart : GroupsApart controls) {control3 : GroupedControl} (in1 : control1 ∈ controls)
    (in2 : control2 ∈ controls) (in3 : control3 ∈ controls) (before : controlGroupCmp control1 control2 ≤ 0)
    (behind : controlGroupCmp control2 control3 ≤ 0) : controlGroupCmp control1 control3 ≤ 0 := by
  by_contra greater
  have greater := Int.not_le.mp greater
  cases has1 : control1.group with
  | none =>
    cases has3 : control3.group with
    | none =>
      rw [controlGroupCmp_none has1 has3] at greater
      exact lt_irrefl 0 greater
    | some group3 =>
      have high3 := (apart.single in3 in1 has3 has1).2.2.2.mp greater
      cases has2 : control2.group with
      | none => exact absurd ((apart.single in3 in2 has3 has2).2.2.2.mpr high3) (Int.not_lt.mpr behind)
      | some group2 =>
        rcases apart.side in2 in1 has2 has1 with high2 | low2
        · exact absurd ((apart.single in2 in1 has2 has1).2.2.2.mpr high2) (Int.not_lt.mpr before)
        · have less := apart.names control1 in1 has1 control3 in3 control2 in2 _ _ has3 has2 high3 low2
          rw [controlGroupCmp_groups has2 has3, strcmp_le_iff, ← not_lt, ← strcmp_neg] at behind
          exact behind less
  | some group1 =>
    cases has3 : control3.group with
    | none =>
      have low1 := (apart.single in1 in3 has1 has3).2.1.mp greater
      cases has2 : control2.group with
      | none => exact absurd ((apart.single in1 in2 has1 has2).2.1.mpr low1) (Int.not_lt.mpr before)
      | some group2 =>
        rcases apart.side in2 in3 has2 has3 with high2 | low2
        · have less := apart.names control3 in3 has3 control2 in2 control1 in1 _ _ has2 has1 high2 low1
          rw [controlGroupCmp_groups has1 has2, strcmp_le_iff, ← not_lt, ← strcmp_neg] at before
          exact before less
        · exact absurd ((apart.single in2 in3 has2 has3).2.1.mpr low2) (Int.not_lt.mpr behind)
    | some group3 =>
      rw [controlGroupCmp_groups has1 has3] at greater
      cases has2 : control2.group with
      | none =>
        rcases apart.side in1 in2 has1 has2 with high1 | low1
        · rcases apart.side in3 in2 has3 has2 with high3 | low3
          · exact absurd ((apart.single in3 in2 has3 has2).2.2.2.mpr high3) (Int.not_lt.mpr behind)
          · have less := apart.names control2 in2 has2 control1 in1 control3 in3 _ _ has1 has3 high1 low3
            exact lt_asymm less greater
        · exact absurd ((apart.single in1 in2 has1 has2).2.1.mpr low1) (Int.not_lt.mpr before)
      | some group2 =>
        rw [controlGroupCmp_groups has1 has2, strcmp_le_iff] at before
        rw [controlGroupCmp_groups has2 has3, strcmp_le_iff] at behind
        rw [gt_iff_lt.symm, strcmp_pos] at greater
        exact absurd (before.trans behind) (not_le.mpr greater)

theorem groupHeadings_eq (showHidden : Bool) (lastGroup : Option GroupNode) (sorted : List GroupedControl) :
    groupHeadings showHidden lastGroup sorted = groupStarts (lastGroup.map GroupNode.name)
      ((sorted.filter fun control => control.IsShown showHidden).map GroupedControl.groupName) := by
  induction sorted generalizing lastGroup with
  | nil => rfl
  | cons record rest ih =>
    rw [groupHeadings]
    by_cases hidden : record.isHidden ∧ !showHidden
    · have unshown : ¬record.IsShown showHidden := by
        simp only [GroupedControl.IsShown, hidden.1]
        simpa using hidden.2
      rw [if_pos hidden, ih, List.filter_cons, if_neg (by simpa using unshown)]
    · have shown : record.IsShown showHidden := by
        simpa [GroupedControl.IsShown] using hidden
      rw [if_neg hidden, List.filter_cons, if_pos (decide_eq_true shown), List.map_cons]
      cases has : record.group with
      | none => simp [GroupedControl.groupName, has, groupStarts, ih]
      | some group => simp [GroupedControl.groupName, has, groupStarts, ih]

theorem headsGroups_of_grouped {sorted : List GroupedControl} (grouped : Grouped GroupedControl.groupName sorted) :
    HeadsGroups sorted := by
  have starts (showHidden : Bool) := @groupStarts_spec CString _ none
    ((sorted.filter fun control => control.IsShown showHidden).map GroupedControl.groupName)
    (grouped.sublist List.filter_sublist).map (fun key no => by cases no)
  refine ⟨grouped, fun showHidden => ?_, fun showHidden name => ?_⟩
  · rw [groupHeadings_eq]
    exact (starts showHidden).1
  · rw [groupHeadings_eq, Option.map_none, (starts showHidden).2, List.mem_map]
    simp only [List.mem_filter, decide_eq_true_eq, ne_eq, reduceCtorEq, not_false_eq_true, and_true]
    constructor
    · rintro ⟨control, ⟨member, shown⟩, same⟩
      exact ⟨control, member, same, shown⟩
    · rintro ⟨control, member, same, shown⟩
      exact ⟨control, ⟨member, shown⟩, same⟩

theorem SortsGroups.addresses (sorts : SortsGroups controls) (in1 : control1 ∈ controls) (in2 : control2 ∈ controls)
    (has : control1.group = some group) (none : control2.group = none) :
    group.low ≠ 0 ∧ group.low ≠ 0x80000000 := by
  obtain ⟨less, equal, less', _⟩ := controlGroupCmp_single has none
  refine ⟨fun zero => ?_, fun first => ?_⟩
  · have same := (sorts.equal control1 in1 control2 in2).mp (equal.mpr zero)
    rw [GroupedControl.groupName, has, GroupedControl.groupName, none] at same
    cases same
  · -- Each of the two comes before the other
    have before := less.mpr (by rw [first]; decide)
    have behind := less'.mpr (by rw [first]; decide)
    have signs := sorts.orders.antisymm control1 in1 control2 in2
    omega

theorem SortsGroups.apart (sorts : SortsGroups controls) : GroupsApart controls where
  addresses _ inSingle none _ member _ has := sorts.addresses member inSingle has none
  names single inSingle none first in1 second in2 group1 group2 has1 has2 high low := by
    have less1 := (controlGroupCmp_single has1 none).1
    obtain ⟨less2, equal2, less2', _⟩ := controlGroupCmp_single has2 none
    have nonzero := (sorts.addresses in2 inSingle has2 none).1
    have before : controlGroupCmp first single < 0 := less1.mpr (UInt32.le_of_lt high)
    have behind : controlGroupCmp single second < 0 :=
      less2'.mpr ⟨UInt32.pos_iff_ne_zero.mpr nonzero, UInt32.le_of_lt low⟩
    have above : 0 < controlGroupCmp second single := by
      have notLess : ¬controlGroupCmp second single < 0 := fun less => UInt32.not_le.mpr low (less2.mp less)
      have notEqual : controlGroupCmp second single ≠ 0 := fun equal => nonzero (equal2.mp equal)
      omega
    have through := sorts.orders.trans first in1 single inSingle second in2 before.le behind.le
    have signs := sorts.orders.antisymm second in2 first in1
    rw [← controlGroupCmp_groups has1 has2]
    by_contra notLess
    -- If the names were the same, the other group would come before the first, and so before no group
    have back := sorts.orders.trans second in2 first in1 single inSingle (by omega) before.le
    omega

/-- The comparison sorts controls by their groups exactly if the addresses are apart from that of no group. -/
theorem sortsGroups_iff (controls : List GroupedControl) : SortsGroups controls ↔ GroupsApart controls := by
  refine ⟨SortsGroups.apart, fun apart => ?_⟩
  have orders : Preorders controlGroupCmp controls :=
    ⟨fun _ in1 _ in2 => apart.antisymm in1 in2, fun _ in1 _ in2 _ in3 => apart.trans in1 in2 in3⟩
  have equal : ∀ first ∈ controls, ∀ second ∈ controls,
      controlGroupCmp first second = 0 ↔ first.groupName = second.groupName :=
    fun _ in1 _ in2 => apart.equal in1 in2
  exact ⟨orders, equal, fun sorted perm order => headsGroups_of_grouped (orders.grouped equal perm order)⟩

end

def groupTestControls : List GroupedControl :=
  [⟨some ⟨⟨[98], by decide⟩, 0x55D080000010, by decide⟩, false⟩,
    ⟨some ⟨⟨[97], by decide⟩, 0x55D000000010, by decide⟩, false⟩, ⟨none, false⟩]

/-- The comparison goes around in a circle, and a group whose address ends with zeros is like none. -/
theorem sortsGroups_refuted :
    ¬SortsGroups groupTestControls ∧
      ¬SortsGroups [⟨some ⟨⟨[97], by decide⟩, 0x55D100000000, by decide⟩, false⟩, ⟨none, false⟩] := by
  refine ⟨fun sorts => ?_, fun sorts => ?_⟩
  · have around := sorts.orders.trans groupTestControls[0] (by simp [groupTestControls]) groupTestControls[2]
      (by simp [groupTestControls]) groupTestControls[1] (by simp [groupTestControls]) (by decide) (by decide)
    revert around
    decide
  · have same := (sorts.equal _ List.mem_cons_self _ (List.mem_cons_of_mem _ List.mem_cons_self)).mp (by decide)
    cases same

end Jalv
