import Mathlib.Algebra.Order.Ring.Nat
import Mathlib.Data.List.Basic

/-! Replacing one element of a list, the maximum over a part of a list, and changing
all elements of a list with a state that is passed along. -/

set_option autoImplicit false

namespace Foundation

variable {α β : Type}

theorem map_set_of_same (image : α → β) {list : List α} {index : Nat} {old new : α}
    (found : list[index]? = some old) (same : image new = image old) :
    (list.set index new).map image = list.map image := by
  obtain ⟨inside, here⟩ := List.getElem?_eq_some_iff.mp found
  have bound : index < (list.map image).length := by simpa using inside
  have mapped : image old = (list.map image)[index] := by rw [List.getElem_map, here]
  rw [List.map_set, same, mapped, List.set_getElem_self]

theorem foldl_max_le_iff (select : α → Prop) [DecidablePred select] (size : α → Nat) (list : List α)
    (least bound : Nat) :
    list.foldl (fun most item => if select item then max most (size item) else most) least ≤ bound ↔
      least ≤ bound ∧ ∀ item ∈ list, select item → size item ≤ bound := by
  induction list generalizing least with
  | nil => simp
  | cons item rest ih =>
    rw [List.foldl_cons, ih]
    by_cases selected : select item
    · rw [if_pos selected]
      simp only [Nat.max_le, List.forall_mem_cons, selected, true_implies, and_assoc]
    · rw [if_neg selected]
      simp only [List.forall_mem_cons, selected, false_implies, true_and]

theorem forall_mem_concat {holds : α → Prop} {list : List α} {last : α} (all : ∀ element ∈ list, holds element)
    (here : holds last) : ∀ element ∈ list ++ [last], holds element :=
  List.forall_mem_append.mpr ⟨all, List.forall_mem_singleton.mpr here⟩

theorem foldl_snoc (list start : List α) : list.foldl (fun all item => all ++ [item]) start = start ++ list := by
  rw [List.foldl_append_eq_append, ← List.flatMap_def, List.flatMap_singleton']

theorem map_some_filterMap {change : α → Option β} {list : List α}
    (all : ∀ item ∈ list, ∃ changed, change item = some changed) :
    (list.filterMap change).map some = list.map change := by
  induction list with
  | nil => rfl
  | cons item rest ih =>
    obtain ⟨⟨changed, here⟩, behind⟩ := List.forall_mem_cons.mp all
    rw [List.filterMap_cons_some here, List.map_cons, List.map_cons, here, ih behind]

theorem mapM_getElem? {change : α → Option β} {list : List α} {next : List β} (done : list.mapM change = some next)
    {index : Nat} {changed : β} (found : next[index]? = some changed) :
    ∃ item, list[index]? = some item ∧ change item = some changed := by
  induction list generalizing next index with
  | nil =>
    cases done
    cases found
  | cons head rest ih =>
    rw [List.mapM_cons] at done
    obtain ⟨first, here, more⟩ := Option.bind_eq_some_iff.mp done
    obtain ⟨others, behind, same⟩ := Option.bind_eq_some_iff.mp more
    cases same
    cases index with
    | zero =>
      cases found
      exact ⟨head, rfl, here⟩
    | succ index => exact ih behind found

theorem mapM_map {γ : Type} {change : α → Option α} (image : α → γ)
    (keeps : ∀ item changed, change item = some changed → image changed = image item)
    {list next : List α} (done : list.mapM change = some next) : next.map image = list.map image := by
  induction list generalizing next with
  | nil =>
    cases done
    rfl
  | cons head rest ih =>
    rw [List.mapM_cons] at done
    obtain ⟨first, here, more⟩ := Option.bind_eq_some_iff.mp done
    obtain ⟨others, behind, same⟩ := Option.bind_eq_some_iff.mp more
    cases same
    rw [List.map_cons, List.map_cons, ih behind, keeps _ _ here]

/-- Change the elements of a list one after the other, from an index on. -/
def changeFrom {σ : Type} (change : Nat → α → σ → Option (α × σ)) : Nat → List α → σ → Option (List α × σ)
  | _, [], state => some ([], state)
  | index, item :: rest, state => do
    let (item, state) ← change index item state
    let (rest, state) ← changeFrom change (index + 1) rest state
    return (item :: rest, state)

section

variable {σ : Type} {change : Nat → α → σ → Option (α × σ)} {start : Nat} {list next : List α} {state final : σ}

theorem changeFrom_cons {item : α} (done : changeFrom change start (item :: list) state = some (next, final)) :
    ∃ changed middle others, change start item state = some (changed, middle) ∧
      changeFrom change (start + 1) list middle = some (others, final) ∧ next = changed :: others := by
  obtain ⟨⟨changed, middle⟩, first, rest⟩ := Option.bind_eq_some_iff.mp done
  obtain ⟨⟨others, last⟩, second, same⟩ := Option.bind_eq_some_iff.mp rest
  cases same
  exact ⟨changed, middle, others, first, second, rfl⟩

theorem changeFrom_getElem? (done : changeFrom change start list state = some (next, final)) {index : Nat}
    {changed : α} (found : next[index]? = some changed) :
    ∃ item before after, list[index]? = some item ∧ change (start + index) item before = some (changed, after) := by
  induction list generalizing start state next index with
  | nil =>
    cases done
    cases found
  | cons head rest ih =>
    obtain ⟨first, middle, others, begins, second, rfl⟩ := changeFrom_cons done
    cases index with
    | zero =>
      cases found
      exact ⟨head, state, middle, rfl, begins⟩
    | succ index =>
      obtain ⟨item, before, after, here, changes⟩ := ih second found
      refine ⟨item, before, after, here, ?_⟩
      rw [← changes]
      congr 1
      omega

theorem changeFrom_map (image : α → β)
    (keeps : ∀ index item changed before after, change index item before = some (changed, after) →
      image changed = image item)
    (done : changeFrom change start list state = some (next, final)) : next.map image = list.map image := by
  induction list generalizing start state next with
  | nil =>
    cases done
    rfl
  | cons head rest ih =>
    obtain ⟨changed, middle, others, first, second, rfl⟩ := changeFrom_cons done
    rw [List.map_cons, List.map_cons, ih second, keeps _ _ _ _ _ first]

theorem changeFrom_state {holds : σ → Prop}
    (preserved : ∀ index item changed before after, item ∈ list → holds before →
      change index item before = some (changed, after) → holds after)
    (done : changeFrom change start list state = some (next, final)) (begins : holds state) : holds final := by
  induction list generalizing start state next with
  | nil =>
    cases done
    exact begins
  | cons head rest ih =>
    obtain ⟨changed, middle, others, first, second, rfl⟩ := changeFrom_cons done
    exact ih (fun index item changed before after member => preserved index item changed before after (.tail _ member))
      second (preserved _ _ _ _ _ List.mem_cons_self begins first)

/-- Each change may depend on the place of its element in the list. -/
theorem changeFrom_state_at {holds : σ → Prop}
    (preserved : ∀ index item changed before after, list[index]? = some item → holds before →
      change (start + index) item before = some (changed, after) → holds after)
    (done : changeFrom change start list state = some (next, final)) (begins : holds state) : holds final := by
  induction list generalizing start state next with
  | nil =>
    cases done
    exact begins
  | cons head rest ih =>
    obtain ⟨changed, middle, others, first, second, rfl⟩ := changeFrom_cons done
    refine ih (fun index item changed before after found now changes => ?_) second
      (preserved 0 head changed state middle rfl begins first)
    rw [Nat.add_right_comm, Nat.add_assoc] at changes
    exact preserved (index + 1) item changed before after found now changes

/-- If each change only writes to one part of the state, so do all of them together. -/
theorem changeFrom_writes {ρ μ : Type} (set : ρ → σ → σ) (write : ρ → μ → ρ)
    (each : ∀ index item before changed after, change index item before = some (changed, after) →
      ∃ messages : List μ, ∀ part,
        change index item (set part before) = some (changed, set (messages.foldl write part) after))
    (done : changeFrom change start list state = some (next, final)) :
    ∃ messages : List μ, ∀ part,
      changeFrom change start list (set part state) = some (next, set (messages.foldl write part) final) := by
  induction list generalizing start state next with
  | nil =>
    cases done
    exact ⟨[], fun _ => rfl⟩
  | cons item rest ih =>
    obtain ⟨changed, middle, others, first, second, rfl⟩ := changeFrom_cons done
    obtain ⟨here, writes⟩ := each start item state changed middle first
    obtain ⟨behind, continues⟩ := ih second
    refine ⟨here ++ behind, fun part => ?_⟩
    rw [changeFrom, writes, List.foldl_append]
    change (changeFrom change (start + 1) rest (set (here.foldl write part) middle)).bind _ = _
    rw [continues]
    rfl

theorem changeFrom_isSome {holds : σ → Prop}
    (defined : ∀ index item before, list[index]? = some item → holds before →
      ∃ changed after, change (start + index) item before = some (changed, after) ∧ holds after)
    (begins : holds state) : ∃ next final, changeFrom change start list state = some (next, final) := by
  induction list generalizing start state with
  | nil => exact ⟨[], state, rfl⟩
  | cons head rest ih =>
    obtain ⟨changed, middle, first, kept⟩ := defined 0 head state rfl begins
    have others (index : Nat) (item : α) (before : σ) (found : rest[index]? = some item) (now : holds before) :
        ∃ changed after, change (start + 1 + index) item before = some (changed, after) ∧ holds after := by
      have later := defined (index + 1) item before found now
      rwa [← Nat.add_assoc, Nat.add_right_comm] at later
    obtain ⟨next, final, second⟩ := ih others kept
    refine ⟨changed :: next, final, ?_⟩
    rw [Nat.add_zero] at first
    rw [changeFrom, first]
    simp only [Option.bind_eq_bind, Option.bind_some, second, Option.pure_def]

def collectFrom {ε : Type} (trace : Nat → α → Option (List ε)) : Nat → List α → Option (List ε)
  | _, [] => some []
  | index, item :: rest => do
    let first ← trace index item
    let others ← collectFrom trace (index + 1) rest
    return first ++ others

theorem collectFrom_eq_none_iff {ε : Type} {trace : Nat → α → Option (List ε)} :
    collectFrom trace start list = none ↔
      ∃ index item, list[index]? = some item ∧ trace (start + index) item = none := by
  induction list generalizing start with
  | nil => simp [collectFrom]
  | cons item rest ih =>
    simp only [collectFrom, Option.bind_eq_bind, Option.pure_def]
    constructor
    · intro missing
      cases first : trace start item with
      | none => exact ⟨0, item, rfl, first⟩
      | some traced =>
        rw [first, Option.bind_some, Option.bind_eq_none_iff] at missing
        have others : collectFrom trace (start + 1) rest = none := by
          by_contra defined
          obtain ⟨collected, found⟩ := Option.ne_none_iff_exists'.mp defined
          cases missing collected found
        obtain ⟨index, other, found, fails⟩ := ih.mp others
        exact ⟨index + 1, other, found, by rwa [Nat.add_comm index, ← Nat.add_assoc]⟩
    · rintro ⟨index, other, found, fails⟩
      cases index with
      | zero =>
        cases found
        rw [show trace start item = none from fails, Option.bind_none]
      | succ index =>
        have others : collectFrom trace (start + 1) rest = none :=
          ih.mpr ⟨index, other, found, by rwa [Nat.add_comm index, ← Nat.add_assoc] at fails⟩
        rw [others]
        cases trace start item <;> rfl

theorem collectFrom_eq_flatten {ε : Type} {trace : Nat → α → Option (List ε)} (total : Nat → α → List ε)
    {collected : List ε}
    (each : ∀ index item traced, list[index]? = some item → trace (start + index) item = some traced →
      traced = total (start + index) item)
    (done : collectFrom trace start list = some collected) :
    collected = (list.mapIdx fun index item => total (start + index) item).flatten := by
  induction list generalizing start collected with
  | nil =>
    cases done
    rfl
  | cons item rest ih =>
    obtain ⟨first, here, more⟩ := Option.bind_eq_some_iff.mp done
    obtain ⟨others, behind, same⟩ := Option.bind_eq_some_iff.mp more
    cases same
    have tail := ih (fun index item traced found given => by
      rw [Nat.add_assoc, Nat.add_comm 1] at given ⊢
      exact each (index + 1) item traced found given) behind
    rw [List.mapIdx_cons, List.flatten_cons, ← each 0 item first rfl here, tail]
    simp only [Nat.add_assoc, Nat.add_comm 1]

theorem mem_collectFrom {ε : Type} {trace : Nat → α → Option (List ε)} {collected : List ε} {element : ε}
    (done : collectFrom trace start list = some collected) (member : element ∈ collected) :
    ∃ index item traced, list[index]? = some item ∧ trace (start + index) item = some traced ∧ element ∈ traced := by
  induction list generalizing start collected with
  | nil =>
    cases done
    cases member
  | cons item rest ih =>
    obtain ⟨first, here, more⟩ := Option.bind_eq_some_iff.mp done
    obtain ⟨others, behind, same⟩ := Option.bind_eq_some_iff.mp more
    cases same
    rcases List.mem_append.mp member with own | later
    · exact ⟨0, item, first, rfl, here, own⟩
    · obtain ⟨index, other, traced, found, traces, among⟩ := ih behind later
      rw [Nat.add_assoc, Nat.add_comm 1] at traces
      exact ⟨index + 1, other, traced, found, traces, among⟩

theorem collectFrom_congr {ε : Type} {trace other : Nat → α → Option (List ε)}
    (same : ∀ index item, list[index]? = some item → trace (start + index) item = other (start + index) item) :
    collectFrom trace start list = collectFrom other start list := by
  induction list generalizing start with
  | nil => rfl
  | cons item rest ih =>
    have first := same 0 item rfl
    have others := @ih (start + 1) fun index item found => by
      rw [Nat.add_assoc, Nat.add_comm 1]
      exact same (index + 1) item found
    rw [Nat.add_zero] at first
    rw [collectFrom, collectFrom, first, others]

-- The weight of what is collected, if the weight of each contribution is known to be more than
-- that of another one by so much.
theorem collectFrom_weight {ε : Type} {trace less : Nat → α → Option (List ε)} {weight : List ε → Nat} {extra : α → Nat}
    (empty : weight [] = 0) (append : ∀ first second, weight (first ++ second) = weight first + weight second)
    (more : ∀ index item, list[index]? = some item →
      (trace (start + index) item).map weight = (less (start + index) item).map (weight · + extra item)) :
    (collectFrom trace start list).map weight =
      (collectFrom less start list).map (weight · + (list.map extra).sum) := by
  induction list generalizing start with
  | nil => simp [collectFrom, empty]
  | cons item rest ih =>
    have first := more 0 item rfl
    have others := @ih (start + 1) fun index item found => by
      rw [Nat.add_assoc, Nat.add_comm 1]
      exact more (index + 1) item found
    rw [Nat.add_zero] at first
    have split : (collectFrom trace start (item :: rest)).map weight = ((trace start item).map weight).bind fun first =>
        ((collectFrom trace (start + 1) rest).map weight).map (first + ·) := by
      simp only [collectFrom, Option.bind_eq_bind, Option.pure_def]
      cases trace start item with
      | none => rfl
      | some first => cases collectFrom trace (start + 1) rest <;> simp [append]
    rw [split, first, others]
    simp only [collectFrom, Option.bind_eq_bind, Option.pure_def, List.map_cons, List.sum_cons]
    cases less start item with
    | none => rfl
    | some items =>
      cases collectFrom less (start + 1) rest with
      | none => rfl
      | some collected =>
        simp only [Option.map_some, Option.bind_some, append, Option.some.injEq]
        omega

/-- If each change acts on a view of the state as the contribution of its element says, then
changing the list acts on it as all contributions say. -/
theorem changeFrom_collectFrom {ε γ : Type} {trace : Nat → α → Option (List ε)} {act : γ → ε → γ} (view : σ → γ)
    (acts : ∀ index item before, (change index item before).map (view ·.2) =
      (trace index item).map (·.foldl act (view before))) :
    (changeFrom change start list state).map (view ·.2) =
      (collectFrom trace start list).map (·.foldl act (view state)) := by
  induction list generalizing start state with
  | nil => rfl
  | cons item rest ih =>
    have first := acts start item state
    simp only [changeFrom, collectFrom, Option.bind_eq_bind, Option.pure_def]
    cases changed : change start item state with
    | none =>
      rw [changed, Option.map_none] at first
      rw [Option.map_eq_none_iff.mp first.symm]
      rfl
    | some result =>
      rw [changed, Option.map_some] at first
      obtain ⟨traced, found, same⟩ := Option.map_eq_some_iff.mp first.symm
      have others := @ih (start + 1) result.2
      rw [found]
      simp only [Option.bind_some]
      cases behind : changeFrom change (start + 1) rest result.2 with
      | none =>
        rw [behind, Option.map_none] at others
        rw [Option.map_eq_none_iff.mp others.symm]
        rfl
      | some final =>
        rw [behind, Option.map_some] at others
        obtain ⟨collected, gathered, ends⟩ := Option.map_eq_some_iff.mp others.symm
        rw [gathered]
        simp only [Option.bind_some, Option.map_some, List.foldl_append, same, ends]

/-- What the turns of a loop do to a part of the state. -/
theorem changeFrom_trace {ε γ : Type} (total : Nat → α → List ε) {act : γ → ε → γ} (view : σ → γ)
    (acts : ∀ index item changed before after, change index item before = some (changed, after) →
      view after = (total index item).foldl act (view before))
    (done : changeFrom change start list state = some (next, final)) :
    view final = ((list.mapIdx fun index item => total (start + index) item).flatten).foldl act (view state) := by
  induction list generalizing start state next with
  | nil =>
    cases done
    rfl
  | cons item rest ih =>
    obtain ⟨changed, middle, others, first, behind, rfl⟩ := changeFrom_cons done
    rw [List.mapIdx_cons, List.flatten_cons, List.foldl_append, ih behind, acts _ _ _ _ _ first]
    simp only [Nat.add_right_comm, Nat.add_assoc, Nat.add_zero]

end

-- What no turn of a loop changes.
theorem foldl_view {σ ι : Type} {body : σ → ι → σ} {view : σ → α}
    (keeps : ∀ state index, view (body state index) = view state) (list : List ι) (state : σ) :
    view (list.foldl body state) = view state := by
  induction list generalizing state with
  | nil => rfl
  | cons head rest ih => rw [List.foldl_cons, ih, keeps]

-- What only the turn of one index changes.
theorem foldl_range_view {σ : Type} {body : σ → Nat → σ} {view : σ → α} {change : α → α} {index : Nat}
    (own : ∀ state, view (body state index) = change (view state))
    (others : ∀ state other, other ≠ index → view (body state other) = view state) (count : Nat) (state : σ) :
    view ((List.range count).foldl body state) = if index < count then change (view state) else view state := by
  induction count with
  | zero => rfl
  | succ count ih =>
    rw [List.range_succ, List.foldl_append, List.foldl_cons, List.foldl_nil]
    rcases Nat.lt_trichotomy index count with before | rfl | behind
    · rw [others _ _ (by omega), ih, if_pos before, if_pos (by omega)]
    · rw [own, ih, if_neg (Nat.lt_irrefl _), if_pos (Nat.lt_succ_self _)]
    · rw [others _ _ (by omega), ih, if_neg (by omega), if_neg (by omega)]

/-- A list of images in another order comes from the list in another order. -/
theorem exists_map_of_perm {f : α → β} {list : List α} {order : List β} (perm : order.Perm (list.map f)) :
    ∃ other : List α, other.Perm list ∧ order = other.map f := by
  generalize same : list.map f = images at perm
  induction perm generalizing list with
  | nil =>
    cases List.map_eq_nil_iff.mp same
    exact ⟨[], .nil, rfl⟩
  | cons image _ ih =>
    obtain ⟨head, rest, rfl, rfl, behind⟩ := List.map_eq_cons_iff.mp same
    obtain ⟨other, perm, rfl⟩ := ih behind
    exact ⟨head :: other, perm.cons head, rfl⟩
  | swap first second _ =>
    obtain ⟨head, rest, rfl, rfl, behind⟩ := List.map_eq_cons_iff.mp same
    obtain ⟨next, others, rfl, rfl, last⟩ := List.map_eq_cons_iff.mp behind
    exact ⟨next :: head :: others, .swap head next others, by rw [List.map_cons, List.map_cons, last]⟩
  | trans _ _ first second =>
    obtain ⟨middle, perm, rfl⟩ := second same
    obtain ⟨other, before, rfl⟩ := first rfl
    exact ⟨other, before.trans perm, rfl⟩

theorem mapM_of_map {change : α → Option β} {list : List α} {next : List β}
    (images : list.map change = next.map some) : list.mapM change = some next := by
  induction list generalizing next with
  | nil =>
    rw [List.map_nil, eq_comm, List.map_eq_nil_iff] at images
    rw [images]
    rfl
  | cons item rest ih =>
    obtain ⟨image, others, rfl, first, behind⟩ := List.map_eq_cons_iff.mp images.symm
    rw [List.mapM_cons, ← first, ih behind.symm]
    rfl

theorem of_drop_eq_cons {list rest : List α} {index : Nat} {item : α} (here : list.drop index = item :: rest) :
    list[index]? = some item ∧ list.drop (index + 1) = rest := by
  constructor
  · rw [← List.head?_drop, here, List.head?_cons]
  · rw [← List.tail_drop, here, List.tail_cons]

/-- A loop of fallible steps keeps an invariant that names the elements it has passed. -/
theorem foldlM_invariant {σ ι : Type} {turn : σ → ι → Option σ} (holds : List ι → σ → Prop) {list : List ι} {start : σ}
    (begins : holds [] start)
    (step : ∀ (done : List ι) (item : ι) (rest : List ι) (state : σ), list = done ++ item :: rest → holds done state →
      ∃ next, turn state item = some next ∧ holds (done ++ [item]) next) :
    ∃ final, list.foldlM turn start = some final ∧ holds list final := by
  have suffix (rest : List ι) : ∀ (done : List ι) (state : σ), list = done ++ rest → holds done state →
      ∃ final, rest.foldlM turn state = some final ∧ holds list final := by
    induction rest with
    | nil =>
      intro done state whole here
      rw [List.append_nil] at whole
      exact ⟨state, rfl, whole ▸ here⟩
    | cons item rest ih =>
      intro done state whole here
      obtain ⟨next, turned, after⟩ := step done item rest state whole here
      obtain ⟨final, others, last⟩ := ih (done ++ [item]) next (by rw [whole, List.append_assoc]; rfl) after
      refine ⟨final, ?_, last⟩
      rw [List.foldlM_cons, turned]
      exact others
  exact suffix list [] start rfl begins

theorem find?_key {key : α → β} [DecidableEq β] {list : List α} (distinct : (list.map key).Nodup) {item : α}
    (member : item ∈ list) : list.find? (fun other => key other = key item) = some item := by
  induction list with
  | nil => cases member
  | cons head rest ih =>
    rw [List.map_cons, List.nodup_cons] at distinct
    rcases List.mem_cons.mp member with rfl | behind
    · simp
    · have other : key head ≠ key item := fun same => distinct.1 (same ▸ List.mem_map_of_mem behind)
      rw [List.find?_cons_of_neg (by simpa using other), ih distinct.2 behind]

section

variable {γ : Type} {position : γ → Nat} {value : γ → α}

theorem length_foldl_set (writes : List γ) (list : List α) :
    (writes.foldl (fun list write => list.set (position write) (value write)) list).length = list.length := by
  induction writes generalizing list with
  | nil => rfl
  | cons write rest ih => rw [List.foldl_cons, ih, List.length_set]

theorem getElem?_foldl_set_of_not_mem {writes : List γ} {list : List α} {index : Nat}
    (other : index ∉ writes.map position) :
    (writes.foldl (fun list write => list.set (position write) (value write)) list)[index]? = list[index]? := by
  induction writes generalizing list with
  | nil => rfl
  | cons write rest ih =>
    rw [List.map_cons, List.mem_cons, not_or] at other
    rw [List.foldl_cons, ih other.2, List.getElem?_set_ne (Ne.symm other.1)]

/-- After writes to different positions, each of them reads back, in whatever order they were made. -/
theorem getElem?_foldl_set_of_mem {writes : List γ} {list : List α} (distinct : (writes.map position).Nodup) {write : γ}
    (member : write ∈ writes) (inside : position write < list.length) :
    (writes.foldl (fun list write => list.set (position write) (value write)) list)[position write]? =
      some (value write) := by
  induction writes generalizing list with
  | nil => cases member
  | cons first rest ih =>
    rw [List.map_cons, List.nodup_cons] at distinct
    rcases List.mem_cons.mp member with rfl | behind
    · rw [List.foldl_cons, getElem?_foldl_set_of_not_mem distinct.1, List.getElem?_set_self inside]
    · rw [List.foldl_cons, ih distinct.2 behind (by rw [List.length_set]; exact inside)]

end

end Foundation
