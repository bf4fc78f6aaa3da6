import Jalv.Foundation.Lists

/-! A copy of values that follows a log of entries.

The entries are written to a log and to a queue, and taken from the queue to the copy.
What the copy will be behind the queue depends on the log alone, key by key.
-/

set_option autoImplicit false

namespace Foundation

variable {κ α : Type} [DecidableEq κ]

/-- The value of a key after some entries, the last of which counts. -/
def assigned (entries : List (κ × α)) (key : κ) (before : Option α) : Option α :=
  entries.foldl (fun value entry => if entry.1 = key then some entry.2 else value) before

theorem assigned_append (first second : List (κ × α)) (key : κ) (before : Option α) :
    assigned (first ++ second) key before = assigned second key (assigned first key before) :=
  List.foldl_append

theorem assigned_of_not_mem {entries : List (κ × α)} {key : κ} (other : key ∉ entries.map Prod.fst)
    (before : Option α) : assigned entries key before = before := by
  induction entries generalizing before with
  | nil => rfl
  | cons entry rest ih =>
    rw [List.map_cons, List.mem_cons, not_or] at other
    rw [assigned, List.foldl_cons, if_neg (Ne.symm other.1)]
    exact ih other.2 before

theorem assigned_last (earlier : List (κ × α)) {later : List (κ × α)} {key : κ} (other : key ∉ later.map Prod.fst)
    (value : α) (before : Option α) : assigned (earlier ++ (key, value) :: later) key before = some value := by
  rw [assigned_append, assigned, List.foldl_cons, if_pos rfl]
  exact assigned_of_not_mem other _

theorem assigned_eq_some {entries : List (κ × α)} {key : κ} {value : α} {before : Option α}
    (last : assigned entries key before = some value) : (key, value) ∈ entries ∨ before = some value := by
  induction entries generalizing before with
  | nil => exact Or.inr last
  | cons entry rest ih =>
    rcases ih last with later | here
    · exact Or.inl (List.mem_cons_of_mem _ later)
    · dsimp only at here
      split at here
      · next same =>
        rw [Option.some.injEq] at here
        rw [← same, ← here]
        exact Or.inl List.mem_cons_self
      · exact Or.inr here

/-- The copy has a value that becomes the one of the log behind the pending entries. -/
def Follows (log pending : List (κ × α)) (key : κ) (start value : Option α) : Prop :=
  assigned pending key value = assigned log key start

theorem Follows.begin (key : κ) (start : Option α) : Follows ([] : List (κ × α)) [] key start start := rfl

section

variable {log pending : List (κ × α)} {key : κ} {start value : Option α}

theorem Follows.write (follows : Follows log pending key start value) (entries : List (κ × α)) :
    Follows (log ++ entries) (pending ++ entries) key start value := by
  rw [Follows, assigned_append, assigned_append, follows]

theorem Follows.take {taken rest : List (κ × α)} (follows : Follows log (taken ++ rest) key start value) :
    Follows log rest key start (assigned taken key value) := by
  rw [Follows, ← assigned_append, follows]

theorem Follows.takeAll (follows : Follows log pending key start value) :
    Follows log [] key start (assigned pending key value) := follows

/-- With nothing pending for a key, the copy has the value of the log. -/
theorem Follows.settled (follows : Follows log pending key start value) (other : key ∉ pending.map Prod.fst) :
    value = assigned log key start := by
  rw [← follows, assigned_of_not_mem other]

end

/-- The writes of entries to a list change its elements like its positions were keys. -/
theorem getElem?_set_assigned {list : List α} {position : Nat} (inside : position < list.length) (value : α)
    (index : Nat) : (list.set position value)[index]? = assigned [(position, value)] index list[index]? := by
  rw [assigned, List.foldl_cons, List.foldl_nil]
  split
  · next same =>
    subst same
    exact List.getElem?_set_self inside
  · next other => exact List.getElem?_set_ne other

theorem getElem?_foldl_set_assigned {ι : Type} {writes : List ι} {list : List α} (position : ι → Nat) (value : ι → α)
    (inside : ∀ write ∈ writes, position write < list.length) (index : Nat) :
    (writes.foldl (fun list write => list.set (position write) (value write)) list)[index]? =
      assigned (writes.map fun write => (position write, value write)) index list[index]? := by
  induction writes generalizing list with
  | nil => rfl
  | cons write rest ih =>
    obtain ⟨first, others⟩ := List.forall_mem_cons.mp inside
    rw [List.foldl_cons, ih (by simpa using others), getElem?_set_assigned first, ← assigned_append, List.map_cons]
    rfl

/-- If each element of a list contributes entries for its own index alone, then the entries for an index
are those of the element there. -/
theorem collectFrom_assigned {β ε : Type} {trace : Nat → α → Option (List ε)} {entries : ε → List (Nat × β)}
    {start : Nat} {list : List α} {collected : List ε}
    (own : ∀ index item traced, list[index]? = some item → trace (start + index) item = some traced →
      ∀ entry ∈ traced.flatMap entries, entry.1 = start + index)
    (done : collectFrom trace start list = some collected) {index : Nat} {item : α} {traced : List ε}
    (found : list[index]? = some item) (here : trace (start + index) item = some traced) (before : Option β) :
    assigned (collected.flatMap entries) (start + index) before =
      assigned (traced.flatMap entries) (start + index) before := by
  induction list generalizing start collected index before with
  | nil => cases found
  | cons head rest ih =>
    obtain ⟨first, begins, more⟩ := Option.bind_eq_some_iff.mp done
    obtain ⟨others, behind, same⟩ := Option.bind_eq_some_iff.mp more
    cases same
    have later (index : Nat) (item : α) (traced : List ε) (found : rest[index]? = some item)
        (here : trace (start + 1 + index) item = some traced) (entry : Nat × β)
        (member : entry ∈ traced.flatMap entries) : entry.1 = start + 1 + index := by
      rw [Nat.add_right_comm, Nat.add_assoc] at here ⊢
      exact own (index + 1) item traced found here entry member
    rw [List.flatMap_append, assigned_append]
    cases index with
    | zero =>
      cases found
      rw [Nat.add_zero] at here ⊢
      rw [begins, Option.some.injEq] at here
      subst here
      refine assigned_of_not_mem (fun member => ?_) _
      obtain ⟨entry, among, same⟩ := List.mem_map.mp member
      obtain ⟨element, collected, inside⟩ := List.mem_flatMap.mp among
      obtain ⟨index, other, traces, there, given, holds⟩ := mem_collectFrom behind collected
      have place := later index other traces there given entry (List.mem_flatMap.mpr ⟨element, holds, inside⟩)
      omega
    | succ index =>
      have apart : start + (index + 1) ∉ (first.flatMap entries).map Prod.fst := fun member => by
        obtain ⟨entry, among, same⟩ := List.mem_map.mp member
        have place := own 0 head first rfl begins entry among
        omega
      rw [assigned_of_not_mem apart]
      rw [← Nat.add_assoc, Nat.add_right_comm] at here ⊢
      exact ih later behind found here before

end Foundation
