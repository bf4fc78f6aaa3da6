import Mathlib.Data.List.Basic

/-! Lists that are sorted by a comparison with three outcomes, and the groups of elements
that compare equal in them.
-/

set_option autoImplicit false

namespace Foundation

variable {α κ : Type}

/-- On the elements of a list, the signs of the comparison are those of a total preorder. -/
structure Preorders (compare : α → α → Int) (list : List α) : Prop where
  antisymm : ∀ first ∈ list, ∀ second ∈ list, compare second first < 0 ↔ 0 < compare first second
  trans : ∀ first ∈ list, ∀ second ∈ list, ∀ third ∈ list,
    compare first second ≤ 0 → compare second third ≤ 0 → compare first third ≤ 0

def Grouped (key : α → κ) (list : List α) : Prop :=
  ∀ first middle last, [first, middle, last].Sublist list → key first = key last → key middle = key first

/-- The keys that begin a group, for a list that follows an element with the key `last`. Elements
without a key begin none. -/
def groupStarts [DecidableEq κ] : Option κ → List (Option κ) → List κ
  | _, [] => []
  | _, none :: rest => groupStarts none rest
  | last, some key :: rest =>
    if last = some key then groupStarts (some key) rest else key :: groupStarts (some key) rest

section

variable {compare : α → α → Int} {key : α → κ} {list sorted : List α}

theorem Grouped.sublist (grouped : Grouped key list) {part : List α} (sublist : part.Sublist list) :
    Grouped key part :=
  fun first middle last within => grouped first middle last (within.trans sublist)

theorem Grouped.map (grouped : Grouped key list) : Grouped id (list.map key) := by
  intro first middle last within same
  obtain ⟨part, sublist, mapped⟩ := List.sublist_map_iff.mp within
  obtain _ | ⟨a, _ | ⟨b, _ | ⟨c, _ | ⟨d, part⟩⟩⟩⟩ := part <;> cases mapped
  exact grouped a b c sublist same

theorem Grouped.not_between {keys : List κ} {first middle : κ}
    (grouped : Grouped id (first :: middle :: keys)) (other : middle ≠ first) : first ∉ keys := by
  intro again
  have within : [first, middle, first].Sublist (first :: middle :: keys) :=
    .cons_cons _ (.cons_cons _ (List.singleton_sublist.mpr again))
  exact other (grouped first middle first within rfl)

/-- Sorting by a comparison of keys groups them. -/
theorem Preorders.grouped (orders : Preorders compare list)
    (equal : ∀ first ∈ list, ∀ second ∈ list, compare first second = 0 ↔ key first = key second)
    (perm : sorted.Perm list) (order : sorted.Pairwise fun first second => compare first second ≤ 0) :
    Grouped key sorted := by
  intro first middle last within same
  have inside (item : α) (member : item ∈ [first, middle, last]) : item ∈ list :=
    perm.mem_iff.mp (within.subset member)
  have inFirst := inside first List.mem_cons_self
  have inMiddle := inside middle (List.mem_cons_of_mem _ List.mem_cons_self)
  have inLast := inside last (List.mem_cons_of_mem _ (List.mem_cons_of_mem _ List.mem_cons_self))
  have ordered := order.sublist within
  rw [List.pairwise_cons, List.pairwise_cons] at ordered
  have before : compare first middle ≤ 0 := ordered.1 middle List.mem_cons_self
  have behind : compare middle last ≤ 0 := ordered.2.1 last List.mem_cons_self
  have back : compare last first = 0 := (equal last inLast first inFirst).mpr same.symm
  have around := orders.trans middle inMiddle last inLast first inFirst behind (Int.le_of_eq back)
  have signs := orders.antisymm first inFirst middle inMiddle
  exact (equal middle inMiddle first inFirst).mp (by omega)

end

section

variable [DecidableEq κ] {last : Option κ} {keys : List (Option κ)}

/-- Where the keys stand together, each of them begins one group, unless it continues the last one. -/
theorem groupStarts_spec (grouped : Grouped id keys)
    (continues : ∀ key, last = some key → Grouped id (some key :: keys)) :
    (groupStarts last keys).Nodup ∧ ∀ key, key ∈ groupStarts last keys ↔ some key ∈ keys ∧ last ≠ some key := by
  induction keys generalizing last with
  | nil => simp [groupStarts]
  | cons head rest ih =>
    have behind : Grouped id rest := grouped.sublist (List.sublist_cons_self _ _)
    -- A group that has ended does not begin again
    have ended (key : κ) (began : last = some key) (other : head ≠ some key) : some key ∉ rest :=
      (continues key began).not_between other
    cases head with
    | none =>
      obtain ⟨nodup, starts⟩ := @ih none behind (fun key no => by cases no)
      refine ⟨nodup, fun key => ?_⟩
      have once := ended key
      rw [groupStarts, starts]
      grind
    | some head =>
      obtain ⟨nodup, starts⟩ := @ih (some head) behind (fun key same => by cases same; exact grouped)
      rw [groupStarts]
      split
      · next same =>
        subst same
        refine ⟨nodup, fun key => ?_⟩
        rw [starts]
        grind
      · next other =>
        refine ⟨List.nodup_cons.mpr ⟨fun again => ((starts head).mp again).2 rfl, nodup⟩, fun key => ?_⟩
        have once := ended key
        rw [List.mem_cons, starts]
        grind

end

end Foundation
