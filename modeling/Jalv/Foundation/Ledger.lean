import Mathlib.Logic.Function.Basic

/-! Resources that a program acquires through its pointers, and how often it releases each.

A pointer may be given several resources, one after the other. They are numbered in this
order, so that a leak is not made up for by releasing another resource twice.
-/

set_option autoImplicit false

namespace Foundation

structure Account where
  pointer : Option Nat
  acquired : Nat
  released : Nat → Nat

namespace Account

def empty : Account := ⟨none, 0, fun _ => 0⟩

-- Whatever the pointer pointed to before is lost.
def acquire (account : Account) : Account :=
  { account with pointer := some account.acquired, acquired := account.acquired + 1 }

/-- Release what the pointer points to, if anything. It still points there afterwards. -/
def release (account : Account) : Account :=
  match account.pointer with
  | some number =>
    { account with released := Function.update account.released number (account.released number + 1) }
  | none => account

/-- Release what the pointer points to, and give it a new resource. -/
def renew (account : Account) : Account := account.release.acquire

def drop (account : Account) : Account := { account with pointer := none }

def Settled (account : Account) : Prop := ∀ number < account.acquired, account.released number = 1

structure Unpaid (account : Account) : Prop where
  released : ∀ number, account.released number = 0
  pointer : account.pointer = none ↔ account.acquired = 0

structure Tidy (account : Account) : Prop where
  bound : ∀ number, account.pointer = some number → number < account.acquired
  released : ∀ number,
    account.released number = if number < account.acquired ∧ account.pointer ≠ some number then 1 else 0

def Paid (account : Account) : Prop :=
  ∀ number, account.released number = if number < account.acquired then 1 else 0

def Given (account : Account) (given : Prop) (after : Account) : Prop :=
  (given → after = account.acquire) ∧ (¬given → after = account)

def Live (account : Account) (number : Nat) : Prop := number < account.acquired ∧ account.released number = 0

variable {account after : Account}

theorem Given.of {given : Prop} (holds : given) : account.Given given account.acquire :=
  ⟨fun _ => rfl, fun fails => absurd holds fails⟩

theorem Given.not {given : Prop} (fails : ¬given) : account.Given given account :=
  ⟨fun holds => absurd holds fails, fun _ => rfl⟩

theorem Given.congr {given other : Prop} (changed : account.Given given after) (same : given ↔ other) :
    account.Given other after :=
  ⟨fun holds => changed.1 (same.mpr holds), fun fails => changed.2 fun holds => fails (same.mp holds)⟩

theorem Given.trans {first second : Prop} {middle : Account} (begun : account.Given first middle)
    (done : middle.Given second after) (once : ¬(first ∧ second)) : account.Given (first ∨ second) after := by
  by_cases given : first
  · rw [done.2 fun again => once ⟨given, again⟩, begun.1 given]
    exact .of (.inl given)
  · rw [begun.2 given] at done
    exact done.congr (by simp [given])

@[simp] theorem acquire_pointer : account.acquire.pointer = some account.acquired := rfl

@[simp] theorem acquire_acquired : account.acquire.acquired = account.acquired + 1 := rfl

@[simp] theorem acquire_released : account.acquire.released = account.released := rfl

@[simp] theorem drop_pointer : account.drop.pointer = none := rfl

@[simp] theorem release_pointer : account.release.pointer = account.pointer := by
  unfold release
  split <;> rfl

@[simp] theorem release_acquired : account.release.acquired = account.acquired := by
  unfold release
  split <;> rfl

@[simp] theorem release_of_none (nothing : account.pointer = none) : account.release = account := by
  rw [release, nothing]

@[simp] theorem release_drop_release : account.release.drop.release = account.release.drop :=
  release_of_none drop_pointer

theorem empty_unpaid : empty.Unpaid := ⟨fun _ => rfl, Iff.intro (fun _ => rfl) fun _ => rfl⟩

theorem Unpaid.acquire (unpaid : account.Unpaid) : account.acquire.Unpaid :=
  ⟨unpaid.released, by simp⟩

theorem Unpaid.settled_iff (unpaid : account.Unpaid) : account.Settled ↔ account.pointer = none := by
  rw [unpaid.pointer]
  constructor
  · intro settled
    by_contra some
    have first := settled 0 (Nat.pos_of_ne_zero some)
    rw [unpaid.released] at first
    cases first
  · intro nothing number inside
    omega

theorem empty_tidy : empty.Tidy where
  bound number points := by cases points
  released number := by simp [empty]

theorem Tidy.release (tidy : account.Tidy) : account.release.Paid := by
  intro number
  cases points : account.pointer with
  | none =>
    rw [release_of_none points, tidy.released, points]
    simp
  | some current =>
    have bound := tidy.bound current points
    simp only [Account.release, points, Function.update_apply, tidy.released]
    grind

theorem Tidy.settled_iff (tidy : account.Tidy) : account.Settled ↔ account.pointer = none := by
  constructor
  · intro settled
    cases points : account.pointer with
    | none => rfl
    | some current =>
      have once := settled current (tidy.bound current points)
      simp [tidy.released, points] at once
  · intro none number inside
    rw [tidy.released, none, if_pos ⟨inside, nofun⟩]

theorem Tidy.live_iff (tidy : account.Tidy) {number : Nat} : account.Live number ↔ account.pointer = some number := by
  constructor
  · rintro ⟨inside, unreleased⟩
    by_contra other
    rw [tidy.released, if_pos ⟨inside, other⟩] at unreleased
    cases unreleased
  · intro points
    refine ⟨tidy.bound number points, ?_⟩
    rw [tidy.released, if_neg fun lost => lost.2 points]

theorem Paid.settled (paid : account.Paid) : account.Settled := by
  intro number inside
  rw [paid number, if_pos inside]

theorem Paid.acquire (paid : account.Paid) : account.acquire.Tidy where
  bound number points := by
    cases points
    exact Nat.lt_succ_self _
  released number := by
    have before := paid number
    simp only [acquire_released, acquire_acquired, acquire_pointer, before]
    grind

theorem Paid.drop (paid : account.Paid) : account.drop.Tidy where
  bound number points := by cases points
  released number := by
    simpa [Account.drop] using paid number

theorem Tidy.renew (tidy : account.Tidy) : account.renew.Tidy := tidy.release.acquire

theorem renew_of_none (nothing : account.pointer = none) : account.renew = account.acquire := by
  rw [renew, release_of_none nothing]

theorem Tidy.acquire (tidy : account.Tidy) (nothing : account.pointer = none) : account.acquire.Tidy := by
  rw [← renew_of_none nothing]
  exact tidy.renew

theorem Given.tidy {given : Prop} (changed : account.Given given after) (tidy : account.Tidy)
    (fresh : given → account.pointer = none) : after.Tidy := by
  by_cases holds : given
  · rw [changed.1 holds]
    exact tidy.acquire (fresh holds)
  · rwa [changed.2 holds]

end Account

abbrev Ledger (ρ : Type) := ρ → Account

namespace Ledger

variable {ρ : Type}

def change [DecidableEq ρ] (ledger : Ledger ρ) (pointer : ρ) (operation : Account → Account) : Ledger ρ :=
  Function.update ledger pointer (operation (ledger pointer))

@[simp] theorem change_apply [DecidableEq ρ] (ledger : Ledger ρ) (pointer other : ρ) (operation : Account → Account) :
    ledger.change pointer operation other = if other = pointer then operation (ledger other) else ledger other := by
  rw [change, Function.update_apply]
  split
  · next same => rw [same]
  · rfl

/-- Where a program acquires resources once each, in a sequence of stages that are numbered from
one on: the stage of each pointer, and whether it is given a resource there. -/
structure Plan (ρ : Type) where
  stage : ρ → Nat
  sets : ρ → Prop

namespace Plan

variable {plan : Plan ρ} {among fewer : ρ → Prop} {level : Nat} {before middle after : Ledger ρ}

def Stage (plan : Plan ρ) (among : ρ → Prop) (level : Nat) (before after : Ledger ρ) : Prop :=
  ∀ pointer, among pointer →
    (before pointer).Given (plan.stage pointer = level ∧ plan.sets pointer) (after pointer)

def Upto (plan : Plan ρ) (among : ρ → Prop) (level : Nat) (before after : Ledger ρ) : Prop :=
  ∀ pointer, among pointer →
    (before pointer).Given (0 < plan.stage pointer ∧ plan.stage pointer ≤ level ∧ plan.sets pointer) (after pointer)

theorem Upto.refl (before : Ledger ρ) : plan.Upto among 0 before before := by
  intro pointer _
  exact .not (by omega)

theorem given_next {pointer : ρ}
    (done : (before pointer).Given (0 < plan.stage pointer ∧ plan.stage pointer ≤ level ∧ plan.sets pointer)
      (middle pointer))
    (stage : (middle pointer).Given (plan.stage pointer = level + 1 ∧ plan.sets pointer) (after pointer)) :
    (before pointer).Given (0 < plan.stage pointer ∧ plan.stage pointer ≤ level + 1 ∧ plan.sets pointer)
      (after pointer) := by
  by_cases here : plan.stage pointer = level + 1 ∧ plan.sets pointer
  · rw [stage.1 here, done.2 (by omega)]
    exact .of ⟨by omega, by omega, here.2⟩
  · rw [stage.2 here]
    exact done.congr (by grind)

theorem Upto.next (done : plan.Upto among level before middle) (stage : plan.Stage among (level + 1) middle after) :
    plan.Upto among (level + 1) before after :=
  fun pointer member => given_next (done pointer member) (stage pointer member)

theorem Upto.subset (done : plan.Upto among level before after) (less : ∀ pointer, fewer pointer → among pointer) :
    plan.Upto fewer level before after := fun pointer member => done pointer (less pointer member)

theorem Upto.untouched (done : plan.Upto among level before after) {pointer : ρ} (member : among pointer)
    (later : level < plan.stage pointer) : after pointer = before pointer :=
  (done pointer member).2 (by omega)

end Plan

end Ledger

end Foundation
