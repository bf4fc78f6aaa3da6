import Jalv.Foundation.Pacing
import Jalv.Foundation.Transition
import Jalv.Process.Shape

/-! When `jalv_run` asks for updates to be sent to the user interface (`process.c`).

The frames of the blocks that were run are counted in 32 bits. A block and the number of
frames between updates together stay below that.
-/

set_option autoImplicit false

namespace Jalv

open Foundation

/-- The process state, and the cycles that have run the plugin: the lengths of their blocks, what applying
messages returned in each, and what `jalv_run` returned. -/
structure PacedRun where
  proc : JalvProcess
  blocks : List UInt32
  applied : List JalvProcessStatus
  returned : List JalvProcessStatus

/-- A cycle runs the plugin or bypasses it, with anything in the ring. What backends do around it
does not touch the frames that are counted. -/
inductive PacedStep : PacedRun → PacedRun → Prop where
  | run {run : PacedRun} {ring rest : ZixRing} {nframes : UInt32} {pst result : JalvProcessStatus}
      {proc next : JalvProcess} (output : PluginOutput)
      (small : run.proc.updateFrames.toNat + nframes.toNat < 2 ^ 32)
      (begun : jalvRunBegin run.proc ring nframes = some (pst, proc, rest))
      (ended : jalvRunEnd pst proc nframes output = (result, next)) :
      PacedStep run ⟨next, run.blocks ++ [nframes], run.applied ++ [pst], run.returned ++ [result]⟩
  | bypass {run : PacedRun} {ring rest : ZixRing} {nframes : UInt32} {next : JalvProcess}
      (bypassed : jalvBypass run.proc ring nframes = some (next, rest)) : PacedStep run { run with proc := next }
  | other {run : PacedRun} {next : JalvProcess} (update : next.updateFrames = run.proc.updateFrames)
      (pending : next.pendingFrames = run.proc.pendingFrames) : PacedStep run { run with proc := next }

def pacedSystem (updateFrames : UInt32) : TransitionSystem PacedRun where
  initial run := ∃ proc : JalvProcess, proc.pendingFrames = 0 ∧ proc.updateFrames = updateFrames ∧
    run = ⟨proc, [], [], []⟩
  step := PacedStep

namespace PacedRun

def pacing (run : PacedRun) (updateFrames : UInt32) : Pacing :=
  .run updateFrames.toNat (run.blocks.map UInt32.toNat)

def frames (run : PacedRun) : Nat := (run.blocks.map UInt32.toNat).sum

def updates (run : PacedRun) (updateFrames : UInt32) : Nat := (run.pacing updateFrames).requests.count true

structure Paced (updateFrames : UInt32) (run : PacedRun) : Prop where
  /-- Updates are asked for in the cycles in which they are due, unless applying messages failed there. -/
  returned : run.returned = List.zipWith (fun pst due => if due = true ∧ pst = .success then .sendUpdates else pst)
    run.applied (run.pacing updateFrames).requests
  /-- They are due once in more frames than lie between updates, and late by less than a block. -/
  notOften : run.updates updateFrames * (updateFrames.toNat + 1) ≤ run.frames
  notRare : ∀ bound, (∀ nframes ∈ run.blocks, nframes.toNat ≤ bound) →
    run.frames ≤ run.updates updateFrames * (updateFrames.toNat + bound) + updateFrames.toNat
  /-- With blocks of one length, they are due at regular intervals. -/
  regular : ∀ nframes : UInt32, nframes ≠ 0 → (∀ block ∈ run.blocks, block = nframes) →
    (run.pacing updateFrames).requests = (List.range run.blocks.length).map fun index =>
      decide ((index + 1) % (updateFrames.toNat / nframes.toNat + 1) = 0)

end PacedRun

section

variable {run next : PacedRun} {updateFrames : UInt32}

theorem applyUiEvents_frames {proc next : JalvProcess} {ring rest : ZixRing} {nframes : UInt32}
    {status : JalvProcessStatus} (applied : applyUiEvents proc ring nframes = some (status, next, rest)) :
    next.updateFrames = proc.updateFrames ∧ next.pendingFrames = proc.pendingFrames := by
  let kept (after : JalvProcess) : Prop :=
    after.updateFrames = proc.updateFrames ∧ after.pendingFrames = proc.pendingFrames
  refine applyUiEvents_invariant (fun _ _ same => same) (fun before message after (same : kept before) effect => ?_)
    applied (⟨rfl, rfl⟩ : kept proc)
  obtain ⟨_, _, _, _, rfl⟩ := effect.frame
  exact same

theorem jalvRunEnd_counted {proc next : JalvProcess} {pst result : JalvProcessStatus} {nframes : UInt32}
    {output : PluginOutput} (periodic : proc.updateFrames ≠ 0)
    (small : proc.pendingFrames.toNat + nframes.toNat < 2 ^ 32)
    (ended : jalvRunEnd pst proc nframes output = (result, next)) (requests : List Bool) :
    ∃ due, next.updateFrames = proc.updateFrames ∧
      Pacing.count proc.updateFrames.toNat ⟨proc.pendingFrames.toNat, requests⟩ nframes.toNat =
        ⟨next.pendingFrames.toNat, requests ++ [due]⟩ ∧
      result = if due = true ∧ pst = .success then .sendUpdates else pst := by
  have sum : (proc.pendingFrames + nframes).toNat = proc.pendingFrames.toNat + nframes.toNat := by
    rw [UInt32.toNat_add, Nat.mod_eq_of_lt small]
  have beyond : proc.pendingFrames + nframes > proc.updateFrames ↔
      proc.pendingFrames.toNat + nframes.toNat > proc.updateFrames.toNat := by
    rw [gt_iff_lt, UInt32.lt_iff_toNat_lt, sum]
  rw [jalvRunEnd] at ended
  simp only [lilvInstanceRun, if_pos periodic, beyond] at ended
  rw [Pacing.count]
  split at ended
  case isTrue due =>
    obtain ⟨rfl, rfl⟩ := Prod.mk.inj ended
    refine ⟨true, rfl, ?_, ?_⟩
    · rw [if_pos due]
      rfl
    · simp
  case isFalse early =>
    obtain ⟨rfl, rfl⟩ := Prod.mk.inj ended
    refine ⟨false, rfl, ?_, ?_⟩
    · rw [if_neg early, sum]
    · simp

structure PacedRun.Counted (updateFrames : UInt32) (run : PacedRun) : Prop where
  update : run.proc.updateFrames = updateFrames
  pending : run.proc.pendingFrames.toNat = (run.pacing updateFrames).pending
  length : run.applied.length = run.blocks.length
  requests : (run.pacing updateFrames).requests.length = run.blocks.length
  returned : run.returned = List.zipWith (fun pst due => if due = true ∧ pst = .success then .sendUpdates else pst)
    run.applied (run.pacing updateFrames).requests

theorem PacedStep.counted (periodic : updateFrames ≠ 0) (counted : run.Counted updateFrames)
    (step : PacedStep run next) : next.Counted updateFrames := by
  cases step with
  | @run ring rest nframes pst result proc after output small begun ended =>
    obtain ⟨update, pending, length, requests, returned⟩ := counted
    obtain ⟨sameUpdate, samePending⟩ := applyUiEvents_frames begun
    rw [update] at sameUpdate small
    have kept := @Pacing.pending_le updateFrames.toNat (run.blocks.map UInt32.toNat)
    have bounded : proc.pendingFrames.toNat + nframes.toNat < 2 ^ 32 := by
      rw [samePending, pending]
      exact lt_of_le_of_lt (Nat.add_le_add_right kept _) small
    obtain ⟨due, afterUpdate, counts, status⟩ :=
      jalvRunEnd_counted (sameUpdate ▸ periodic) bounded ended (run.pacing updateFrames).requests
    have paced : Pacing.run updateFrames.toNat ((run.blocks ++ [nframes]).map UInt32.toNat) =
        ⟨after.pendingFrames.toNat, (run.pacing updateFrames).requests ++ [due]⟩ := by
      rw [List.map_append, List.map_singleton, Pacing.run_concat, ← counts, sameUpdate, samePending, pending]
      rfl
    constructor
    · exact afterUpdate.trans sameUpdate
    · exact (congrArg Pacing.pending paced).symm
    · simp only [List.length_append, length, List.length_singleton]
    · rw [PacedRun.pacing, paced, List.length_append, requests, List.length_append]
      rfl
    · rw [PacedRun.pacing, paced, List.zipWith_append (length.trans requests.symm), ← returned, status]
      rfl
  | bypass bypassed =>
    rw [jalvBypass, Option.map_eq_some_iff] at bypassed
    obtain ⟨⟨status, after, rest⟩, applied, same⟩ := bypassed
    obtain ⟨rfl, rfl⟩ := Prod.mk.inj same
    obtain ⟨sameUpdate, samePending⟩ := applyUiEvents_frames applied
    exact ⟨sameUpdate.trans counted.update, (congrArg UInt32.toNat samePending).trans counted.pending, counted.length,
      counted.requests, counted.returned⟩
  | other update pending =>
    exact ⟨update.trans counted.update, (congrArg UInt32.toNat pending).trans counted.pending, counted.length,
      counted.requests, counted.returned⟩

theorem PacedRun.Counted.paced (counted : run.Counted updateFrames) : run.Paced updateFrames := by
  have kept := @Pacing.pending_le updateFrames.toNat (run.blocks.map UInt32.toNat)
  constructor
  · exact counted.returned
  · exact le_trans (Nat.le_add_right _ _) (Pacing.requests_le _)
  · intro bound bounded
    refine le_trans (Pacing.le_requests _ ?_) (Nat.add_le_add_left kept _)
    intro amount member
    obtain ⟨nframes, listed, rfl⟩ := List.mem_map.mp member
    exact bounded nframes listed
  · intro nframes nonzero same
    have positive : 0 < nframes.toNat := Nat.pos_of_ne_zero fun zero => nonzero (UInt32.toNat_inj.mp zero)
    rw [PacedRun.pacing, List.eq_replicate_iff.mpr ⟨rfl, same⟩, List.map_replicate, Pacing.run_replicate positive,
      List.length_replicate]

/-- In any run with a number of frames between updates, updates are asked for once that many frames
were run since the last time, and then at once; blocks of one length make that regular. -/
theorem updates_paced (periodic : updateFrames ≠ 0) (reachable : (pacedSystem updateFrames).Reachable run) :
    run.Paced updateFrames := by
  refine PacedRun.Counted.paced (TransitionSystem.invariant ?_ (fun _ _ => PacedStep.counted periodic) reachable)
  rintro _ ⟨proc, pending, update, rfl⟩
  exact ⟨update, congrArg UInt32.toNat pending, rfl, rfl, rfl⟩

end

/-- Blocks of 64 frames, with 100 frames between updates: every second one asks for updates. -/
theorem updates_paced_test : ∃ run : PacedRun, run.Paced 100 ∧ run.returned = [.success, .sendUpdates] := by
  have apply (proc : JalvProcess) : applyUiEvents proc (.empty 63) 64 = some (.success, proc, .empty 63) :=
    rfl
  have start : (pacedSystem 100).Reachable ⟨{ jalvProcessInit testUrids with updateFrames := 100 }, [], [], []⟩ :=
    ⟨_, ⟨_, rfl, rfl, rfl⟩, .refl⟩
  have first := start.step (.run ⟨fun _ => 0, fun _ => 0, fun _ => 0, fun _ _ => 0⟩ (by decide) (apply _) rfl)
  have second := first.step (.run ⟨fun _ => 0, fun _ => 0, fun _ => 0, fun _ _ => 0⟩ (by decide) (apply _) rfl)
  exact ⟨_, updates_paced (by decide) second, rfl⟩

end Jalv
