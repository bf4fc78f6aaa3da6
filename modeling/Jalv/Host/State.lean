import Jalv.Host.Sending

/-! Saving and restoring the state of a plugin, as far as the main thread does it (`state.c`). -/

set_option autoImplicit false

namespace Jalv

open Foundation

def jalvPortBySymbol (jalv : JalvImpl) (symbol : Text) : Option JalvPort :=
  jalv.ports.find? fun port => port.symbol = symbol

/-- `get_port_value`, with the value of a control input port and no value for any other. The outer
option is a read outside of the control values. -/
def getPortValue (jalv : JalvImpl) (symbol : Text) : Option (Option Atom) :=
  match jalvPortBySymbol jalv symbol with
  | some port =>
    if port.flow = .input ∧ port.type = .control then
      (jalv.process.controlsBuf[port.index.toNat]?).map fun value => some (.ofBytes jalv.forge.float (word value))
    else some none
  | none => some none

/-- `set_port_value`, with the state and both rings after it. Errors are only logged. -/
def setPortValue (jalv : JalvImpl) (uiToPlugin pluginToUi : ZixRing) (symbol : Text) (atom : Atom) :
    Option (JalvImpl × ZixRing × ZixRing) :=
  match jalvPortBySymbol jalv symbol with
  | none => some (jalv, uiToPlugin, pluginToUi)
  | some port =>
    match getNamedControl jalv.controls symbol with
    | none => some (jalv, uiToPlugin, pluginToUi)
    | some pointer => do
      -- Set the main control value
      let (status, jalv) ← setControlValue jalv pointer atom
      if port.type = .control then
        let control ← jalv.controls[pointer]?
        let value := anyValueFloat jalv.world jalv.forge control.value.value
        if jalv.process.runState ≠ .running then
          if port.index.toNat < jalv.process.controlsBuf.length then
            -- Paused, set control port buffer immediately
            let process := { jalv.process with
              controlsBuf := jalv.process.controlsBuf.set port.index.toNat value }
            -- Update UI (as if from plugin)
            if status = 0 then
              return ({ jalv with process }, uiToPlugin, (jalvWriteControl pluginToUi port.index value).2)
            else return ({ jalv with process }, uiToPlugin, pluginToUi)
          else none
        else
          -- Send value to plugin (as if from UI)
          match jalvWriteControl uiToPlugin port.index value with
          | (.success, uiToPlugin) =>
            -- Update UI (as if from plugin)
            return (jalv, uiToPlugin, (jalvWriteControl pluginToUi port.index value).2)
          | (_, uiToPlugin) => return (jalv, uiToPlugin, pluginToUi)
      else return (jalv, uiToPlugin, pluginToUi)

theorem setPortValue_frame {jalv next : JalvImpl} {uiToPlugin pluginToUi toPlugin toUi : ZixRing}
    {symbol : Text} {atom : Atom}
    (set : setPortValue jalv uiToPlugin pluginToUi symbol atom = some (next, toPlugin, toUi)) :
    (∃ proposal controls controlsBuf,
      next = { jalv with proposal, controls, process := { jalv.process with controlsBuf } }) ∧
    (toPlugin = uiToPlugin ∨
      ∃ portIndex value, Sends uiToPlugin toPlugin (.controlPortChange portIndex value)) := by
  unfold setPortValue at set
  split at set
  · cases set
    exact ⟨⟨_, _, _, rfl⟩, Or.inl rfl⟩
  · next port _ =>
    split at set
    · cases set
      exact ⟨⟨_, _, _, rfl⟩, Or.inl rfl⟩
    · obtain ⟨⟨status, middle⟩, stored, rest⟩ := Option.bind_eq_some_iff.mp set
      obtain ⟨proposal, controls, rfl⟩ := setControlValue_frame stored
      simp only at rest
      split at rest
      · obtain ⟨control, _, rest⟩ := Option.bind_eq_some_iff.mp rest
        split at rest
        · split at rest
          · split at rest <;>
            · cases rest
              exact ⟨⟨_, _, _, rfl⟩, Or.inl rfl⟩
          · cases rest
        -- Only here anything is sent, and what is sent to the main thread is left open
        · have sends := jalvWriteControl_cases uiToPlugin port.index
            (anyValueFloat jalv.world jalv.forge control.value.value)
          split at rest <;>
          · next wrote =>
            cases rest
            rw [wrote] at sends
            exact ⟨⟨_, _, _, rfl⟩, sends.imp_right fun sent => ⟨_, _, sent⟩⟩
      · cases rest
        exact ⟨⟨_, _, _, rfl⟩, Or.inl rfl⟩

-- While the plugin is paused, nothing is sent to it.
theorem setPortValue_paused_toPlugin {jalv next : JalvImpl} {uiToPlugin pluginToUi toPlugin toUi : ZixRing} {symbol : Text}
    {atom : Atom} (paused : jalv.process.runState = .paused)
    (set : setPortValue jalv uiToPlugin pluginToUi symbol atom = some (next, toPlugin, toUi)) :
    toPlugin = uiToPlugin := by
  unfold setPortValue at set
  split at set
  · cases set
    rfl
  · split at set
    · cases set
      rfl
    · obtain ⟨⟨status, middle⟩, stored, rest⟩ := Option.bind_eq_some_iff.mp set
      obtain ⟨proposal, controls, rfl⟩ := setControlValue_frame stored
      simp only [paused, ne_eq, reduceCtorEq, not_false_eq_true, if_true] at rest
      split at rest
      · obtain ⟨control, _, rest⟩ := Option.bind_eq_some_iff.mp rest
        split at rest
        · split at rest <;>
          · cases rest
            rfl
        · cases rest
      · cases rest
        rfl

end Jalv
