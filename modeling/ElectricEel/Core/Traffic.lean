/-
  ElectricEel.Core.Traffic — which request lines each section writes (helper/src/core.rs).

  The log of lines written only grows; an operation within a scope adds lines of the
  scope's commands and no others (`path_sends`), so each section adds its own.
-/
import ElectricEel.Client.OneRun
import ElectricEel.Core.System

namespace ElectricEel.Control

open Lib Commands Wire Config Client

/-! ## Sections -/

/-- From `s` to `t` only lines of commands in `P` were written. -/
def Sends (P : Cmd → Prop) (s t : Host) : Prop := ∃ l, t.client.writes = s.client.writes ++ l ∧ ∀ w ∈ l, P w.req.cmd

namespace Sends

variable {P Q : Cmd → Prop} {s t u : Host}

theorem of_eq (h : t.client.writes = s.client.writes) : Sends P s t := ⟨[], by rw [h, List.append_nil], fun _ => nofun⟩

theorem refl : Sends P s s := of_eq rfl

theorem trans (h : Sends P s t) (h' : Sends P t u) : Sends P s u := by
  obtain ⟨l, hl, hp⟩ := h
  obtain ⟨l', hl', hp'⟩ := h'
  refine ⟨l ++ l', by rw [hl', hl, List.append_assoc], fun w hw => ?_⟩
  rcases List.mem_append.1 hw with hw | hw
  · exact hp w hw
  · exact hp' w hw

theorem mono (h : Sends P s t) (hq : ∀ x, P x → Q x) : Sends Q s t := by
  obtain ⟨l, hl, hp⟩ := h
  exact ⟨l, hl, fun w hw => hq _ (hp w hw)⟩

end Sends

/-- The scope of the calls of commands in `P`. -/
def Scope.only (P : Cmd → Prop) : Scope := { moves := fun _ => True, calls := fun c => P c.cmd, files := fun _ _ => True }

theorem Scope.only_writes (P : Cmd → Prop) : (Scope.only P).Writes := 
  ⟨⟨fun _ _ => trivial, fun _ _ _ => trivial⟩, fun _ _ => trivial⟩

theorem step_sends {P : Cmd → Prop} (s : Host) {op : Op} (h : (Scope.only P).Allows s op) : Sends P s (s.step op) := by
  cases op with
  | run c e =>
    obtain ⟨l, hl, hr, _⟩ := run_writes s c e
    exact ⟨l, hl, fun w hw => by rw [hr w hw]; exact h.1⟩
  | invalidate during => exact .of_eq (invalidate_writes s during)
  | move m => exact .of_eq (moves_writes s [m])
  | pollEvent | clearEvents | files => exact .of_eq rfl

/-- What a path within the calls of `P` writes. -/
theorem path_sends {P : Cmd → Prop} {s t : Host} (p : (Scope.only P).Path s t) : Sends P s t :=
  p.inv (I := fun t => Sends P s t) (fun t _ ho h => h.trans (step_sends t ho)) .refl

namespace Core

variable {P : Cmd → Prop}

theorem moves_sends (c : Core) (ms : List Move) : Sends P c.host (c.moves ms).host := .of_eq (moves_writes c.host ms)

theorem pollEvent_sends (c : Core) : Sends P c.host c.pollEvent.1.host := path_sends (pollEvent_path c)

theorem startPhoneKey_sends (c : Core) (e : StartEnv) : Sends (· = .presenceStart) c.host (c.startPhoneKey e).1.host :=
  path_sends (startPhoneKey_path c e.any fun _ => rfl)

theorem stopPhoneKeyLocked_sends (c : Core) (e : StopEnv) : Sends (· = .presenceStop) c.host (c.stopPhoneKeyLocked e).host :=
  path_sends (stopPhoneKeyLocked_path c e.any fun _ => rfl)

theorem drop_sends (c : Core) (e : SectionEnv) : Sends (· = .presenceStop) c.host (c.drop e).host :=
  path_sends (drop_path c e.any fun _ => rfl)

theorem run_sends (K : Checks) (c : Core) (cmd : Cmd) (args : List String) (e : SectionEnv) :
    Sends (fun x => x = cmd ∧ isKnownCommand cmd = true) c.host (c.run K cmd args e).1.host :=
  path_sends (run_path K c e.any fun hk _ => ⟨rfl, hk⟩)

theorem shareDestination_sends (K : Checks) (c : Core) (text : String) (e : SectionEnv) :
    Sends (· = .navigate) c.host (c.shareDestination K text e).1.host :=
  path_sends (shareDestination_path K c text e.any fun _ _ => rfl)

theorem resetEnrollment_sends (c : Core) (e : SectionEnv) : Sends (· = .presenceStop) c.host (c.resetEnrollment e).1.host :=
  path_sends (resetEnrollment_path c e.any (fun _ => rfl) (Scope.only_writes _))

theorem generateKey_sends (c : Core) (force : Bool) (e : SectionEnv) :
    Sends (fun x => x = .presenceStop ∨ x = .keygen) c.host (c.generateKey force e).1.host :=
  path_sends (generateKey_path c force e.any (fun _ _ h _ => h) (Scope.only_writes _))

end Core

end ElectricEel.Control
