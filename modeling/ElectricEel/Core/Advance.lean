/-
  ElectricEel.Core.Advance — what the next section of a call comes to (helper/src/core.rs).

  A section leaves the phone key alone and makes at most one request, which is not for
  presence (`Plain`); or it ends the phone key (`Ended`); or it is the section of
  start_phone_key, of handle_resume, or the poll's under the gate. `advanced` says so once
  for all calls.
-/
import ElectricEel.Client.Notices
import ElectricEel.Core.System

namespace ElectricEel.Control

open Lib Commands Wire Config Client

/-! ## One request -/

/-- At most one request, and not for presence; the files aside nothing else. -/
inductive Asked (s t : Host) : Prop
  | nothing : t.client = s.client → Asked s t
  | once (c : Call) (e : RunEnv) : c.Calm → t.client = (s.run c e).1.client → Asked s t

theorem Asked.files {s t u : Host} (h : Asked s t) (hu : u.client = t.client) : Asked s u := by
  cases h with
  | nothing ht => exact .nothing (hu.trans ht)
  | once c e hc ht => exact .once c e hc (hu.trans ht)

namespace Core

theorem run_asked (K : Checks) (c : Core) (cmd : Cmd) (args : List String) (e : SectionEnv) : Asked c.host (c.run K cmd args e).1.host := by
  unfold run
  split
  · exact .nothing rfl
  rename_i hk
  have hcalm : (c.call cmd args).Calm := by
    obtain ⟨v, rfl, _, _⟩ := isKnownCommand_iff.1 (by simpa using hk)
    exact ⟨nofun, nofun, nofun⟩
  have hrun : Asked c.host (c.sessionRun cmd args e.run).1.host := .once _ e.run hcalm rfl
  split
  · exact .nothing rfl
  split
  · exact .nothing rfl
  split
  · exact .nothing rfl
  split
  · split
    · rename_i heq
      rwa [heq] at hrun
    · rename_i heq
      rw [heq] at hrun
      split <;> exact hrun
  · exact .nothing rfl

theorem shareDestination_asked (K : Checks) (c : Core) (text : String) (e : SectionEnv) :
    Asked c.host (c.shareDestination K text e).1.host := by
  unfold shareDestination
  split
  · exact .nothing rfl
  rename_i dest _
  have hrun : Asked c.host (c.sessionRun .navigate (Destination.args dest) e.run).1.host :=
    .once (c.call .navigate (Destination.args dest)) e.run ⟨nofun, nofun, nofun⟩ rfl
  split
  · exact .nothing rfl
  split
  · exact .nothing rfl
  split
  · exact .nothing rfl
  split
  · rename_i heq
    rwa [heq] at hrun
  · rename_i heq
    rwa [heq] at hrun

/-- The key that is there is printed: the keygen request stops no presence. -/
theorem keygen_asked (c : Core) (e : SectionEnv) : Asked c.host (c.keygen false e).1.host := by
  have hrun : Asked c.host (c.sessionRun .keygen [] e.run).1.host :=
    .once (c.call .keygen []) e.run ⟨nofun, nofun, fun _ => rfl⟩ rfl
  unfold keygen
  split
  · unfold generateKeyOneShot
    dsimp only
    split
    · exact .nothing rfl
    · split <;> exact .nothing rfl
  simp only [Bool.false_eq_true, if_false]
  split
  · rename_i heq
    rwa [heq] at hrun
  · rename_i heq
    rw [heq] at hrun
    split
    · exact hrun
    · split <;> exact hrun.files rfl

/-- The phone key is left alone, and the client but for one such request. -/
structure Plain (c c' : Core) : Prop where
  steady : Steady c c'
  asked : Asked c.host c'.host

theorem generateKey_plain (c : Core) (force : Bool) (e : SectionEnv) :
    Plain c (c.generateKey force e).1 ∨ Ended c (c.generateKey force e).1 := by
  have hg := generated c force e
  generalize c.generateKey force e = r at hg ⊢
  have hended : ∀ {c' : Core}, c.resetEnrollment e = (c', .ok ()) → Ended c c' := by
    intro c' hreset
    have ho := resetEnrollment_ended c e
    rw [hreset] at ho
    rcases ho with ⟨_, he, _⟩ | ⟨_, ho⟩
    · cases he
    · exact ho
  cases hg with
  | refused err hs hc => exact .inl ⟨hs, .nothing hc⟩
  | printed hp =>
    obtain rfl : force = false := (Bool.or_eq_false_iff.1 hp).1
    exact .inl ⟨keygen_steady c false e, keygen_asked c e⟩
  | @failed c' err _ hreset _ => exact .inr ((hended hreset).steady (keygen_steady c' force e))
  | @replaced c' pub _ hreset _ =>
    exact .inr ((hended hreset).steady ((keygen_steady c' force e).trans (invalidate_steady _ e.again)))

theorem setConfigSection_plain (c : Core) (r : ConfigRequest) (e : SectionEnv) :
    Plain c (c.setConfigSection r e).1 ∨ Ended c (c.setConfigSection r e).1 := by
  rcases setConfigSection_ended c r e with ⟨err, herr, hs⟩ | ho
  · refine .inl ⟨hs, .nothing ?_⟩
    unfold setConfigSection at herr ⊢
    split at herr
    · rfl
    · dsimp only at herr ⊢
      split at herr
      · rename_i heq
        exact (congrArg (fun r => r.1.host.client) heq).symm
      · cases herr
  · exact .inr ho

/-! ## The event of a poll -/

/-- An event that was popped keeps its origin and kind. -/
theorem polledEvent_some (c : Core) (x : Entry) (due : Bool) :
    ∃ y, c.polledEvent (some x) due = some y ∧ y.src = x.src ∧ y.ev.kind = x.ev.kind := by
  refine ⟨_, rfl, ?_⟩
  dsimp only
  split <;> exact ⟨rfl, rfl⟩

/-- One that was not is made up for a due retry. -/
theorem polledEvent_none {c : Core} {due : Bool} {y : Entry} (h : c.polledEvent none due = some y) : due = true ∧ y.src = .timer := by
  unfold polledEvent at h
  cases due with
  | false => cases h
  | true =>
    refine ⟨rfl, ?_⟩
    cases he : c.phoneKeyEnabled with
    | false => simp [he] at h
    | true =>
      simp only [he, Option.isNone_none, Bool.and_self, if_true, Option.map_some] at h
      split at h <;> cases h <;> rfl

end Core

/-! ## Any section -/

/-- The call's next section is that of start_phone_key. -/
def Pending.startsNow : Pending → Bool
  | .begun .startPhoneKey | .starting | .restarting _ => true
  | _ => false

open ElectricEel.Control.Core in
inductive Advanced (c : Core) (e : SectionEnv) : Pending → Core → Prop
  | plain {p : Pending} {c' : Core} : Plain c c' → Advanced c e p c'
  | ended {p : Pending} {c' : Core} : Ended c c' → Advanced c e p c'
  | start {p : Pending} (r : List Restart) : p.startsNow = true → Advanced c e p { (c.startPhoneKey e.start).1 with restarts := r }
  | resume : Advanced c e (.begun .handleResume) (c.handleResumeSection e)
  | gate (x : Entry) : Advanced c e (.stopped x) (c.pollGate e.invalidating).1

open ElectricEel.Control.Core in
theorem advanced (K : Checks) (c : Core) (e : SectionEnv) (p : Pending) : Advanced c e p (advance K c e p).1 := by
  have here : Plain c c := ⟨.refl c, .nothing rfl⟩
  cases p with
  | begun op =>
    cases op with
    | run cmd args => exact .plain ⟨run_steady K c cmd args e, run_asked K c cmd args e⟩
    | generateKey force =>
      rcases generateKey_plain c force e with hp | ho
      · exact .plain hp
      · exact .ended ho
    | pair =>
      rw [advance_pair]
      rcases pairSection_ended c e with ⟨hc, _⟩ | ho
      · rw [hc]
        exact .plain here
      · exact .ended ho
    | startPhoneKey => exact .start _ rfl
    | stopPhoneKey => exact .ended (stopPhoneKeyLocked_ended c e.stop)
    | handleResume => exact .resume
    | setConfig r =>
      rw [advance_setConfig]
      rcases setConfigSection_plain c r e with hp | ho
      · exact .plain hp
      · exact .ended ho
    | shareDestination text => exact .plain ⟨shareDestination_steady K c text e, shareDestination_asked K c text e⟩
  | starting => exact .start _ rfl
  | popped x => exact .plain here
  | judged x due =>
    rw [advance_judged]
    exact .plain here
  | stopped x =>
    rw [advance_stopped]
    exact .gate x
  | restarting x => exact .start _ rfl

end ElectricEel.Control
