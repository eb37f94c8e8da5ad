/-
  ElectricEel.Core.PresenceFlags — what presence_active and phone_key_started say about the
  child (helper/src/core.rs, helper/src/session_client.rs).

  presence_active is about the slot's child; phone_key_started is the core's own. Two
  sections let it fall while presence runs on: a stop whose presence-stop is answered with
  ok = false takes the answer for a stop, and a start that finds the reader dead and the
  installation no longer eligible returns with the child still in the slot.

  Proved: presence_active is true only of a child whose last answered presence request was
  a start; and in every run without those two steps presence runs nowhere while
  phone_key_started is false, and set_config, a replacing generate_key and stop_phone_key
  leave none running (`presence_flags`).
-/
import ElectricEel.Core.SpawnArgs
import ElectricEel.Core.Traffic

namespace ElectricEel.Control

open Lib Commands Wire Config Client

/-! ## Paths without a presence-start -/

/-- Presence does not begin to run on such a path. -/
theorem path_running {P : Cmd → Prop} (hP : ¬ P .presenceStart) {s t : Host} (p : (Scope.only P).Path s t) (hs : Truthful s) :
    t.Running → s.Running := by
  have hI : Truthful t ∧ (t.Running → s.Running) := by
    refine p.inv (I := fun t => Truthful t ∧ (t.Running → s.Running)) (fun u op hop hu => ?_) ⟨hs, id⟩
    refine ⟨step_truthful hu.1 op, fun hr => ?_⟩
    cases op with
    | run c e =>
      obtain ⟨out, _, hstart | hrun⟩ := run_running hu.1 c e hr
      · exact (hP (hstart.2 ▸ hop.1)).elim
      · exact hu.2 hrun.1
    | invalidate during => exact (not_running_of_empty (slot_none.2 (invalidate_child u during)) hr).elim
    | move m => exact hu.2 ((move_same u m).running hr)
    | pollEvent | clearEvents | files => exact hu.2 hr
  exact hI.2

/-! ## The flags of a core -/

namespace Core

/-- A started phone key is wanted and waits for no retry. -/
def Wanted (c : Core) : Prop := c.phoneKeyStarted = true → c.phoneKeyEnabled = true ∧ c.phoneKeyRetryAt = none

/-- Presence runs only where the core has started it. -/
def Idle (c : Core) : Prop := c.phoneKeyStarted = false → ¬ c.host.Running

theorem Steady.wanted {c c' : Core} (hs : Steady c c') (h : c.Wanted) : c'.Wanted := by
  unfold Wanted
  rw [hs.phoneKeyStarted, hs.phoneKeyEnabled, hs.phoneKeyRetryAt]
  exact h

theorem wanted_of_stopped {c : Core} (h : c.phoneKeyStarted = false) : c.Wanted := fun hs => by
  rw [h] at hs
  cases hs

theorem startPhoneKey_wanted {c : Core} (h : c.Wanted) (e : StartEnv) : (c.startPhoneKey e).1.Wanted := by
  have hs := started c e
  generalize c.startPhoneKey e = r at hs ⊢
  cases hs with
  | kept => exact h
  | refused => exact wanted_of_stopped rfl
  | sent =>
    rw [startPresence_eq]
    rcases presenceStarted_cases (((c.checked e).prepared c.phoneKeyStarted e).sessionRun .presenceStart [] e.run).1
      (((c.checked e).prepared c.phoneKeyStarted e).sessionRun .presenceStart [] e.run).2 with ⟨_, _, _, hr⟩ | ⟨_, _, hr⟩
    · rw [hr]
      exact fun _ => ⟨rfl, rfl⟩
    · rw [hr]
      exact wanted_of_stopped rfl

theorem advance_wanted (K : Checks) {c : Core} (h : c.Wanted) (e : SectionEnv) (p : Pending) : (advance K c e p).1.Wanted := by
  cases p with
  | begun op =>
    cases op with
    | run cmd args => exact (run_steady K c cmd args e).wanted h
    | generateKey force =>
      rcases generateKey_ended c force e with hs | hs
      · exact hs.wanted h
      · exact wanted_of_stopped hs.phoneKeyStarted
    | pair =>
      rw [advance_pair]
      rcases pairSection_ended c e with ⟨hs, _⟩ | hs
      · rw [hs]
        exact h
      · exact wanted_of_stopped hs.phoneKeyStarted
    | startPhoneKey => exact startPhoneKey_wanted h e.start
    | stopPhoneKey => exact wanted_of_stopped (stopPhoneKeyLocked_ended c e.stop).phoneKeyStarted
    | handleResume =>
      refine wanted_of_stopped ?_
      show (c.handleResumeSection e).phoneKeyStarted = false
      rw [handleResumeSection_eq]
    | setConfig r =>
      rw [advance_setConfig]
      rcases setConfigSection_ended c r e with ⟨_, _, hs⟩ | hs
      · exact hs.wanted h
      · exact wanted_of_stopped hs.phoneKeyStarted
    | shareDestination text => exact (shareDestination_steady K c text e).wanted h
  | starting => exact startPhoneKey_wanted h e.start
  | popped x => exact h
  | judged x due =>
    rw [advance_judged]
    exact h
  | stopped x =>
    rw [advance_stopped]
    refine wanted_of_stopped ?_
    rcases pollGate_cases c e.invalidating with ⟨hp, _⟩ | ⟨hp, _⟩
    · rw [hp]
    · rw [hp]
      exact (invalidate_steady { c with phoneKeyStarted := false } e.invalidating).phoneKeyStarted
  | restarting x => exact startPhoneKey_wanted h e.start

/-! ## The two steps -/

/-- While presence runs, a presence-stop is answered OK if it is answered. -/
def StopHeeded (c : Core) (e : StopEnv) : Prop :=
  c.phoneKeyStarted = true → c.host.Running → c.host.isAlive = true →
    ∀ out, (c.host.run (c.call .presenceStop []) e.run).2 = .ok out → out.ok = true

/-- A start that finds the reader dead while presence runs is not refused. -/
def StartHeeded (c : Core) (e : StartEnv) : Prop :=
  c.phoneKeyStarted = true → c.isPresenceActive = false → c.host.Running → (c.checked e).ready = true

def Heeded (c : Core) (e : SectionEnv) : Pending → Prop
  | .begun .startPhoneKey | .starting | .restarting _ => c.StartHeeded e.start
  | .begun .stopPhoneKey | .begun .pair => c.StopHeeded e.stop
  | _ => True

/-! ## Sections -/

section

variable {c : Core}

theorem stop_idle (ht : Truthful c.host) (hn : c.session = false → c.host.slot = none) (hi : c.Idle) {e : StopEnv}
    (hok : c.StopHeeded e) : ¬ (c.stopPhoneKeyLocked e).host.Running := by
  rw [stopPhoneKeyLocked_eq]
  show ¬ (c.stopHost e).Running
  unfold stopHost
  split
  · rename_i hg
    rw [Bool.and_eq_true] at hg
    have hr := run_running ht (c.call .presenceStop []) e.run
    split
    · rename_i s out heq
      rw [heq] at hr
      intro hrun
      obtain ⟨out', ho, hstart | ⟨hbefore, halive, hnot⟩⟩ := hr hrun
      · cases hstart.2
      · exact hnot ⟨hok hg.1 hbefore halive out' (heq ▸ ho), rfl⟩
    · exact not_running_of_empty (slot_none.2 (invalidate_child _ _))
  · rename_i hg
    cases hs : c.session with
    | false => exact not_running_of_empty (hn hs)
    | true =>
      refine hi ?_
      rw [hs, Bool.and_true] at hg
      exact Bool.eq_false_iff.2 hg

theorem isPresenceActive_checked {e : StartEnv} (h : c.isPresenceActive = false) : (c.checked e).isPresenceActive = false := by
  cases ha : (c.checked e).isPresenceActive with
  | false => rfl
  | true =>
    have hb : c.session = true ∧ (c.host.moves e.checking).client.presenceActive = true ∧ (c.host.moves e.checking).isAlive = true := by
      have ha' : (c.session && ((c.host.moves e.checking).client.presenceActive && (c.host.moves e.checking).isAlive)) = true := ha
      rwa [Bool.and_eq_true, Bool.and_eq_true] at ha'
    obtain ⟨hs, hf, hl⟩ := hb
    rw [(moves_same c.host e.checking).presenceActive] at hf
    rw [isPresenceActive, Host.isPresenceActive, hs, hf, moves_alive hl] at h
    cases h

theorem prepared_host (c : Core) (wasStarted : Bool) (e : StartEnv) : (c.prepared wasStarted e).host =
    (if wasStarted && !c.isPresenceActive then c.invalidate e.invalidating else c).host.moves e.starting := rfl

theorem startPhoneKey_idle (ht : Truthful c.host) (hi : c.Idle) {e : StartEnv} (hok : c.StartHeeded e) :
    (c.startPhoneKey e).1.Idle := by
  have hchecked : (c.checked e).host.Running → c.host.Running := (moves_same c.host e.checking).running
  have hs := started c e
  generalize c.startPhoneKey e = r at hs ⊢
  cases hs with
  | kept => exact hi
  | refused err hnot hready _ =>
    refine fun _ hr => ?_
    cases hst : c.phoneKeyStarted with
    | false => exact hi hst (hchecked hr)
    | true =>
      rw [hst, Bool.true_and] at hnot
      rw [hok hst hnot (hchecked hr)] at hready
      cases hready
  | sent hnot hready =>
    have hsess : (c.checked e).session = true := by
      simp only [ready, Bool.and_eq_true] at hready
      exact hready.1.2
    have htc : Truthful (c.checked e).host := ht.same (moves_same _ _)
    -- what is in the slot when the request goes out runs no presence
    have hprep : Truthful ((c.checked e).prepared c.phoneKeyStarted e).host ∧
        ¬ ((c.checked e).prepared c.phoneKeyStarted e).host.Running := by
      rw [prepared_host]
      cases hst : c.phoneKeyStarted with
      | true =>
        rw [hst, Bool.true_and] at hnot
        rw [isPresenceActive_checked hnot, if_pos (by rfl)]
        have hslot := invalidate_slot e.invalidating hsess
        have hm := moves_same ((c.checked e).invalidate e.invalidating).host e.starting
        refine ⟨Truthful.same ?_ hm, fun hr => not_running_of_empty hslot (hm.running hr)⟩
        rw [invalidate_eq, hsess, if_pos rfl]
        exact htc.emptied (invalidate_emptied _ _)
      | false =>
        rw [Bool.false_and, if_neg Bool.false_ne_true]
        have hm := moves_same (c.checked e).host e.starting
        exact ⟨htc.same hm, fun hr => hi hst (hchecked (hm.running hr))⟩
    rw [startPresence_eq]
    rcases presenceStarted_cases (((c.checked e).prepared c.phoneKeyStarted e).sessionRun .presenceStart [] e.run).1
      (((c.checked e).prepared c.phoneKeyStarted e).sessionRun .presenceStart [] e.run).2 with ⟨_, _, _, hr⟩ | ⟨_, hno, hr⟩
    · rw [hr]
      intro hstarted
      cases hstarted
    · rw [hr]
      intro _ hrun
      obtain ⟨out, ho, hstart | hbefore⟩ := run_running hprep.1 _ e.run hrun
      · rw [hno out ho] at hstart
        cases hstart.1
      · exact hprep.2 hbefore.1

theorem generateKey_running (ht : Truthful c.host) (hs : c.session = true) (force : Bool) (e : SectionEnv) :
    (c.generateKey force e).1.host.Running →
      c.host.Running ∧ Steady c (c.generateKey force e).1 ∧
        ((force || c.disk.priv.isNone) = true → ∃ err, (c.generateKey force e).2 = .error (.persist err)) := by
  have hg := generated c force e
  generalize c.generateKey force e = r at hg ⊢
  intro hr
  cases hg with
  | @refused c' err hst hc =>
    refine ⟨?_, hst, fun _ => ⟨err, rfl⟩⟩
    unfold Host.Running Host.slot at hr ⊢
    rw [hc] at hr
    exact hr
  | printed hp =>
    have hpath := keygen_path (S := .only (· = .keygen)) c force e.any (fun _ _ => rfl) (Scope.only_writes _).toKeyWrites
    exact ⟨path_running nofun hpath ht hr, keygen_steady c force e, fun h => by rw [hp] at h; cases h⟩
  | @failed c' err _ hreset _ =>
    have hslot := resetEnrollment_slot hs hreset
    have htc : Truthful c'.host := by
      have hp := resetEnrollment_path (S := .only fun _ => True) c e.any (fun _ => trivial) (Scope.only_writes _)
      rw [hreset] at hp
      exact hp.inv (I := Truthful) (fun u op _ hu => step_truthful hu op) ht
    have hpath := keygen_path (S := .only (· = .keygen)) c' force e.any (fun _ _ => rfl) (Scope.only_writes _).toKeyWrites
    exact (not_running_of_empty hslot (path_running nofun hpath htc hr)).elim
  | @replaced c' pub _ hreset _ =>
    have hsess : (c'.keygen force e).1.session = true :=
      ((keygen_steady c' force e).session.trans (resetEnrollment_call hreset).2).trans hs
    exact (not_running_of_empty (invalidate_slot e.again hsess) hr).elim

/-- A section that leaves phone_key_started and starts no presence. -/
theorem Steady.idle {c' : Core} {P : Cmd → Prop} (hs : Steady c c') (hP : ¬ P .presenceStart) (hp : (Scope.only P).Path c.host c'.host)
    (ht : Truthful c.host) (hi : c.Idle) : c'.Idle := fun hf hr => hi (hs.phoneKeyStarted ▸ hf) (path_running hP hp ht hr)

theorem run_idle (K : Checks) (ht : Truthful c.host) (hi : c.Idle) (cmd : Cmd) (args : List String) (e : SectionEnv) :
    (c.run K cmd args e).1.Idle := by
  refine (run_steady K c cmd args e).idle (P := fun x => isKnownCommand x = true) (by decide) ?_ ht hi
  exact run_path K c e.any fun hk _ => hk

theorem pair_idle (ht : Truthful c.host) (hn : c.session = false → c.host.slot = none) (hi : c.Idle) {e : SectionEnv}
    (hok : c.StopHeeded e.stop) : (c.pairSection e).1.Idle := by
  rcases pairSection_rest (S := .only (· = .pair)) c e.any (fun _ _ => rfl) (Scope.only_writes _) with he | hp
  · rw [he]
    exact hi
  · have hstop := (stopPhoneKeyLocked_path (S := .only fun _ => True) c e.stop.any fun _ => trivial).inv (I := Truthful)
      (fun u op _ hu => step_truthful hu op) ht
    exact fun _ hr => stop_idle ht hn hi hok (path_running nofun hp hstop hr)

theorem advance_idle (K : Checks) (ht : Truthful c.host) (hn : c.session = false → c.host.slot = none) (hw : c.Wanted) (hi : c.Idle)
    {e : SectionEnv} {p : Pending} (hok : c.Heeded e p) : (advance K c e p).1.Idle := by
  cases hs : c.session with
  | false =>
    have hp := advance_path K (S := .silent) c e.any (fun _ _ h => absurd h (Bool.eq_false_iff.1 hs)) Scope.silent_writes p
    exact fun _ => not_running_of_empty (path_empty hp (hn hs))
  | true =>
    cases p with
    | begun op =>
      cases op with
      | run cmd args => exact run_idle K ht hi cmd args e
      | generateKey force =>
        intro hf hr
        obtain ⟨hrun, hst, _⟩ := generateKey_running ht hs force e hr
        exact hi (hst.phoneKeyStarted ▸ hf) hrun
      | pair =>
        rw [advance_pair]
        exact pair_idle ht hn hi hok
      | startPhoneKey => exact startPhoneKey_idle ht hi hok
      | stopPhoneKey => exact fun _ => stop_idle ht hn hi hok
      | handleResume =>
        refine fun _ => not_running_of_empty ?_
        show (c.handleResumeSection e).host.slot = none
        exact invalidate_slot e.invalidating (by rw [clearEvents_eq]; exact hs)
      | setConfig r =>
        rw [advance_setConfig]
        rcases setConfigSection_slot hs r e with ⟨_, hst⟩ | ⟨_, hslot⟩
        · have hp := setConfigSection_path (S := .only (· = .presenceStop)) c r e.any (fun _ => rfl) (Scope.only_writes _)
          exact hst.idle nofun hp ht hi
        · exact fun _ => not_running_of_empty hslot
      | shareDestination text =>
        have hp := shareDestination_path K (S := .only (· = .navigate)) c text e.any fun _ _ => rfl
        exact (shareDestination_steady K c text e).idle nofun hp ht hi
    | starting => exact startPhoneKey_idle ht hi hok
    | popped x => exact hi
    | judged x due =>
      rw [advance_judged]
      exact hi
    | stopped x =>
      rw [advance_stopped]
      rcases pollGate_cases c e.invalidating with ⟨hp, hwhy⟩ | ⟨hp, _⟩
      · rw [hp]
        refine fun _ hr => hi ?_ hr
        cases hst : c.phoneKeyStarted with
        | false => rfl
        | true =>
          obtain ⟨he, ht⟩ := hw hst
          rcases hwhy with hoff | ⟨t, hretry, _⟩
          · rw [he] at hoff
            cases hoff
          · rw [ht] at hretry
            cases hretry
      · rw [hp]
        exact fun _ => not_running_of_empty (invalidate_slot e.invalidating hs)
    | restarting x => exact startPhoneKey_idle ht hi hok

end

end Core

/-! ## Runs -/

/-- Neither of the two steps. -/
def System.Heeded (y : System) (ev : Event) : Prop :=
  ∀ i e p, ev = .advance i e → y.calls[i]? = some p → y.core.Heeded e p

structure System.Agreed (y : System) : Prop where
  wanted : y.core.Wanted
  idle : y.core.Idle

theorem step_agreed {K : Checks} {y : System} (ht : Truthful y.core.host) (hc : y.Current 0) (hy : y.Agreed) {ev : Event}
    (hok : y.Heeded ev) : (y.step K ev).Agreed := by
  cases ev with
  | move m => exact ⟨hy.wanted, fun hf hr => hy.idle hf ((move_same y.core.host m).running hr)⟩
  | call op =>
    unfold System.step
    dsimp only
    split <;> exact ⟨hy.wanted, hy.idle⟩
  | poll =>
    unfold System.step
    dsimp only
    split
    · have hs := Core.pollEvent_steady y.core
      have hp : (Scope.only (· = Cmd.navigate)).Path y.core.host y.core.pollEvent.1.host := Core.pollEvent_path _
      exact ⟨hs.wanted hy.wanted, hs.idle nofun hp ht hy.idle⟩
    · exact hy
  | advance i e =>
    cases hp : y.calls[i]? with
    | none =>
      rw [show y.step K (.advance i e) = y by simp only [System.step, hp]]
      exact hy
    | some p =>
      have hcore : (y.step K (.advance i e)).core = (advance K y.core e p).1 := by simp only [System.step, hp]
      refine ⟨?_, ?_⟩
      · rw [hcore]
        exact Core.advance_wanted K hy.wanted e p
      · rw [hcore]
        exact Core.advance_idle K ht hc.noSession hy.wanted hy.idle (hok i e p rfl hp)
  | drop e =>
    unfold System.step
    dsimp only
    split
    · exact ⟨Core.wanted_of_stopped (Core.drop_ended y.core e).phoneKeyStarted,
        fun _ => not_running_of_empty (drop_slot hc.noSession e)⟩
    · exact hy
  | new backend unreadable fault =>
    unfold System.step
    dsimp only
    split
    · exact hy
    · split
      · exact ⟨hy.wanted, hy.idle⟩
      · rename_i heq
        unfold Core.new at heq
        split at heq
        · cases heq
        · cases heq
          exact ⟨Core.wanted_of_stopped rfl, fun _ => not_running_of_empty rfl⟩

theorem agreed {K : Checks} {y : System} (h : (systems K).Reach System.Heeded y) : y.Agreed := by
  refine h.inv_of (J := fun y => Truthful y.core.host ∧ y.Current 0) (fun y hy => ⟨truthful (host_reached hy), current hy⟩) ?_
    fun y ev hJ hy hok => step_agreed hJ.1 hJ.2 hy hok
  rintro y ⟨w, rfl⟩
  exact ⟨Core.wanted_of_stopped rfl, fun _ => not_running_of_empty rfl⟩

/-- presence_active is true only of a started child. In a run without the two steps presence
    runs nowhere while phone_key_started is false, and a set_config that goes through, a
    generate_key that gets to replace the key and a stop leave none running. -/
theorem presence_flags {K : Checks} {y : System} (h : (systems K).Reach (fun _ _ => True) y) :
    (y.core.host.client.presenceActive = true → y.core.host.Started) ∧
    ((systems K).Reach System.Heeded y →
      (y.core.phoneKeyStarted = false → ¬ y.core.host.Running) ∧
      (∀ r e, (y.core.setConfigSection r e).2.toBool = true → ¬ (y.core.setConfigSection r e).1.host.Running) ∧
      (∀ force e, (force || y.core.disk.priv.isNone) = true → (∀ err, (y.core.generateKey force e).2 ≠ .error (.persist err)) →
        ¬ (y.core.generateKey force e).1.host.Running) ∧
      ∀ e, y.core.StopHeeded e → ¬ (y.core.stopPhoneKeyLocked e).host.Running) := by
  have ht := truthful (host_reached h)
  have hn := (current h).noSession
  refine ⟨ht.flag, fun hh => ?_⟩
  have hi := (agreed hh).idle
  refine ⟨hi, fun r e hok hr => ?_, fun force e hrep hno hr => ?_, fun e hok => Core.stop_idle ht hn hi hok⟩
  · cases hs : y.core.session with
    | true =>
      rcases Core.setConfigSection_slot hs r e with ⟨hf, _⟩ | ⟨_, hslot⟩
      · rw [hf] at hok
        cases hok
      · exact not_running_of_empty hslot hr
    | false =>
      have hp := Core.setConfigSection_path (S := .silent) y.core r e.any (fun h => absurd h (Bool.eq_false_iff.1 hs)) Scope.silent_writes
      exact not_running_of_empty (path_empty hp (hn hs)) hr
  · cases hs : y.core.session with
    | true =>
      obtain ⟨_, _, hper⟩ := Core.generateKey_running ht hs force e hr
      obtain ⟨err, he⟩ := hper hrep
      exact hno err he
    | false =>
      have hp := Core.generateKey_path (S := .silent) y.core force e.any (fun _ _ _ h => absurd h (Bool.eq_false_iff.1 hs))
        Scope.silent_writes
      exact not_running_of_empty (path_empty hp (hn hs)) hr

/-! ## Examples -/

def presenceStarting : List Event := [.new (some .bluez) false none, .call .startPhoneKey, .advance 0 startAnswered]

def presenceOn : System := (systems anyArgs).run (.start pairedWorld) presenceStarting

theorem presenceOn_heeded : (systems anyArgs).Reach System.Heeded presenceOn := by
  refine Machine.Reach.run (M := systems anyArgs) (.init ⟨pairedWorld, rfl⟩) presenceStarting ⟨?_, ?_, ?_, trivial⟩
  all_goals
    intro i e p he hp
    cases he
  obtain rfl := Option.some.inj ((show ([Pending.begun .startPhoneKey])[0]? = some p from hp).symm)
  exact fun hs => absurd hs (by decide)

theorem presenceOn_agrees : presenceOn.core.host.client.presenceActive = true ∧ presenceOn.core.host.Started ∧
    ¬ (presenceOn.core.stopPhoneKeyLocked { run := answered }).host.Running := by
  have h := presence_flags (presenceOn_heeded.mono fun _ _ _ => trivial)
  have hok : (presenceOn.core.host.run (presenceOn.core.call .presenceStop []) answered).2.toOption.map RunOutcome.ok = some true := by
    decide
  refine ⟨by decide, h.1 (by decide), (h.2 presenceOn_heeded).2.2.2 { run := answered } fun _ _ _ out hout => ?_⟩
  rw [hout] at hok
  exact Option.some.inj hok

/-- The child answers the second request, a presence-stop, with ok = false. -/
def stopRefused : SectionEnv :=
  { stop := { run := { waiting := [.send (.response { id := "2", stderr := "unknown command" }), .read] } } }

def presenceUnstopped : System := (systems anyArgs).run presenceOn [.call .stopPhoneKey, .advance 0 stopRefused]

/-- The child's socket closes, the key file goes, and start_phone_key runs once more. -/
def presenceOrphaned : System :=
  (systems anyArgs).run presenceOn [.move .hangup, .move .markDead, .move .unlinkKey, .call .startPhoneKey, .advance 0 startAnswered]

theorem not_ended_of_nil {a : Ack} {sent : List Entry} (h : sent = []) : ¬ a.ended sent := by
  rintro ⟨x, hx, _⟩
  rw [h] at hx
  cases hx

/-- phone_key_started is false, and the child that answered the presence-start has neither
    answered a presence-stop nor reported an end. -/
theorem presence_left_on :
    (presenceUnstopped.core.phoneKeyStarted = false ∧ presenceUnstopped.core.host.isAlive = true ∧
      presenceUnstopped.core.host.Running) ∧
    (presenceOrphaned.core.phoneKeyStarted = false ∧ presenceOrphaned.core.host.Running) ∧
    ¬ ∀ y, (systems anyArgs).Reach (fun _ _ => True) y → y.core.phoneKeyStarted = false → ¬ y.core.host.Running := by
  have hleft : presenceUnstopped.core.host.Running :=
    ⟨(1, ⟨pairedConfig.vin, 20, 5⟩), rfl, ⟨1, .presenceStart, 0⟩, by decide, rfl, not_ended_of_nil (by decide)⟩
  have horphan : presenceOrphaned.core.host.Running :=
    ⟨(1, ⟨pairedConfig.vin, 20, 5⟩), rfl, ⟨1, .presenceStart, 0⟩, by decide, rfl, not_ended_of_nil (by decide)⟩
  refine ⟨⟨by decide, by decide, hleft⟩, ⟨by decide, horphan⟩, fun h => ?_⟩
  have hr : (systems anyArgs).Reach (fun _ _ => True) presenceUnstopped :=
    (presenceOn_heeded.mono fun _ _ _ => trivial).run _ (.of_forall (fun _ _ => trivial) _ _)
  exact h _ hr (by decide) hleft

end ElectricEel.Control
