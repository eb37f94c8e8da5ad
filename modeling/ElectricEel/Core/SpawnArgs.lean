/-
  ElectricEel.Core.SpawnArgs — whom the core's requests reach (helper/src/core.rs).

  Every section passes the VIN and the timeouts of the configuration in memory, and only
  set_config changes them; it drops the child before it releases the gate. So does a
  generate_key that replaces the key, before its own request, and after it if it succeeded.

  Proved: the child in the slot always has the configuration's spawn arguments, and each
  line goes to a child that has them; no child spawned before set_config put its
  configuration in force, or before a replacing generate_key returned the key (or, where it
  failed, began), gets a line again (`requests_addressed`). set_config may start presence
  before it returns, on a child that stays, and so does the child of a generate_key that
  fails behind its request (`restarted_child_stays`).
-/
import ElectricEel.Client.Slot
import ElectricEel.Core.System

namespace ElectricEel.Control

open Lib Commands Wire Config Client

/-- What a child spawned now gets. -/
def Core.spawnArgs (c : Core) : SpawnArgs := ⟨c.cfg.vin, c.cfg.connectTimeoutSec, c.cfg.commandTimeoutSec⟩

/-! ## Paths -/

/-- Only calls with these spawn arguments. -/
def Scope.passing (a : SpawnArgs) : Scope := { moves := fun _ => True, calls := fun c => c.spawnArgs = a, files := fun _ _ => True }

theorem Scope.passing_writes (a : SpawnArgs) : (Scope.passing a).Writes := ⟨⟨fun _ _ => trivial, fun _ _ _ => trivial⟩, fun _ _ => trivial⟩

/-- No calls. -/
def Scope.silent : Scope := { moves := fun _ => True, calls := fun _ => False, files := fun _ _ => True }

theorem Scope.silent_writes : Scope.silent.Writes := ⟨⟨fun _ _ => trivial, fun _ _ _ => trivial⟩, fun _ _ => trivial⟩

theorem path_addressed {a : SpawnArgs} {floor : Nat} {s t : Host} (p : (Scope.passing a).Path s t)
    (hslot : ∀ x ∈ s.slot, x.2 = a ∧ floor < x.1) (hg : floor ≤ s.client.gens) : Addressed a floor s t := by
  refine p.inv (I := Addressed a floor s) (fun u op hop hu => step_addressed hu fun c e he => ?_) (.start hslot hg)
  rw [he] at hop
  exact hop.1

/-- Without a call an empty slot stays empty. -/
theorem path_empty {s t : Host} (p : Scope.silent.Path s t) (h : s.slot = none) : t.slot = none := by
  refine p.inv (I := fun t => t.slot = none) (fun u op hop hu => ?_) h
  cases op with
  | run c e => exact hop.1.elim
  | invalidate during => exact slot_none.2 (invalidate_child u during)
  | move m => exact (move_same u m).slot.trans hu
  | pollEvent | clearEvents | files => exact hu

/-! ## What sections do to the spawn arguments -/

namespace Core

theorem Steady.spawnArgs {c c' : Core} (h : Steady c c') : c'.spawnArgs = c.spawnArgs := by
  unfold Core.spawnArgs
  rw [h.cfg]

theorem Kept.spawnArgs {c c' : Core} (h : Kept c c') : c'.spawnArgs = c.spawnArgs := by
  unfold Core.spawnArgs
  rw [h.cfg]

theorem invalidate_slot {c : Core} (during : List Move) (h : c.session = true) : (c.invalidate during).host.slot = none := by
  rw [invalidate_eq, h]
  exact slot_none.2 (invalidate_child c.host during)

theorem spawnArgs_of_call {c c' : Core} (h : c'.call = c.call) : c'.spawnArgs = c.spawnArgs :=
  congrArg Call.spawnArgs (congrFun (congrFun h .presenceStop) [])

theorem generateKey_spawnArgs (c : Core) (force : Bool) (e : SectionEnv) : (c.generateKey force e).1.spawnArgs = c.spawnArgs := by
  have hg := generated c force e
  generalize c.generateKey force e = r at hg ⊢
  cases hg with
  | refused err hs _ => exact hs.spawnArgs
  | printed _ => exact (keygen_steady c force e).spawnArgs
  | @failed c' err _ hr _ => exact (keygen_steady c' force e).spawnArgs.trans (spawnArgs_of_call (resetEnrollment_call hr).1)
  | @replaced c' pub _ hr _ =>
    exact ((keygen_steady c' force e).trans (invalidate_steady _ _)).spawnArgs.trans (spawnArgs_of_call (resetEnrollment_call hr).1)

theorem persistPaired_spawnArgs (c : Core) (stdout : Text) (e : SectionEnv) : (c.persistPaired stdout e).1.spawnArgs = c.spawnArgs := by
  have hs := (saveConfig_steady c { c.cfg with vinState := .paired } e.save).spawnArgs
  unfold persistPaired
  dsimp only
  split
  · rename_i heq
    rwa [heq] at hs
  · rfl

theorem pairSection_spawnArgs (c : Core) (e : SectionEnv) : (c.pairSection e).1.spawnArgs = c.spawnArgs := by
  have hstop : ((c.stopPhoneKeyLocked e.stop).moves e.mid).spawnArgs = c.spawnArgs := by
    rw [stopPhoneKeyLocked_eq]
    rfl
  have hr := (sessionRun_steady ((c.stopPhoneKeyLocked e.stop).moves e.mid) .pair
    [World.publicKeyPath, "owner", "android_device"] e.run).spawnArgs.trans hstop
  unfold pairSection
  split
  · rfl
  split
  · rfl
  split
  · rfl
  dsimp only
  split
  · exact hstop
  split
  · exact hstop
  split
  · rename_i heq
    rwa [heq] at hr
  · rename_i heq
    rw [heq] at hr
    split
    · exact hr
    · exact (persistPaired_spawnArgs _ _ e).trans hr

/-- A set_config that goes through leaves no child. -/
theorem setConfigSection_slot {c : Core} (h : c.session = true) (r : ConfigRequest) (e : SectionEnv) :
    ((c.setConfigSection r e).2.toBool = false ∧ Steady c (c.setConfigSection r e).1) ∨
    (c.setConfigSection r e).2.toBool = true ∧ (c.setConfigSection r e).1.host.slot = none := by
  have hs := saveConfig_steady c (c.candidate r) e.save
  unfold setConfigSection
  split
  · exact .inl ⟨rfl, .refl c⟩
  dsimp only
  split
  · rename_i heq
    rw [heq] at hs
    exact .inl ⟨rfl, hs⟩
  · rename_i heq
    rw [heq] at hs
    refine .inr ⟨rfl, invalidate_slot _ ?_⟩
    rw [stopPhoneKeyLocked_eq]
    exact hs.session.trans h

end Core

open ElectricEel.Control.Core in
theorem advance_session (K : Checks) (c : Core) (e : SectionEnv) (p : Pending) : (advance K c e p).1.session = c.session := by
  cases p with
  | begun op =>
    cases op with
    | run cmd args => exact (run_steady K c cmd args e).session
    | generateKey force => rcases generateKey_ended c force e with h | h <;> exact h.session
    | pair =>
      rw [advance_pair]
      rcases pairSection_ended c e with ⟨h, _⟩ | h
      · rw [h]
      · exact h.session
    | startPhoneKey => exact (startPhoneKey_kept c e.start).session
    | stopPhoneKey => exact (stopPhoneKeyLocked_ended c e.stop).session
    | handleResume =>
      show (c.handleResumeSection e).session = _
      rw [handleResumeSection_eq]
    | setConfig r =>
      rw [advance_setConfig]
      rcases setConfigSection_ended c r e with ⟨_, _, h⟩ | h <;> exact h.session
    | shareDestination text => exact (shareDestination_steady K c text e).session
  | starting => exact (startPhoneKey_kept c e.start).session
  | popped x => rfl
  | judged x due => rw [advance_judged]
  | stopped x =>
    rw [advance_stopped]
    rcases pollGate_cases c e.invalidating with ⟨h, _⟩ | ⟨h, _⟩
    · rw [h]
    · rw [h]
      exact (invalidate_steady _ _).session
  | restarting x => exact (startPhoneKey_kept c e.start).session

open ElectricEel.Control.Core in
/-- Only set_config changes the spawn arguments. -/
theorem advance_same_args (K : Checks) (c : Core) (e : SectionEnv) {p : Pending} (hp : ∀ r, p ≠ .begun (.setConfig r)) :
    (advance K c e p).1.spawnArgs = c.spawnArgs := by
  cases p with
  | begun op =>
    cases op with
    | run cmd args => exact (run_steady K c cmd args e).spawnArgs
    | generateKey force => exact generateKey_spawnArgs c force e
    | pair =>
      rw [advance_pair]
      exact pairSection_spawnArgs c e
    | startPhoneKey => exact (startPhoneKey_kept c e.start).spawnArgs
    | stopPhoneKey =>
      show (c.stopPhoneKeyLocked e.stop).spawnArgs = _
      rw [stopPhoneKeyLocked_eq]
      rfl
    | handleResume =>
      show (c.handleResumeSection e).spawnArgs = _
      rw [handleResumeSection_eq]
      rfl
    | setConfig r => exact absurd rfl (hp r)
    | shareDestination text => exact (shareDestination_steady K c text e).spawnArgs
  | starting => exact (startPhoneKey_kept c e.start).spawnArgs
  | popped x => rfl
  | judged x due =>
    rw [advance_judged]
  | stopped x =>
    rw [advance_stopped]
    rcases pollGate_cases c e.invalidating with ⟨h, _⟩ | ⟨h, _⟩
    · rw [h]
      rfl
    · rw [h]
      exact (invalidate_steady _ _).spawnArgs
  | restarting x => exact (startPhoneKey_kept c e.start).spawnArgs

open ElectricEel.Control.Core in
/-- The spawn arguments stay, or there is no child left with the old ones. -/
theorem advance_spawnArgs (K : Checks) {c : Core} (hs : c.session = true) (e : SectionEnv) (p : Pending) :
    (advance K c e p).1.spawnArgs = c.spawnArgs ∨ (advance K c e p).1.host.slot = none := by
  by_cases hp : ∃ r, p = .begun (.setConfig r)
  · obtain ⟨r, rfl⟩ := hp
    rw [advance_setConfig]
    rcases setConfigSection_slot hs r e with ⟨_, h⟩ | ⟨_, h⟩
    · exact .inl h.spawnArgs
    · exact .inr h
  · exact .inl (advance_same_args K c e fun r he => hp ⟨r, he⟩)

/-! ## Replacing the key -/

namespace Core

/-- Up to this one no child is used any more once the section is through: set_config went
    through, or a replacing generate_key returned the key, or failed after its reset. -/
def retires (c : Core) (e : SectionEnv) : Pending → Nat
  | .begun (.setConfig r) => if (c.setConfigSection r e).2.toBool then (c.setConfigSection r e).1.host.client.gens else 0
  | .begun (.generateKey force) =>
    if force || c.disk.priv.isNone then
      match (c.generateKey force e).2 with
      | .ok _ => (c.generateKey force e).1.host.client.gens
      | .error (.persist _) => 0
      | .error _ => c.host.client.gens
    else 0
  | _ => 0

theorem resetEnrollment_slot {c c' : Core} (h : c.session = true) {e : SectionEnv} (hr : c.resetEnrollment e = (c', .ok ())) :
    c'.host.slot = none := by
  have hs := saveConfig_steady c { c.cfg with vinState := .unpaired } e.save
  unfold resetEnrollment at hr
  dsimp only at hr
  split at hr
  · cases hr
  · rename_i heq
    rw [heq] at hs
    cases hr
    refine invalidate_slot _ ?_
    rw [stopPhoneKeyLocked_eq]
    exact hs.session.trans h

/-- A child left by a replacing generate_key is one it spawned after its reset, and then it failed. -/
theorem generateKey_slot {c : Core} (h : c.session = true) (force : Bool) (e : SectionEnv) :
    ∀ x ∈ (c.generateKey force e).1.host.slot, c.retires e (.begun (.generateKey force)) < x.1 ∨
      c.retires e (.begun (.generateKey force)) = 0 := by
  have hg := generated c force e
  unfold retires
  dsimp only
  generalize c.generateKey force e = r at hg ⊢
  intro x hx
  cases hg with
  | refused err hs _ =>
    refine .inr ?_
    dsimp only
    split <;> rfl
  | printed hp => exact .inr (if_neg (by rw [hp]; exact Bool.false_ne_true))
  | @failed c' err hf hr hk =>
    have hslot := resetEnrollment_slot h hr
    have hg : c.host.client.gens ≤ c'.host.client.gens := by
      have hp := path_grown (resetEnrollment_path (S := .any fun _ => True) c e.any (fun _ => trivial) (Scope.any_writes _))
      rw [hr] at hp
      exact hp.gens
    have hp := keygen_path (S := .passing c'.spawnArgs) c' force e.any (fun _ _ => rfl) (Scope.passing_writes _).toKeyWrites
    have ha := path_addressed hp (fun y hy => by rw [hslot] at hy; cases hy) (Nat.le_refl c'.host.client.gens)
    refine .inl ?_
    rw [if_pos hf]
    have hx := (ha.slot x hx).2
    dsimp only
    split
    · rename_i heq
      cases heq
    · exact Nat.zero_lt_of_lt hx
    · exact Nat.lt_of_le_of_lt hg hx
  | @replaced c' pub hf hr hk =>
    have hsess : (c'.keygen force e).1.session = true :=
      ((keygen_steady c' force e).session.trans (resetEnrollment_call hr).2).trans h
    rw [invalidate_slot e.again hsess] at hx
    cases hx

end Core

/-! ## Runs -/

/-- The event does not build a new core. -/
def Event.sameCore : Event → Bool
  | .new .. => false
  | _ => true

/-- The lines the event has the client write. -/
def System.wrote (K : Checks) (y : System) (ev : Event) : List Target :=
  (y.step K ev).core.host.client.targets.drop y.core.host.client.targets.length

/-- The child in the slot has the configuration's spawn arguments and came after the first
    `floor` ones; there is none where there is no session or no core. -/
structure System.Current (floor : Nat) (y : System) : Prop where
  slot : ∀ x ∈ y.core.host.slot, x.2 = y.core.spawnArgs ∧ floor < x.1
  gens : floor ≤ y.core.host.client.gens
  noSession : y.core.session = false → y.core.host.slot = none
  down : y.up = false → y.core.host.slot = none ∧ y.calls = []

section

variable {K : Checks} {floor : Nat} {y : System}

theorem wrote_of_addressed {a : SpawnArgs} {ev : Event} (h : Addressed a floor y.core.host (y.step K ev).core.host) :
    ∀ x ∈ y.wrote K ev, x.spawnArgs = a ∧ x.call.spawnArgs = a ∧ floor < x.gen := by
  obtain ⟨l, hl, hall⟩ := h.targets
  unfold System.wrote
  rw [hl, List.drop_left]
  exact hall

theorem System.Current.wrote (h : y.Current floor) (ev : Event) :
    ∀ x ∈ y.wrote K ev, x.spawnArgs = y.core.spawnArgs ∧ x.call.spawnArgs = y.core.spawnArgs ∧ floor < x.gen := by
  rcases y.step_path K (S := .passing y.core.spawnArgs) ev.any (fun _ _ _ => rfl) (Scope.passing_writes _) with hp | ⟨b, hf⟩
  · exact wrote_of_addressed (path_addressed hp h.slot h.gens)
  · unfold System.wrote
    rw [hf]
    exact fun x hx => by simp [SessionClient.new] at hx

/-- An event that keeps the core. -/
theorem System.Current.keep {y' : System} (ha : Addressed y.core.spawnArgs floor y.core.host y'.core.host)
    (hargs : y'.core.spawnArgs = y.core.spawnArgs ∨ y'.core.host.slot = none) (hs : y'.core.session = y.core.session)
    (hn : y.core.session = false → y'.core.host.slot = none)
    (hd : y'.up = false → y'.core.host.slot = none ∧ y'.calls = []) : y'.Current floor where
  slot x hx := by
    rcases hargs with he | he
    · rw [he]
      exact ha.slot x hx
    · rw [he] at hx
      cases hx
  gens := ha.gens
  noSession hf := hn (hs ▸ hf)
  down := hd

theorem advance_current (h : y.Current floor) {i : Nat} {p : Pending} (hp : y.calls[i]? = some p) (e : SectionEnv) :
    (y.step K (.advance i e)).Current floor := by
  have hup : y.up = true := by
    cases hup : y.up with
    | true => rfl
    | false =>
      rw [(h.down hup).2] at hp
      cases hp
  have hs : y.step K (.advance i e) =
      { y with core := (advance K y.core e p).1, calls := y.calls.eraseIdx i ++ (advance K y.core e p).2.toList } := by
    simp only [System.step, hp]
  have ha := path_addressed (advance_path K (S := .passing y.core.spawnArgs) y.core e.any (fun _ _ _ => rfl)
    (Scope.passing_writes _) p) h.slot h.gens
  have hn : y.core.session = false → (advance K y.core e p).1.host.slot = none := fun hf =>
    path_empty (advance_path K (S := .silent) y.core e.any (fun _ _ hs => absurd hs (Bool.eq_false_iff.1 hf)) Scope.silent_writes p)
      (h.noSession hf)
  rw [hs]
  refine .keep ha ?_ (advance_session K y.core e p) hn fun hd => ?_
  · cases hsess : y.core.session with
    | true => exact advance_spawnArgs K hsess e p
    | false => exact .inr (hn hsess)
  · rw [hup] at hd
    cases hd

theorem drop_slot {c : Core} (hn : c.session = false → c.host.slot = none) (e : SectionEnv) : (c.drop e).host.slot = none := by
  unfold Core.drop
  cases hs : c.session with
  | true =>
    refine Core.invalidate_slot _ ?_
    rw [Core.stopPhoneKeyLocked_eq]
    exact hs
  | false =>
    have hp : Scope.silent.Path c.host (c.drop e).host :=
      Core.drop_path c e.any fun ht => absurd ht (Bool.eq_false_iff.1 hs)
    exact path_empty hp (hn hs)

theorem System.Current.step (h : y.Current floor) {ev : Event} (hnew : floor = 0 ∨ ev.sameCore = true) :
    (y.step K ev).Current floor := by
  have hstart := Addressed.start h.slot h.gens
  cases ev with
  | move m =>
    have hm := move_same y.core.host m
    exact .keep (hstart.same hm) (.inl rfl) rfl (fun hf => hm.slot.trans (h.noSession hf))
      fun hd => ⟨hm.slot.trans (h.down hd).1, (h.down hd).2⟩
  | call op =>
    unfold System.step
    dsimp only
    split
    · rename_i hup
      exact ⟨h.slot, h.gens, h.noSession, fun hd => by rw [hup] at hd; cases hd⟩
    · exact h
  | poll =>
    unfold System.step
    dsimp only
    split
    · rename_i hup
      have hp : (Scope.passing y.core.spawnArgs).Path y.core.host y.core.pollEvent.1.host := Core.pollEvent_path _
      have hsilent : Scope.silent.Path y.core.host y.core.pollEvent.1.host := Core.pollEvent_path _
      have hs := Core.pollEvent_steady y.core
      exact .keep (path_addressed hp h.slot h.gens) (.inl hs.spawnArgs) hs.session
        (fun hf => path_empty hsilent (h.noSession hf)) fun hd => by rw [hup] at hd; cases hd
    · exact h
  | advance i e =>
    cases hp : y.calls[i]? with
    | none =>
      rw [show y.step K (.advance i e) = y by simp only [System.step, hp]]
      exact h
    | some p => exact advance_current h hp e
  | drop e =>
    unfold System.step
    dsimp only
    split
    · rename_i hg
      have hslot := drop_slot h.noSession e
      have hp := path_addressed (Core.drop_path (S := .passing y.core.spawnArgs) y.core e.any fun _ => rfl) h.slot h.gens
      exact .keep hp (.inr hslot) (Core.drop_ended y.core e).session (fun _ => hslot)
        fun _ => ⟨hslot, List.isEmpty_iff.1 (Bool.and_eq_true_iff.1 hg).2⟩
    · exact h
  | new backend unreadable fault =>
    unfold System.step
    dsimp only
    split
    · exact h
    · rename_i hup
      have hd := h.down (Bool.eq_false_iff.2 hup)
      split
      · exact ⟨h.slot, h.gens, h.noSession, fun _ => hd⟩
      · rename_i heq
        obtain rfl : floor = 0 := hnew.resolve_right Bool.false_ne_true
        unfold Core.new at heq
        split at heq
        · cases heq
        · cases heq
          exact ⟨fun _ => nofun, Nat.zero_le _, fun _ => rfl, nofun⟩

end

theorem current {K : Checks} {ok : System → Event → Prop} {y : System} (h : (systems K).Reach ok y) : y.Current 0 := by
  refine h.inv (I := System.Current 0) ?_ fun y ev hy _ => hy.step (.inl rfl)
  rintro y ⟨w, rfl⟩
  exact ⟨fun _ => nofun, Nat.zero_le _, fun _ => rfl, fun _ => ⟨rfl, rfl⟩⟩

theorem current_run {K : Checks} {floor : Nat} {y : System} (h : y.Current floor) {evs : List Event}
    (hevs : ∀ ev ∈ evs, ev.sameCore = true) : ((systems K).run y evs).Current floor := by
  induction evs generalizing y with
  | nil => exact h
  | cons ev evs ih =>
    exact ih (h.step (.inr (hevs ev List.mem_cons_self))) fun ev' hm => hevs ev' (List.mem_cons_of_mem _ hm)

theorem Core.retires_le (c : Core) (K : Checks) (e : SectionEnv) (p : Pending) :
    c.retires e p ≤ (advance K c e p).1.host.client.gens := by
  have hg := (path_grown (advance_path K (S := .any fun _ => True) c e.any (fun _ _ _ => trivial) (Scope.any_writes _) p)).gens
  unfold Core.retires
  split
  · rw [advance_setConfig]
    split
    · exact Nat.le_refl _
    · exact Nat.zero_le _
  · split
    · split
      · exact Nat.le_refl _
      · exact Nat.zero_le _
      · exact hg
    · exact Nat.zero_le _
  · exact Nat.zero_le _

theorem retired {K : Checks} {y : System} (h : y.Current 0) {i : Nat} {p : Pending} (hp : y.calls[i]? = some p) (e : SectionEnv) :
    (y.step K (.advance i e)).Current (y.core.retires e p) := by
  have hstep : (y.step K (.advance i e)).Current 0 := h.step (.inl rfl)
  have hcore : (y.step K (.advance i e)).core = (advance K y.core e p).1 := by simp only [System.step, hp]
  refine ⟨fun x hx => ⟨(hstep.slot x hx).1, ?_⟩, ?_, hstep.noSession, hstep.down⟩
  · have hpos := (hstep.slot x hx).2
    have hsess : y.core.session = true := by
      cases hs : y.core.session with
      | true => rfl
      | false =>
        rw [hstep.noSession (by rw [hcore, advance_session]; exact hs)] at hx
        cases hx
    rw [hcore] at hx
    unfold Core.retires
    split
    · rename_i r
      rw [advance_setConfig] at hx
      rcases Core.setConfigSection_slot hsess r e with ⟨hf, _⟩ | ⟨_, hslot⟩
      · rw [hf, if_neg Bool.false_ne_true]
        exact hpos
      · rw [hslot] at hx
        cases hx
    · rename_i force
      rcases Core.generateKey_slot hsess force e x hx with hlt | hz
      · exact hlt
      · exact lt_of_eq_of_lt hz hpos
    · exact hpos
  · rw [hcore]
    exact y.core.retires_le K e p

/-- Every line goes to a child spawned with the configuration in memory, and none to a child
    a set_config or a replacing generate_key has retired. -/
theorem requests_addressed {K : Checks} {y : System} (h : (systems K).Reach (fun _ _ => True) y) :
    (∀ ev, ∀ x ∈ y.wrote K ev, x.spawnArgs = y.core.spawnArgs ∧ x.call.spawnArgs = y.core.spawnArgs) ∧
    ∀ i e p evs ev, y.calls[i]? = some p → (∀ ev' ∈ evs, ev'.sameCore = true) →
      ∀ x ∈ ((systems K).run (y.step K (.advance i e)) evs).wrote K ev, y.core.retires e p < x.gen := by
  refine ⟨fun ev x hx => ?_, fun i e p evs ev hp hevs x hx => ?_⟩
  · obtain ⟨ha, hc, _⟩ := (current h).wrote ev x hx
    exact ⟨ha, hc⟩
  · exact ((current_run (retired (current h) hp e) hevs).wrote ev x hx).2.2

/-- The same vehicle with other timeouts. -/
def slower : Core.ConfigRequest :=
  { vin := pairedConfig.vin, model := "model3", keyName := pairedConfig.keyName, connectTimeoutSec := 60, commandTimeoutSec := 20 }

def unlock : CoreCall := .run (.vendor .unlock) []

/-- Presence runs on the first child, and a set_config has begun. -/
def reconfiguring : System :=
  (systems anyArgs).run (.start pairedWorld)
    [.new (some .bluez) false none, .call .startPhoneKey, .advance 0 startAnswered, .call (.setConfig slower)]

theorem reconfiguring_reached : (systems anyArgs).Reach (fun _ _ => True) reconfiguring :=
  Machine.Reach.run (M := systems anyArgs) (.init ⟨pairedWorld, rfl⟩) _ (.of_forall (fun _ _ => trivial) _ _)

theorem slower_addressed :
    (((systems anyArgs).run (reconfiguring.step anyArgs (.advance 0 { stop := { run := answered } }))
      [.call unlock]).wrote anyArgs (.advance 1 { run := answered })).map Target.gen = [2] ∧
    ∀ x ∈ ((systems anyArgs).run (reconfiguring.step anyArgs (.advance 0 { stop := { run := answered } }))
      [.call unlock]).wrote anyArgs (.advance 1 { run := answered }),
      reconfiguring.core.retires { stop := { run := answered } } (.begun (.setConfig slower)) < x.gen := by
  have h := requests_addressed reconfiguring_reached
  exact ⟨by decide, h.2 0 { stop := { run := answered } } (.begun (.setConfig slower)) [.call unlock]
    (.advance 1 { run := answered }) rfl (by decide)⟩

/-- set_config has returned; the child it restarted presence on serves the next command. -/
def reconfigured : System :=
  (systems anyArgs).run reconfiguring [.advance 0 { stop := { run := answered } }, .advance 0 startAnswered, .call unlock]

/-- A generate_key that replaces the key has begun. -/
def rotating : System := (systems anyArgs).run (.start pairedWorld) [.new (some .bluez) false none, .call (.generateKey true)]

/-- The new public half cannot be written. -/
def unwritten : SectionEnv := { run := answered, pubSave := some .write }

def rotated : System := (systems anyArgs).run rotating [.advance 0 unwritten, .call unlock]

theorem rotating_reached : (systems anyArgs).Reach (fun _ _ => True) rotating :=
  Machine.Reach.run (M := systems anyArgs) (.init ⟨pairedWorld, rfl⟩) _ (.of_forall (fun _ _ => trivial) _ _)

theorem restarted_child_stays :
    ((reconfigured.calls = [.begun unlock] ∧ reconfigured.core.host.slot = some (2, ⟨pairedConfig.vin, 60, 20⟩) ∧
      (reconfigured.wrote anyArgs (.advance 0 { run := answered })).map Target.gen = [2]) ∧
    ¬ ∀ y r e e', (systems anyArgs).Reach (fun _ _ => True) y → y.calls = [.begun (.setConfig r)] →
      (y.core.setConfigSection r e).2.toBool = true →
      ∀ op ev, ∀ x ∈ ((systems anyArgs).run y [.advance 0 e, .advance 0 e', .call op]).wrote anyArgs ev,
        ((systems anyArgs).run y [.advance 0 e, .advance 0 e', .call op]).core.host.client.gens < x.gen) ∧
    (rotated.calls = [.begun unlock] ∧ (rotated.wrote anyArgs (.advance 0 { run := answered })).map Target.gen = [1]) ∧
    ¬ ∀ y e, (systems anyArgs).Reach (fun _ _ => True) y → y.calls = [.begun (.generateKey true)] →
      ∀ op ev, ∀ x ∈ ((systems anyArgs).run y [.advance 0 e, .call op]).wrote anyArgs ev,
        ((systems anyArgs).run y [.advance 0 e, .call op]).core.host.client.gens < x.gen := by
  refine ⟨⟨by decide, fun h => ?_⟩, by decide, fun h => ?_⟩
  · have hlt := h reconfiguring slower { stop := { run := answered } } startAnswered reconfiguring_reached (by decide) (by decide)
      unlock (.advance 0 { run := answered })
    exact absurd hlt (by decide)
  · have hlt := h rotating unwritten rotating_reached (by decide) unlock (.advance 0 { run := answered })
    exact absurd hlt (by decide)

end ElectricEel.Control
