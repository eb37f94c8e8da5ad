/-
  ElectricEel.Core.Persistence — the configuration in memory and the one in config.json
  (helper/src/core.rs, config.rs `save`, `write_atomic`).

  `Core.Agrees`: what `load` would read now is the configuration in memory. A save that
  succeeds is followed by the assignment, one that fails before the rename by neither; one
  that fails after the rename, at the directory, has replaced the file and is reported as
  an error all the same (`Core.Clean` is what rules it out).

  Proved: in every run whose saves are clean disk and memory agree in every state of a core
  whose migration was saved, and a call that returns a persist error has changed neither
  and stopped nothing (`disk_matches_memory`); without that the settings a call refused are
  the ones of the next start (`refused_settings_saved`).
-/
import ElectricEel.Client.OneRun
import ElectricEel.Core.System

namespace ElectricEel.Control

open Lib Commands Wire Config Client

/-! ## Who writes config.json -/

/-- Everything but the saves. -/
def Scope.sparing : Scope :=
  { moves := fun _ => True, calls := fun _ => True, files := fun w w' => w'.disk.config = w.disk.config }

theorem Scope.sparing_writes : Scope.sparing.KeyWrites where
  pub _ _ := rfl
  oneShot w force e := by
    show (Core.teslaKeygen w force e).1.disk.config = _
    unfold Core.teslaKeygen Core.teslaKeygenKey
    dsimp only
    grind [World.setPriv, World.setPub]

theorem step_config (s : Host) {op : Op} (h : Scope.sparing.Allows s op) : (s.step op).world.disk.config = s.world.disk.config := by
  cases op with
  | run c e => exact path_config (Host.run_path s c e.any)
  | invalidate during => exact path_config (Host.invalidate_path (K := fun _ => True) s fun _ _ => trivial)
  | move m => exact act_config s (.move m)
  | files w => exact h
  | pollEvent | clearEvents => rfl

/-- A path without a save leaves config.json alone. -/
theorem sparing_config {s t : Host} (p : Scope.sparing.Path s t) : t.world.disk.config = s.world.disk.config :=
  p.inv (I := fun t => t.world.disk.config = s.world.disk.config) (fun t _ ho h => (step_config t ho).trans h) rfl

namespace Core

variable {builds : Json → Bool}

/-! ## Agreement -/

def Agrees (builds : Json → Bool) (c : Core) : Prop := load builds false c.disk.config = .ok c.cfg

/-- What the section hands to `save`, if it gets there. -/
def target (c : Core) : Pending → Option Config
  | .begun (.generateKey force) => if force || c.disk.priv.isNone then some { c.cfg with vinState := .unpaired } else none
  | .begun .pair => some { c.cfg with vinState := .paired }
  | .begun (.setConfig r) =>
    match validateConfig r.vin r.model r.keyName r.connectTimeoutSec r.commandTimeoutSec with
    | .error _ => none
    | .ok () => some (c.candidate r)
  | _ => none

/-- The section's save does not fail after the rename, or only on what is in force already. -/
def Clean (c : Core) (e : SectionEnv) (p : Pending) : Prop :=
  ∀ cfg ∈ c.target p, ensureWritable cfg = .ok () → e.save.any FsStep.afterRename = true → cfg = c.cfg

theorem Agrees.keep {c c' : Core} (h : c.Agrees builds) (hc : c'.cfg = c.cfg) (hf : c'.disk.config = c.disk.config) : c'.Agrees builds := by
  unfold Agrees
  rw [hf, hc]
  exact h

theorem Agrees.sane {c : Core} (h : c.Agrees builds) : Sane c.cfg := load_sane h

/-! ## Saves -/

theorem saveConfig_disk (c : Core) (cfg : Config) (fault : Option FsStep) :
    (c.saveConfig cfg fault).1.disk.config = (save cfg c.disk.config fault).1 := rfl

/-- After a save that succeeds the file says what was saved. -/
theorem saveConfig_ok (builds : Json → Bool) {c c' : Core} {cfg : Config} {fault : Option FsStep} (hs : Sane cfg)
    (h : c.saveConfig cfg fault = (c', .ok ())) : load builds false c'.disk.config = .ok cfg := by
  have hd := saveConfig_disk c cfg fault
  have hr : (save cfg c.disk.config fault).2 = .ok () := congrArg Prod.snd h
  obtain ⟨hw, hf⟩ := (save_ok_iff cfg c.disk.config fault).1 hr
  rw [h, save_file, if_pos ⟨hw, by rw [hf]; rfl⟩] at hd
  rw [hd]
  exact load_saved hw hs

/-- After one that fails it says what it said, exactly when the rename was not reached or
    changes nothing. -/
theorem saveConfig_error {c c' : Core} {cfg : Config} {fault : Option FsStep} {err : IoError} (hc : c.Agrees builds) (hs : Sane cfg)
    (h : c.saveConfig cfg fault = (c', .error err)) :
    c'.Agrees builds ↔ (ensureWritable cfg = .ok () → fault.any FsStep.afterRename = true → cfg = c.cfg) := by
  have hd := saveConfig_disk c cfg fault
  have hcfg : c'.cfg = c.cfg := (congrArg (fun r => r.1.cfg) h).symm
  have hr : ¬ (ensureWritable cfg = .ok () ∧ fault = none) := by
    rw [← save_ok_iff cfg c.disk.config fault, show (save cfg c.disk.config fault).2 = .error err from congrArg Prod.snd h]
    exact nofun
  have hall : ensureWritable cfg = .ok () → fault.all FsStep.afterRename = fault.any FsStep.afterRename := by
    intro hw
    cases fault with
    | none => exact (hr ⟨hw, rfl⟩).elim
    | some s => rfl
  rw [h, save_file] at hd
  unfold Agrees
  rw [hd, hcfg]
  by_cases hw : ensureWritable cfg = .ok ()
  · by_cases ha : fault.any FsStep.afterRename = true
    · rw [if_pos ⟨hw, (hall hw).trans ha⟩, load_saved hw hs]
      simp [hw, ha]
    · rw [if_neg fun hn => ha ((hall hw).symm.trans hn.2)]
      exact ⟨fun _ _ hn => (ha hn).elim, fun _ => hc⟩
  · rw [if_neg fun hn => hw hn.1]
    exact ⟨fun _ hn => (hw hn).elim, fun _ => hc⟩

theorem candidate_sane {c : Core} {r : ConfigRequest}
    (h : validateConfig r.vin r.model r.keyName r.connectTimeoutSec r.commandTimeoutSec = .ok ()) : Sane (c.candidate r) :=
  validate_sane h _ _

theorem Agrees.sane_enrollment {c : Core} (h : c.Agrees builds) (st : VinState) : Sane { c.cfg with vinState := st } :=
  h.sane.enrolled _ st

/-! ## Sections -/

theorem invalidate_config (c : Core) (during : List Move) : (c.invalidate during).disk.config = c.disk.config :=
  sparing_config (invalidate_path c fun _ _ => trivial)

theorem stopPhoneKeyLocked_config (c : Core) (e : StopEnv) : (c.stopPhoneKeyLocked e).disk.config = c.disk.config :=
  sparing_config (stopPhoneKeyLocked_path c e.any fun _ => trivial)

theorem startPhoneKey_agrees {c : Core} (h : c.Agrees builds) (e : StartEnv) : (c.startPhoneKey e).1.Agrees builds :=
  h.keep (startPhoneKey_kept c e).cfg (sparing_config (startPhoneKey_path c e.any fun _ => trivial))

theorem keygen_agrees {c : Core} (h : c.Agrees builds) (force : Bool) (e : SectionEnv) : (c.keygen force e).1.Agrees builds :=
  h.keep (keygen_steady c force e).cfg
    (sparing_config (keygen_path c force e.any (fun _ _ => trivial) Scope.sparing_writes))

/-- A save refused: nothing else has happened yet. -/
structure Refused (builds : Json → Bool) (c c' : Core) (cfg : Config) (fault : Option FsStep) : Prop where
  file : ∃ f, c' = c.setWorld (c.host.world.setConfig f)
  agrees : c'.Agrees builds ↔ (ensureWritable cfg = .ok () → fault.any FsStep.afterRename = true → cfg = c.cfg)

theorem refused {c c' : Core} {cfg : Config} {fault : Option FsStep} {err : IoError} (hc : c.Agrees builds) (hs : Sane cfg)
    (h : c.saveConfig cfg fault = (c', .error err)) : Refused builds c c' cfg fault :=
  ⟨⟨_, (congrArg Prod.fst h).symm⟩, saveConfig_error hc hs h⟩

/-- A save that succeeded, then the stop, the assignment and the invalidate. -/
theorem persisted_agrees {c c' : Core} {cfg : Config} {e : SectionEnv} (hs : Sane cfg)
    (h : c.saveConfig cfg e.save = (c', .ok ())) :
    ({ c'.stopPhoneKeyLocked e.stop with cfg }.invalidate e.invalidating).Agrees builds ∧ e.save = none := by
  have hd : ({ c'.stopPhoneKeyLocked e.stop with cfg }.invalidate e.invalidating).disk.config = c'.disk.config :=
    (invalidate_config { c'.stopPhoneKeyLocked e.stop with cfg } _).trans (stopPhoneKeyLocked_config c' e.stop)
  refine ⟨?_, ((save_ok_iff _ c.disk.config e.save).1 (congrArg Prod.snd h)).2⟩
  unfold Agrees
  rw [hd, (invalidate_steady _ _).cfg]
  exact saveConfig_ok builds hs h

theorem resetEnrollment_agrees {c : Core} (h : c.Agrees builds) (e : SectionEnv) :
    (∃ c', c.resetEnrollment e = (c', .ok ()) ∧ c'.Agrees builds ∧ e.save = none) ∨
    ∃ c' err, c.resetEnrollment e = (c', .error err) ∧ Refused builds c c' { c.cfg with vinState := .unpaired } e.save := by
  unfold resetEnrollment
  dsimp only
  split
  · rename_i heq
    exact .inr ⟨_, _, rfl, refused h (h.sane_enrollment .unpaired) heq⟩
  · rename_i heq
    obtain ⟨ha, hn⟩ := persisted_agrees (h.sane_enrollment .unpaired) heq
    exact .inl ⟨_, rfl, ha, hn⟩

theorem generateKey_agrees {c : Core} (h : c.Agrees builds) (force : Bool) (e : SectionEnv) :
    (c.generateKey force e).1.Agrees builds ↔ c.Clean e (.begun (.generateKey force)) := by
  have hw : ensureWritable { c.cfg with vinState := .unpaired } = ensureWritable c.cfg := rfl
  unfold generateKey Clean
  simp only [target]
  cases hwc : ensureWritable c.cfg with
  | error err =>
    refine ⟨fun _ cfg hcfg hn => ?_, fun _ => h⟩
    split at hcfg
    · cases hcfg
      rw [hw, hwc] at hn
      cases hn
    · cases hcfg
  | ok =>
    by_cases hr : (force || c.disk.priv.isNone) = true
    · simp only [hr, if_true, Option.mem_some_iff, forall_eq']
      rcases resetEnrollment_agrees h e with ⟨c', heq, ha, hn⟩ | ⟨c', err, heq, hrf⟩
      · simp only [heq, hn]
        refine ⟨fun _ _ => nofun, fun _ => ?_⟩
        have hk := keygen_agrees ha force e
        split
        · rename_i heq'
          rwa [heq'] at hk
        · rename_i heq'
          rw [heq'] at hk
          exact hk.keep (invalidate_steady _ _).cfg (invalidate_config _ _)
      · simp only [heq]
        exact hrf.agrees
    · simp only [hr, Bool.false_eq_true, if_false]
      exact ⟨fun _ _ => nofun, fun _ => keygen_agrees h force e⟩

theorem setConfigSection_agrees {c : Core} (h : c.Agrees builds) (r : ConfigRequest) (e : SectionEnv) :
    (c.setConfigSection r e).1.Agrees builds ↔ c.Clean e (.begun (.setConfig r)) := by
  unfold setConfigSection Clean
  simp only [target]
  cases hv : validateConfig r.vin r.model r.keyName r.connectTimeoutSec r.commandTimeoutSec with
  | error err =>
    refine ⟨fun _ cfg hcfg => ?_, fun _ => h⟩
    cases hcfg
  | ok =>
    simp only [Option.mem_some_iff, forall_eq']
    split
    · rename_i heq
      exact saveConfig_error h (candidate_sane hv) heq
    · rename_i heq
      obtain ⟨ha, hn⟩ := persisted_agrees (candidate_sane hv) heq
      exact ⟨fun _ _ hf => by simp [hn] at hf, fun _ => ha⟩

theorem pairSection_agrees {c : Core} (h : c.Agrees builds) {e : SectionEnv} (hc : c.Clean e (.begun .pair)) :
    (c.pairSection e).1.Agrees builds := by
  have hm : ((c.stopPhoneKeyLocked e.stop).moves e.mid).Agrees builds := by
    refine h.keep (by rw [stopPhoneKeyLocked_eq]; rfl) ?_
    exact (sparing_config (moves_path _ fun _ _ => trivial)).trans (stopPhoneKeyLocked_config c e.stop)
  have hcfg : ((c.stopPhoneKeyLocked e.stop).moves e.mid).cfg = c.cfg := by rw [stopPhoneKeyLocked_eq]; rfl
  unfold pairSection
  generalize (c.stopPhoneKeyLocked e.stop).moves e.mid = d at hm hcfg ⊢
  have hr : (d.sessionRun .pair [World.publicKeyPath, "owner", "android_device"] e.run).1.Agrees builds :=
    hm.keep rfl (sparing_config (sessionRun_path d e.run.any trivial))
  have hrc : (d.sessionRun .pair [World.publicKeyPath, "owner", "android_device"] e.run).1.cfg = c.cfg := hcfg
  split
  · exact h
  split
  · exact h
  split
  · exact h
  dsimp only
  split
  · exact hm
  split
  · exact hm
  split
  · rename_i heq
    rwa [heq] at hr
  · rename_i heq
    rw [heq] at hr hrc
    dsimp only at hr hrc
    split
    · exact hr
    · unfold persistPaired
      rw [hrc]
      dsimp only
      split
      · rename_i heq'
        refine (saveConfig_error hr (h.sane_enrollment .paired) heq').2 fun hw ha => ?_
        rw [hrc]
        exact hc _ rfl hw ha
      · rename_i heq'
        have hok := saveConfig_ok builds (h.sane_enrollment .paired) heq'
        exact hok

/-- Short of a confirmed pairing the configuration stays. -/
theorem pairSection_done {c : Core} {e : SectionEnv} {reply : PairReply} :
    (c.pairSection e).2 = .done reply → (c.pairSection e).1.cfg = c.cfg := by
  have hcfg : ((c.stopPhoneKeyLocked e.stop).moves e.mid).cfg = c.cfg := by rw [stopPhoneKeyLocked_eq]; rfl
  unfold pairSection
  generalize (c.stopPhoneKeyLocked e.stop).moves e.mid = d at hcfg ⊢
  have hrc : (d.sessionRun .pair [World.publicKeyPath, "owner", "android_device"] e.run).1.cfg = c.cfg := hcfg
  split
  · exact fun _ => rfl
  split
  · exact fun _ => rfl
  split
  · exact fun _ => rfl
  dsimp only
  split
  · exact fun _ => hcfg
  split
  · exact fun _ => hcfg
  split
  · rename_i heq
    rw [heq] at hrc
    exact fun _ => hrc
  · rename_i heq
    rw [heq] at hrc
    split
    · exact fun _ => hrc
    · unfold persistPaired
      dsimp only
      split
      · rename_i heq'
        exact fun _ => (congrArg (fun r => r.1.cfg) heq').symm.trans hrc
      · exact nofun

theorem advance_agrees (K : Checks) {c : Core} (h : c.Agrees builds) {e : SectionEnv} {p : Pending} (hc : c.Clean e p) :
    (advance K c e p).1.Agrees builds := by
  cases p with
  | begun op =>
    cases op with
    | run cmd args => exact h.keep (run_steady K c cmd args e).cfg (sparing_config (run_path K c e.any fun _ _ => trivial))
    | generateKey force => exact (generateKey_agrees h force e).2 hc
    | pair => rw [advance_pair]; exact pairSection_agrees h hc
    | startPhoneKey => exact startPhoneKey_agrees h e.start
    | stopPhoneKey => exact h.keep (by rw [advance, stopPhoneKeyLocked_eq]) (stopPhoneKeyLocked_config c e.stop)
    | handleResume =>
      refine h.keep ?_ (sparing_config (handleResumeSection_path c e.any))
      show (c.handleResumeSection e).cfg = c.cfg
      rw [handleResumeSection_eq]
    | setConfig r => rw [advance_setConfig]; exact (setConfigSection_agrees h r e).2 hc
    | shareDestination text =>
      exact h.keep (shareDestination_steady K c text e).cfg (sparing_config (shareDestination_path K c text e.any fun _ _ => trivial))
  | starting => exact startPhoneKey_agrees h e.start
  | popped x => exact h
  | judged x due => rw [advance_judged]; exact h
  | stopped x =>
    rw [advance_stopped]
    refine h.keep ?_ (sparing_config (pollGate_path c fun _ _ => trivial))
    rcases pollGate_cases c e.invalidating with ⟨hp, _⟩ | ⟨hp, _⟩
    · rw [hp]
    · rw [hp]
      exact (invalidate_steady _ _).cfg
  | restarting x => exact (startPhoneKey_agrees h e.start).keep rfl rfl

/-! ## Core::new -/

theorem new_agrees {w w' : World} {backend : Option Backend} {unreadable : Bool} {fault : Option FsStep} {c : Core}
    (hf : ∀ cfg, load builds unreadable w.disk.config = .ok cfg → cfg.version.older = true → fault = none)
    (h : Core.new builds w backend unreadable fault = (w', .ok c)) : c.Agrees builds := by
  unfold Core.new at h
  split at h
  · cases h
  rename_i cfg hl
  cases ho : cfg.version.older with
  | false =>
    -- a migration is of an older schema only
    have hv : (cfg.version == .v0) = false := by
      cases hc : cfg.version <;> simp_all [ConfigVersion.older]
    simp only [hv, Bool.false_and, Bool.false_eq_true, if_false, ho, Bool.or_self] at h
    cases h
    exact load_readable hl
  | true =>
    obtain rfl := hf cfg hl ho
    have hs := load_sane hl
    generalize hm : (cfg.version == .v0 && cfg.vinState == .unpaired && cfg.vin != "" && w.disk.keyFiles) = migrates at h
    have hold : (if migrates = true then { cfg with vinState := .paired } else cfg).version.older = true := by
      cases migrates <;> exact ho
    simp only [hold, Bool.or_true, if_true] at h
    cases h
    have hsane : Sane { (if migrates = true then { cfg with vinState := .paired } else cfg) with version := .current } := by
      cases migrates <;> exact ⟨hs.connect, hs.command, hs.vin, hs.model, hs.keyName⟩
    show load builds false (save _ _ none).1 = _
    rw [save_file, if_pos ⟨rfl, rfl⟩]
    exact load_saved rfl hsane

/-- The file reads as before, and nothing else has changed. -/
def Unchanged (builds : Json → Bool) (c c' : Core) : Prop :=
  ∃ f, c' = c.setWorld (c.host.world.setConfig f) ∧ load builds false f = .ok c.cfg

theorem Refused.unchanged {c c' : Core} {cfg : Config} {fault : Option FsStep} (h : Refused builds c c' cfg fault)
    (hc : ensureWritable cfg = .ok () → fault.any FsStep.afterRename = true → cfg = c.cfg) : Unchanged builds c c' := by
  obtain ⟨f, rfl⟩ := h.file
  exact ⟨f, rfl, h.agrees.2 hc⟩

theorem setConfigSection_refused {c : Core} (h : c.Agrees builds) {r : ConfigRequest} {e : SectionEnv} {err : IoError}
    (hc : c.Clean e (.begun (.setConfig r))) (he : (c.setConfigSection r e).2 = .error (.persist err)) :
    Unchanged builds c (c.setConfigSection r e).1 := by
  unfold setConfigSection at he ⊢
  unfold Clean at hc
  simp only [target] at hc
  cases hv : validateConfig r.vin r.model r.keyName r.connectTimeoutSec r.commandTimeoutSec with
  | error err => simp [hv] at he
  | ok =>
    simp only [hv, Option.mem_some_iff, forall_eq'] at hc he ⊢
    split
    · rename_i heq
      exact (refused h (candidate_sane hv) heq).unchanged hc
    · rename_i heq
      rw [heq] at he
      cases he

theorem keygen_persists {c : Core} {force : Bool} {e : SectionEnv} {err : IoError} :
    (c.keygen force e).2 ≠ .error (.persist err) := by
  unfold keygen generateKeyOneShot
  dsimp only
  intro h
  grind

theorem generateKey_refused {c : Core} (h : c.Agrees builds) {force : Bool} {e : SectionEnv} {err : IoError}
    (hc : c.Clean e (.begun (.generateKey force))) (he : (c.generateKey force e).2 = .error (.persist err)) :
    Unchanged builds c (c.generateKey force e).1 := by
  unfold generateKey at he ⊢
  unfold Clean at hc
  simp only [target] at hc
  cases hw : ensureWritable c.cfg with
  | error err' => exact ⟨c.disk.config, rfl, h⟩
  | ok =>
    by_cases hr : (force || c.disk.priv.isNone) = true
    · simp only [hw, hr, if_true, Option.mem_some_iff, forall_eq'] at hc he ⊢
      rcases resetEnrollment_agrees h e with ⟨c', heq, _, _⟩ | ⟨c', err', heq, hrf⟩
      · simp only [heq] at he
        have hk := @keygen_persists c' force e err
        split at he
        · rename_i heq'
          rw [heq'] at hk
          exact (hk he).elim
        · cases he
      · simp only [heq]
        exact hrf.unchanged hc
    · simp only [hw, hr, Bool.false_eq_true, if_false] at he
      exact (keygen_persists he).elim

end Core

/-! ## Runs -/

namespace System

/-- The migration of a core that starts is saved. -/
def Migrated (K : Checks) (y : System) : Event → Prop
  | .new _ unreadable fault =>
    ∀ cfg, load K.builds unreadable y.world.disk.config = .ok cfg → cfg.version.older = true → fault = none
  | _ => True

/-- And no save fails between its rename and its return. -/
def Saved (K : Checks) (y : System) (ev : Event) : Prop :=
  y.Migrated K ev ∧ ∀ i e p, ev = .advance i e → y.calls[i]? = some p → y.core.Clean e p

end System

theorem step_agrees {K : Checks} {y : System} {ev : Event} (h : y.up = true → y.core.Agrees K.builds) (hok : y.Saved K ev) :
    (y.step K ev).up = true → (y.step K ev).core.Agrees K.builds := by
  cases ev with
  | move m =>
    intro hup
    exact (h hup).keep rfl (sparing_config (Core.moves_path y.core fun _ _ => trivial))
  | call op =>
    unfold System.step
    dsimp only
    split <;> exact h
  | poll =>
    unfold System.step
    dsimp only
    split
    · intro hup
      exact (h hup).keep (by rw [Core.pollEvent_fst]; rfl) (sparing_config (Core.pollEvent_path y.core))
    · exact h
  | advance i e =>
    unfold System.step
    dsimp only
    split
    · exact h
    · rename_i p hp
      intro hup
      exact Core.advance_agrees K (h hup) (hok.2 i e p rfl hp)
  | drop e =>
    unfold System.step
    dsimp only
    split
    · exact nofun
    · exact h
  | new backend unreadable fault =>
    unfold System.step
    dsimp only
    split
    · exact h
    · rename_i hup
      split
      · exact fun hn => (hup hn).elim
      · rename_i heq
        exact fun _ => Core.new_agrees hok.1 heq

theorem agrees {K : Checks} {y : System} (h : (systems K).Reach (System.Saved K) y) : y.up = true → y.core.Agrees K.builds := by
  refine h.inv (I := fun y => y.up = true → y.core.Agrees K.builds) ?_ fun _ _ hy hok => step_agrees hy hok
  rintro y ⟨w, rfl⟩
  exact nofun

/-- When no save fails after its rename, disk and memory agree in every state, and a refused
    call has changed nothing; the next set_config or generate_key keeps them so exactly when
    its own save does not either. -/
theorem disk_matches_memory {K : Checks} {y : System} (h : (systems K).Reach (System.Saved K) y) (hup : y.up = true) :
    load K.builds false y.core.disk.config = .ok y.core.cfg ∧
    (∀ r e, (y.core.setConfigSection r e).1.Agrees K.builds ↔ y.core.Clean e (.begun (.setConfig r))) ∧
    (∀ force e, (y.core.generateKey force e).1.Agrees K.builds ↔ y.core.Clean e (.begun (.generateKey force))) ∧
    (∀ r e err, y.core.Clean e (.begun (.setConfig r)) → (y.core.setConfigSection r e).2 = .error (.persist err) →
      y.core.Unchanged K.builds (y.core.setConfigSection r e).1) ∧
    (∀ force e err, y.core.Clean e (.begun (.generateKey force)) → (y.core.generateKey force e).2 = .error (.persist err) →
      y.core.Unchanged K.builds (y.core.generateKey force e).1) ∧
    ∀ e reply, y.core.Clean e (.begun .pair) → (y.core.pairSection e).2 = .done reply →
      load K.builds false (y.core.pairSection e).1.disk.config = .ok y.core.cfg ∧ (y.core.pairSection e).1.cfg = y.core.cfg := by
  have ha := agrees h hup
  refine ⟨ha, Core.setConfigSection_agrees ha, Core.generateKey_agrees ha, fun _ _ _ => Core.setConfigSection_refused ha,
    fun _ _ _ => Core.generateKey_refused ha, fun e reply hc hd => ?_⟩
  have hcfg := Core.pairSection_done hd
  have hp := Core.pairSection_agrees ha hc
  exact ⟨hcfg ▸ hp, hcfg⟩

/-- The installation with its core up. -/
def installed (w : World) : System := (System.start w).step anyArgs (.new (some .bluez) false none)

theorem installed_saved (w : World) : (systems anyArgs).Reach (System.Saved anyArgs) (installed w) := by
  have h0 : (systems anyArgs).Reach (System.Saved anyArgs) (.start w) := .init ⟨w, rfl⟩
  have hnew : (System.start w).Saved anyArgs (.new (some .bluez) false none) := ⟨fun _ _ _ => rfl, fun _ _ _ => nofun⟩
  exact .step _ h0 hnew

/-- Another vehicle. -/
def otherCar : Core.ConfigRequest :=
  { vin := "5YJ3E1EA7KF111111", model := "modely", keyName := "other", connectTimeoutSec := 30, commandTimeoutSec := 10 }

theorem rename_refused : (installed pairedWorld).up = true ∧
    load anyArgs.builds false (installed pairedWorld).core.disk.config = .ok (installed pairedWorld).core.cfg ∧
    ((installed pairedWorld).core.setConfigSection otherCar { save := some .rename }).2 = .error (.persist (.step .rename)) ∧
    (installed pairedWorld).core.Unchanged anyArgs.builds ((installed pairedWorld).core.setConfigSection otherCar { save := some .rename }).1 := by
  have h := disk_matches_memory (installed_saved pairedWorld) (by decide)
  exact ⟨by decide, h.1, by decide, h.2.2.2.1 otherCar { save := some .rename } (.step .rename) (fun _ _ _ => nofun) (by decide)⟩

/-- The settings a call refused are those of the next start. -/
theorem refused_settings_saved :
    (((installed pairedWorld).core.setConfigSection otherCar { save := some .syncDir }).2 = .error (.persist (.step .syncDir)) ∧
      ((installed pairedWorld).core.setConfigSection otherCar { save := some .syncDir }).1.cfg = pairedConfig ∧
      (load anyArgs.builds false ((installed pairedWorld).core.setConfigSection otherCar { save := some .syncDir }).1.disk.config).toOption.map
        Config.vin = some otherCar.vin) ∧
    ¬ ∀ (y : System), (systems anyArgs).Reach (System.Migrated anyArgs) y → y.up = true → load anyArgs.builds false y.core.disk.config = .ok y.core.cfg := by
  refine ⟨by decide, fun h => ?_⟩
  have hy : (systems anyArgs).Reach (System.Migrated anyArgs) ((systems anyArgs).run (installed pairedWorld)
      [.call (.setConfig otherCar), .advance 0 { save := some .syncDir }]) :=
    ((installed_saved pairedWorld).mono fun _ _ hok => hok.1).run _ ⟨trivial, trivial, trivial⟩
  have hbad := h _ hy (by decide)
  exact absurd hbad (by decide)

end ElectricEel.Control
