/-
  ElectricEel.Core.Settings — the settings a core runs with, from start to restart
  (helper/src/config.rs, core.rs `Core::new`, `set_config`).

  Proved:
  - `settings_always_valid`: whatever config.json a load accepts and whatever the calls do,
    the configuration in memory is one `validateConfig` accepts, normalised, and one that
    sanitising leaves alone.
  - `restart_keeps_settings`: a load of what a save wrote gives the configuration back, and
    a core started on a current one has it in memory and leaves the file.
  - `explicit_enrollment_kept_iff`: explicit unpaired state survives a start exactly when
    the migration's condition on the version key, the VIN and the key files fails. The
    migration looks at the version alone, so a file with `"version": 0` and an explicit
    state is promoted (`explicit_v0_promoted`).
-/
import ElectricEel.Core.Persistence

namespace ElectricEel.Control

open Lib Commands Wire Config Client

/-! ## Valid settings -/

/-- The seconds a command may take; `grace` is what the caller adds to the timeouts. -/
def deadlineSec (cfg : Config) (grace : Int) : Int := cfg.connectTimeoutSec + cfg.commandTimeoutSec + grace

structure Valid (cfg : Config) : Prop where
  accepted : validateConfig cfg.vin cfg.model cfg.keyName cfg.connectTimeoutSec cfg.commandTimeoutSec = .ok ()
  vin : trim cfg.vin = cfg.vin
  keyName : trim cfg.keyName = cfg.keyName
  model : toAsciiLowercase cfg.model = cfg.model
  connect : 1 ≤ cfg.connectTimeoutSec ∧ cfg.connectTimeoutSec ≤ 300
  command : 1 ≤ cfg.commandTimeoutSec ∧ cfg.commandTimeoutSec ≤ 300
  deadline : ∀ grace ∈ [10, 10 + 95], 0 < deadlineSec cfg grace ∧ deadlineSec cfg grace ≤ 705
  sanitized : sanitize cfg = cfg

theorem timeoutOk_iff (t : Int) : timeoutOk t = true ↔ 1 ≤ t ∧ t ≤ 300 := by
  rw [timeoutOk, Bool.and_eq_true, decide_eq_true_eq, decide_eq_true_eq]
  unfold maxTimeoutSec
  omega

theorem models_lower : ∀ m ∈ validModels, toAsciiLowercase m = m := by decide

/-- The three copies of the rules agree. -/
theorem valid_of_sane {cfg : Config} (h : Sane cfg) : Valid cfg := by
  have hc := (timeoutOk_iff _).1 h.connect
  have hm := (timeoutOk_iff _).1 h.command
  refine ⟨?_, h.vin.1, h.keyName.1, models_lower _ h.model, hc, hm, fun grace hg => ?_, sanitize_of_sane h⟩
  · have hmodel : toAsciiLowercase (trim cfg.model) ∈ validModels := by
      rw [model_normal _ h.model]
      exact h.model
    unfold validateConfig
    rw [h.vin.1, h.keyName.1, if_neg (by omega), if_neg (by unfold maxTimeoutSec; omega), if_neg (by simp [h.vin.2]),
      if_neg (not_not_intro hmodel), if_neg (by simp [h.keyName.2])]
  · unfold deadlineSec
    simp only [List.mem_cons, List.not_mem_nil, or_false] at hg
    omega

namespace Core

theorem resetEnrollment_sane {c : Core} (h : Sane c.cfg) (e : SectionEnv) : Sane (c.resetEnrollment e).1.cfg := by
  have hs := (saveConfig_steady c { c.cfg with vinState := .unpaired } e.save).cfg
  unfold resetEnrollment
  dsimp only
  split
  · rename_i heq
    rw [heq] at hs
    rwa [hs]
  · rw [(invalidate_steady _ _).cfg]
    exact h.enrolled _ .unpaired

theorem generateKey_sane {c : Core} (h : Sane c.cfg) (force : Bool) (e : SectionEnv) : Sane (c.generateKey force e).1.cfg := by
  have hr := resetEnrollment_sane h e
  have hg := generated c force e
  generalize c.generateKey force e = r at hg ⊢
  cases hg with
  | refused err hs _ => rwa [hs.cfg]
  | printed _ => rwa [(keygen_steady c force e).cfg]
  | @failed c' err _ heq _ =>
    rw [heq] at hr
    rwa [(keygen_steady c' force e).cfg]
  | @replaced c' pub _ heq _ =>
    rw [heq] at hr
    rwa [(invalidate_steady _ _).cfg, (keygen_steady c' force e).cfg]

theorem persistPaired_sane {c : Core} (h : Sane c.cfg) (stdout : Text) (e : SectionEnv) : Sane (c.persistPaired stdout e).1.cfg := by
  have hs := (saveConfig_steady c { c.cfg with vinState := .paired } e.save).cfg
  unfold persistPaired
  dsimp only
  split
  · rename_i heq
    rw [heq] at hs
    rwa [hs]
  · exact h.enrolled _ .paired

theorem pairSection_sane {c : Core} (h : Sane c.cfg) (e : SectionEnv) : Sane (c.pairSection e).1.cfg := by
  have ho : Sane ((c.stopPhoneKeyLocked e.stop).moves e.mid).cfg := by
    rw [stopPhoneKeyLocked_eq]
    exact h
  have hr := (sessionRun_steady ((c.stopPhoneKeyLocked e.stop).moves e.mid) .pair
    [World.publicKeyPath, "owner", "android_device"] e.run).cfg
  unfold pairSection
  split
  · exact h
  split
  · exact h
  split
  · exact h
  dsimp only
  split
  · exact ho
  split
  · exact ho
  split
  · rename_i heq
    rw [heq] at hr
    rwa [hr]
  · rename_i heq
    rw [heq] at hr
    split
    · rwa [hr]
    · exact persistPaired_sane (hr ▸ ho) _ e

theorem setConfigSection_sane {c : Core} (h : Sane c.cfg) (r : ConfigRequest) (e : SectionEnv) :
    Sane (c.setConfigSection r e).1.cfg := by
  have hs := (saveConfig_steady c (c.candidate r) e.save).cfg
  unfold setConfigSection
  split
  · exact h
  rename_i hv
  dsimp only
  split
  · rename_i heq
    rw [heq] at hs
    rwa [hs]
  · rw [(invalidate_steady _ _).cfg]
    exact candidate_sane hv

theorem new_sane {w w' : World} {backend : Option Backend} {unreadable : Bool} {fault : Option FsStep} {c : Core}
    (h : Core.new builds w backend unreadable fault = (w', .ok c)) : Sane c.cfg := by
  unfold Core.new at h
  split at h
  · cases h
  rename_i cfg hl
  have hs := load_sane hl
  cases h
  dsimp only
  split
  · split
    · exact hs.enrolled _ _
    · exact hs.enrolled _ _
  · split
    · exact hs.enrolled _ _
    · exact hs

end Core

open ElectricEel.Control.Core in
theorem advance_sane (K : Checks) {c : Core} (h : Sane c.cfg) (e : SectionEnv) (p : Pending) : Sane (advance K c e p).1.cfg := by
  cases p with
  | begun op =>
    cases op with
    | run cmd args => rwa [show (advance K c e (.begun (.run cmd args))).1.cfg = c.cfg from (run_steady K c cmd args e).cfg]
    | generateKey force => exact generateKey_sane h force e
    | pair =>
      rw [advance_pair]
      exact pairSection_sane h e
    | startPhoneKey => exact (startPhoneKey_kept c e.start).cfg ▸ h
    | stopPhoneKey =>
      show Sane (c.stopPhoneKeyLocked e.stop).cfg
      rw [stopPhoneKeyLocked_eq]
      exact h
    | handleResume =>
      show Sane (c.handleResumeSection e).cfg
      rw [handleResumeSection_eq]
      exact h
    | setConfig r =>
      rw [advance_setConfig]
      exact setConfigSection_sane h r e
    | shareDestination text => exact (shareDestination_steady K c text e).cfg ▸ h
  | starting => exact (startPhoneKey_kept c e.start).cfg ▸ h
  | popped x => exact h
  | judged x due =>
    rw [advance_judged]
    exact h
  | stopped x =>
    rw [advance_stopped]
    rcases pollGate_cases c e.invalidating with ⟨hp, _⟩ | ⟨hp, _⟩
    · rwa [hp]
    · rw [hp]
      show Sane (invalidate { c with phoneKeyStarted := false } e.invalidating).cfg
      rw [(invalidate_steady _ _).cfg]
      exact h
  | restarting x => exact (startPhoneKey_kept c e.start).cfg ▸ h

theorem System.step_sane {K : Checks} {y : System} (h : y.up = true → Sane y.core.cfg) (ev : Event) :
    (y.step K ev).up = true → Sane (y.step K ev).core.cfg := by
  cases ev with
  | move m => exact h
  | call op =>
    unfold System.step
    dsimp only
    split <;> exact h
  | poll =>
    unfold System.step
    dsimp only
    split
    · intro hup
      show Sane y.core.pollEvent.1.cfg
      rw [(Core.pollEvent_steady y.core).cfg]
      exact h hup
    · exact h
  | advance i e =>
    unfold System.step
    dsimp only
    split
    · exact h
    · exact fun hup => advance_sane K (h hup) e _
  | drop e =>
    unfold System.step
    dsimp only
    split
    · exact nofun
    · exact h
  | new backend unreadable fault =>
    unfold System.step
    dsimp only
    split
    · exact h
    · rename_i hno
      split
      · exact fun hup => absurd hup hno
      · rename_i heq
        exact fun _ => Core.new_sane heq

theorem memory_sane {K : Checks} {y : System} (h : (systems K).Reach (fun _ _ => True) y) : y.up = true → Sane y.core.cfg := by
  refine h.inv (I := fun y => y.up = true → Sane y.core.cfg) ?_ fun y ev hy _ => System.step_sane hy ev
  intro y hi
  obtain ⟨w, rfl⟩ := hi
  exact nofun

/-- The configuration is valid from the load on, in every state of every run. -/
theorem settings_always_valid (K : Checks) :
    (∀ unreadable file cfg, load K.builds unreadable file = .ok cfg → Valid cfg) ∧
    ∀ y, (systems K).Reach (fun _ _ => True) y → y.up = true → Valid y.core.cfg :=
  ⟨fun _ _ _ h => valid_of_sane (load_sane h), fun _ h hup => valid_of_sane (memory_sane h hup)⟩

/-- A core started on a paired installation. -/
theorem settings_always_valid_installed : Valid (installed pairedWorld).core.cfg := by
  have h0 : (systems anyArgs).Reach (fun _ _ => True) (.start pairedWorld) := .init ⟨pairedWorld, rfl⟩
  exact (settings_always_valid anyArgs).2 _ (Machine.Reach.step (Event.new (some .bluez) false none) h0 trivial) (by decide)

/-! ## Restarting -/

theorem sane_of_validate {cfg : Config}
    (hv : validateConfig cfg.vin cfg.model cfg.keyName cfg.connectTimeoutSec cfg.commandTimeoutSec = .ok ())
    (hvin : trim cfg.vin = cfg.vin) (hmodel : toAsciiLowercase (trim cfg.model) = cfg.model) (hkey : trim cfg.keyName = cfg.keyName) :
    Sane cfg := by
  have hs := validate_sane hv cfg.version cfg.vinState
  rw [hvin, hmodel, hkey] at hs
  exact hs

/-- A core built on a current configuration takes it as it is. -/
theorem new_current {builds : Json → Bool} {w : World} {cfg : Config} (hl : load builds false w.disk.config = .ok cfg) (hv : cfg.version = .v2)
    (backend : Option Backend) (fault : Option FsStep) : ∃ c, Core.new builds w backend false fault = (w, .ok c) ∧ c.cfg = cfg := by
  unfold Core.new
  rw [hl]
  simp [hv, ConfigVersion.older]

/-- A restart changes nothing: what was saved is what is loaded, and a current file is
    left as it is, whatever keys there are. -/
theorem restart_keeps_settings (builds : Json → Bool) (cfg : Config)
    (hv : validateConfig cfg.vin cfg.model cfg.keyName cfg.connectTimeoutSec cfg.commandTimeoutSec = .ok ())
    (hvin : trim cfg.vin = cfg.vin) (hmodel : toAsciiLowercase (trim cfg.model) = cfg.model) (hkey : trim cfg.keyName = cfg.keyName)
    (hversion : cfg.version = .v0 ∨ cfg.version = .v1 ∨ cfg.version = .v2) (old : Option ConfigFile) :
    (save cfg old none).2 = .ok () ∧ load builds false (save cfg old none).1 = .ok cfg ∧
    (cfg.version = .v2 → ∀ (w : World) (backend : Option Backend) (fault : Option FsStep), w.disk.config = (save cfg old none).1 →
      ∃ c, Core.new builds w backend false fault = (w, .ok c) ∧ c.cfg = cfg) := by
  have hw : ensureWritable cfg = .ok () := by
    rcases hversion with h | h | h <;> simp [ensureWritable, h]
  have hs := sane_of_validate hv hvin hmodel hkey
  have hf : (save cfg old none).1 = some (encode cfg) := by
    rw [save_file, if_pos ⟨hw, rfl⟩]
  have hl : load builds false (save cfg old none).1 = .ok cfg := by
    rw [hf]
    exact load_saved hw hs
  refine ⟨(save_ok_iff _ _ _).2 ⟨hw, rfl⟩, hl, fun h2 w backend fault hd => ?_⟩
  exact new_current (hd ▸ hl) h2 backend fault

/-- An unpaired configuration beside both key files. -/
theorem restart_keeps_unpaired :
    ∃ c, Core.new anyArgs.builds { pairedWorld with disk := { pairedWorld.disk with
        config := (save { pairedConfig with vinState := .unpaired } none none).1 } } none false none =
      ({ pairedWorld with disk := { pairedWorld.disk with
        config := (save { pairedConfig with vinState := .unpaired } none none).1 } }, .ok c) ∧
      c.cfg = { pairedConfig with vinState := .unpaired } :=
  (restart_keeps_settings anyArgs.builds { pairedConfig with vinState := .unpaired } (by decide) (by decide) (by decide) (by decide)
    (.inr (.inr rfl)) none).2.2 rfl _ none none rfl

/-! ## Starting on a legacy file -/

/-- The file says whether the key is enrolled. -/
def Explicit (raw : LegacyConfig) : Prop := raw.vinState ≠ .missing ∨ raw.pairedVin ≠ .missing

/-- Explicit state decides, when it is there; the version key alone makes it V0. -/
theorem version_v0_iff {raw : LegacyConfig} (h : Explicit raw) : (decode raw).version = .v0 ↔ raw.version = some .v0 := by
  unfold decode decodeEnrollment
  cases hv : raw.vinState with
  | present st => cases raw.version <;> simp
  | missing =>
    cases hp : raw.pairedVin with
    | present v => cases raw.version <;> simp
    | missing => exact absurd h (by simp [Explicit, hv, hp])

/-- The enrollment a core starts with. -/
theorem new_vinState {builds : Json → Bool} {w : World} {cfg : Config} (hl : load builds false w.disk.config = .ok cfg) (backend : Option Backend)
    (fault : Option FsStep) :
    ∃ w' c, Core.new builds w backend false fault = (w', .ok c) ∧
      (c.cfg.vinState = .paired ↔ cfg.vinState = .paired ∨ cfg.version = .v0 ∧ cfg.vin ≠ "" ∧ w.disk.keyFiles = true) := by
  have hstay : ∀ (d : Config) (b : Bool), (if b = true then { d with version := .current } else d).vinState = d.vinState := by
    intro d b
    cases b <;> rfl
  unfold Core.new
  rw [hl]
  refine ⟨_, _, rfl, ?_⟩
  dsimp only
  rw [hstay]
  cases hst : cfg.vinState with
  | paired => simp [hst]
  | unpaired =>
    by_cases hm : cfg.version = .v0 ∧ cfg.vin ≠ "" ∧ w.disk.keyFiles = true
    · simp [hm.1, hm.2.1, hm.2.2]
    · rw [if_neg (by simpa [bne_iff_ne, and_assoc] using hm), hst]
      simp [hm]

theorem load_legacy {builds : Json → Bool} {file : ConfigFile} {raw : LegacyConfig} (h : file.legacy = some raw) :
    load builds false (some file) = .ok (sanitize (decode raw)) := by
  simp [load, h]

/-- What a start owes to explicit state: it stays unpaired, and a promotion needs a file
    without any and a VIN. -/
def KeepsExplicit (w : World) (raw : LegacyConfig) (c : Core) : Prop :=
  (Explicit raw → (decode raw).vinState = .unpaired → c.cfg.vinState = .unpaired) ∧
  ((decode raw).vinState = .unpaired → c.cfg.vinState = .paired →
    ¬ Explicit raw ∧ (sanitize (decode raw)).vin ≠ "" ∧ w.disk.keyFiles = true)

/-- Explicit unpaired state survives a start unless the version key says 0 and the rest of
    the migration's condition holds. -/
theorem explicit_enrollment_kept_iff (builds : Json → Bool) (w : World) (file : ConfigFile) (raw : LegacyConfig) (hf : w.disk.config = some file)
    (hr : file.legacy = some raw) (backend : Option Backend) (fault : Option FsStep) :
    ∃ w' c, Core.new builds w backend false fault = (w', .ok c) ∧
      (KeepsExplicit w raw c ↔
        ¬ (Explicit raw ∧ (decode raw).vinState = .unpaired ∧ raw.version = some .v0 ∧ (sanitize (decode raw)).vin ≠ "" ∧
          w.disk.keyFiles = true)) := by
  obtain ⟨w', c, hn, hp⟩ := new_vinState (hf ▸ load_legacy hr) backend fault
  refine ⟨w', c, hn, ?_⟩
  have hun : c.cfg.vinState = .unpaired ↔ ¬ c.cfg.vinState = .paired := by cases c.cfg.vinState <;> simp
  have hdun : (decode raw).vinState = .unpaired → ¬ (decode raw).vinState = .paired := fun h => by simp [h]
  change _ ↔ (decode raw).vinState = .paired ∨ (decode raw).version = .v0 ∧ _ at hp
  unfold KeepsExplicit
  constructor
  · intro hk hbad
    obtain ⟨hex, hd, hv, hvin, hkeys⟩ := hbad
    have hpaired := hp.2 (.inr ⟨(version_v0_iff hex).2 hv, hvin, hkeys⟩)
    exact hun.1 (hk.1 hex hd) hpaired
  · intro hno
    refine ⟨fun hex hd => hun.2 fun hpaired => ?_, fun hd hpaired => ?_⟩
    · rcases hp.1 hpaired with h | ⟨hv, hvin, hkeys⟩
      · exact hdun hd h
      · exact hno ⟨hex, hd, (version_v0_iff hex).1 hv, hvin, hkeys⟩
    · rcases hp.1 hpaired with h | ⟨hv, hvin, hkeys⟩
      · exact absurd h (hdun hd)
      · exact ⟨fun hex => hno ⟨hex, hd, (version_v0_iff hex).1 hv, hvin, hkeys⟩, hvin, hkeys⟩

/-- A file that says version 0 and unpaired. -/
def explicitV0 : Fields :=
  .ofList [("version", .int 0), ("vin", .str (some "5YJ3E1EA7KF000000")), ("key_name", .str (some "phone")),
    ("connect_timeout_sec", .int 20), ("command_timeout_sec", .int 5), ("vin_state", .str (some "unpaired"))]

def explicitV0Raw : LegacyConfig :=
  { version := some .v0, vin := "5YJ3E1EA7KF000000", model := "", keyName := "phone", connectTimeoutSec := 20,
    commandTimeoutSec := 5, vinState := .present .unpaired, pairedVin := .missing }

/-- Beside both key files it starts paired. -/
theorem explicit_v0_promoted :
    (ConfigFile.json (.obj explicitV0) 0).legacy = some explicitV0Raw ∧ Explicit explicitV0Raw ∧
      (decode explicitV0Raw).vinState = .unpaired ∧
      ∃ w' c, Core.new anyArgs.builds { pairedWorld with disk := { pairedWorld.disk with config := some (.json (.obj explicitV0) 0) } } none false none =
        (w', .ok c) ∧ c.cfg.vinState = .paired :=
  ⟨by decide, .inl nofun, rfl, _, _, rfl, by decide⟩

/-- The same without key files: it stays unpaired. -/
theorem explicit_v0_without_keys :
    ∃ w' c, Core.new anyArgs.builds { pairedWorld with disk := { config := some (.json (.obj explicitV0) 0), priv := none, pub := none } } none false none =
        (w', .ok c) ∧
      (KeepsExplicit { pairedWorld with disk := { config := some (.json (.obj explicitV0) 0), priv := none, pub := none } } explicitV0Raw c ↔
        ¬ (Explicit explicitV0Raw ∧ (decode explicitV0Raw).vinState = .unpaired ∧ explicitV0Raw.version = some .v0 ∧
          (sanitize (decode explicitV0Raw)).vin ≠ "" ∧
          ({ config := some (.json (.obj explicitV0) 0), priv := none, pub := none } : Disk).keyFiles = true)) :=
  explicit_enrollment_kept_iff anyArgs.builds _ _ explicitV0Raw rfl (by decide) none none

end ElectricEel.Control
