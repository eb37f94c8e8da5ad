/-
  ElectricEel.Core.NewerSchema — a config.json of a newer build (helper/src/config.rs
  `load`, `ensure_writable`; core.rs).

  A document whose version is past this build's is met in one of three ways: `LegacyConfig`
  reads it (its fields are the known ones and the version fits a u8) and the core carries
  the version along; it does not, and the version found in the whole tree makes `load` an
  error; or serde_json cannot build the tree either, and the file is taken for corrupt.

  Proved: in the first two cases no step of any run writes config.json or a backup of it,
  and generate_key and pair touch nothing; in the third the first start backs it up and
  goes on with the defaults (`newer_schema_read_only`).
-/
import ElectricEel.Core.Persistence

namespace ElectricEel.Control

open Lib Commands Wire Config Client

/-! ## Reading one -/

variable {builds : Json → Bool}

/-- serde reads the document: as the configuration, or as a tree. -/
def Readable (builds : Json → Bool) (fs : Fields) : Prop := (legacy (.obj fs)).isSome = true ∨ builds (.obj fs) = true

theorem versionOfU8_unknown {n : Nat} (h : 3 ≤ n) : versionOfU8 n = .unknown n := by
  unfold versionOfU8
  split
  · omega
  · omega
  · omega
  · rfl

theorem readVersion_newer {v : Int} {version : Option ConfigVersion} (hlo : 3 ≤ v)
    (h : readVersion (some (.int v)) = some version) : version = some (.unknown v.toNat) := by
  simp only [readVersion, Json.u8, Json.within, Option.map_map, Option.map_eq_some_iff] at h
  obtain ⟨n, hn, hv⟩ := h
  split at hn
  · cases hn
    rw [← hv]
    exact congrArg some (versionOfU8_unknown (by omega))
  · cases hn

theorem readFields_version {version vin model keyName connect command vinState pairedVin : Option Json} {raw : LegacyConfig}
    (h : readFields version vin model keyName connect command vinState pairedVin = some raw) :
    readVersion version = some raw.version := by
  simp only [readFields, Option.bind_eq_bind, Option.bind_eq_some_iff, Option.pure_def, Option.some.injEq] at h
  obtain ⟨_, hv, _, _, _, _, _, _, _, _, _, _, _, _, _, _, rfl⟩ := h
  exact hv

/-- Read as the configuration, it keeps its version. -/
theorem legacy_newer {fs : Fields} {v : Int} {raw : LegacyConfig} (hv : fs.values "version" = [.int v]) (hlo : 3 ≤ v)
    (h : legacy (.obj fs) = some raw) : (decode raw).version = .unknown v.toNat := by
  have hraw : raw.version = some (.unknown v.toNat) := by
    simp only [legacy, Option.bind_eq_bind, Option.bind_eq_some_iff] at h
    obtain ⟨version, hf, _, _, _, _, _, _, _, _, _, _, _, _, _, _, hr⟩ := h
    simp only [field, hv, Option.some.injEq] at hf
    cases hf
    exact readVersion_newer hlo (readFields_version hr)
  unfold decode decodeEnrollment
  dsimp only
  cases raw.vinState with
  | present st => simp [hraw]
  | missing => cases raw.pairedVin <;> simp [hraw]

/-- Read as a tree, it is newer. -/
theorem newer_of_builds {fs : Fields} {v : Int} (layout : Nat) (hv : fs.values "version" = [.int v]) (hlo : 3 ≤ v) (hhi : v < 2 ^ 64)
    (h : builds (.obj fs) = true) : newer builds (.json (.obj fs) layout) = true := by
  have hn : Config.versionNumber builds (.obj fs) = some v.toNat := by
    simp only [Config.versionNumber, h, if_true, Json.get, hv, List.getLast?_singleton, Option.bind_some, Json.asU64]
    exact if_pos ⟨by omega, hhi⟩
  simp only [newer, ConfigFile.versionNumber, hn, Option.any_some, decide_eq_true_eq]
  show v.toNat > 2
  omega

/-- Not at all, it is thrown away. -/
theorem corrupt_of_unreadable {fs : Fields} (layout : Nat) (h : ¬ Readable builds fs) :
    corruptBackup builds false (some (.json (.obj fs) layout)) = some (.json (.obj fs) layout) := by
  obtain ⟨hl, hb⟩ := not_or.1 h
  have hn : newer builds (.json (.obj fs) layout) = false := by
    simp only [Bool.not_eq_true] at hb
    simp [newer, ConfigFile.versionNumber, Config.versionNumber, hb]
  have hl' : (ConfigFile.json (.obj fs) layout).legacy.isSome = false := by simpa [ConfigFile.legacy] using hl
  simp [corruptBackup, hn, hl']

theorem no_backup {fs : Fields} {v : Int} (layout : Nat) (hv : fs.values "version" = [.int v]) (hlo : 3 ≤ v) (hhi : v < 2 ^ 64)
    (h : Readable builds fs) (unreadable : Bool) :
    corruptBackup builds unreadable (some (.json (.obj fs) layout)) = none := by
  rcases h with h | h
  · simp [corruptBackup, ConfigFile.legacy, h]
  · simp [corruptBackup, newer_of_builds layout hv hlo hhi h]

/-- A load that succeeds is of the newer version. -/
theorem load_newer {fs : Fields} {v : Int} {layout : Nat} {unreadable : Bool} {cfg : Config} (hv : fs.values "version" = [.int v])
    (hlo : 3 ≤ v) (hhi : v < 2 ^ 64) (hr : Readable builds fs)
    (h : load builds unreadable (some (.json (.obj fs) layout)) = .ok cfg) : ∃ n, cfg.version = .unknown n := by
  unfold load at h
  dsimp only at h
  split at h
  · cases h
  split at h
  · rename_i raw hl
    cases h
    exact ⟨v.toNat, legacy_newer hv hlo hl⟩
  · rename_i hl
    have hb : builds (.obj fs) = true := by
      rcases hr with hs | hb
      · rw [show legacy (.obj fs) = none from hl] at hs
        cases hs
      · exact hb
    rw [newer_of_builds layout hv hlo hhi hb] at h
    cases h

/-! ## What the core does with it -/

namespace Core

/-- The configuration in memory is of a newer schema. -/
def Locked (c : Core) : Prop := ∃ n, c.cfg.version = .unknown n

theorem Locked.refuses {c : Core} (h : c.Locked) {cfg : Config} (hv : cfg.version = c.cfg.version) :
    ∃ err, ensureWritable cfg = .error err := by
  obtain ⟨n, hn⟩ := h
  exact ⟨_, by unfold ensureWritable; rw [hv, hn]⟩

theorem Locked.save {c : Core} (h : c.Locked) {cfg : Config} (hv : cfg.version = c.cfg.version) (fault : Option FsStep) :
    ∃ err, c.saveConfig cfg fault = (c, .error err) := by
  obtain ⟨err, he⟩ := h.refuses hv
  exact ⟨err, by simp only [saveConfig, Config.save, he]; rfl⟩

theorem Locked.generateKey {c : Core} (h : c.Locked) (force : Bool) (e : SectionEnv) : (c.generateKey force e).1 = c := by
  obtain ⟨err, he⟩ := h.refuses (rfl : c.cfg.version = c.cfg.version)
  simp only [Core.generateKey, he]

theorem Locked.pairSection {c : Core} (h : c.Locked) (e : SectionEnv) :
    (c.pairSection e).1 = c ∧ ∃ r, (c.pairSection e).2 = .done r := by
  obtain ⟨err, he⟩ := h.refuses (rfl : c.cfg.version = c.cfg.version)
  unfold Core.pairSection
  split
  · exact ⟨rfl, _, rfl⟩
  split
  · exact ⟨rfl, _, rfl⟩
  · rw [he]
    exact ⟨rfl, _, rfl⟩

theorem Locked.setConfigSection {c : Core} (h : c.Locked) (r : ConfigRequest) (e : SectionEnv) : (c.setConfigSection r e).1 = c := by
  obtain ⟨err, he⟩ := h.save (show (c.candidate r).version = c.cfg.version from rfl) e.save
  unfold Core.setConfigSection
  split
  · rfl
  · simp only [he]

/-- Whatever a locked core does next, its configuration and the file stay. -/
theorem Locked.advance {c : Core} (h : c.Locked) (K : Checks) (e : SectionEnv) (p : Pending) :
    (advance K c e p).1.cfg = c.cfg ∧ (advance K c e p).1.disk.config = c.disk.config := by
  have hstart : (c.startPhoneKey e.start).1.cfg = c.cfg ∧ (c.startPhoneKey e.start).1.disk.config = c.disk.config :=
    ⟨(startPhoneKey_kept c e.start).cfg, sparing_config (startPhoneKey_path c e.start.any fun _ => trivial)⟩
  cases p with
  | begun op =>
    cases op with
    | run cmd args => exact ⟨(run_steady K c cmd args e).cfg, sparing_config (run_path K c e.any fun _ _ => trivial)⟩
    | generateKey force =>
      have hg := h.generateKey force e
      exact ⟨congrArg Core.cfg hg, congrArg (·.disk.config) hg⟩
    | pair => rw [advance_pair, (h.pairSection e).1]; exact ⟨rfl, rfl⟩
    | startPhoneKey => exact hstart
    | stopPhoneKey => exact ⟨by rw [Control.advance, stopPhoneKeyLocked_eq], stopPhoneKeyLocked_config c e.stop⟩
    | handleResume =>
      refine ⟨?_, sparing_config (handleResumeSection_path c e.any)⟩
      show (c.handleResumeSection e).cfg = c.cfg
      rw [handleResumeSection_eq]
    | setConfig r => rw [advance_setConfig, h.setConfigSection r e]; exact ⟨rfl, rfl⟩
    | shareDestination text =>
      exact ⟨(shareDestination_steady K c text e).cfg, sparing_config (shareDestination_path K c text e.any fun _ _ => trivial)⟩
  | starting => exact hstart
  | popped x => exact ⟨rfl, rfl⟩
  | judged x due => rw [advance_judged]; exact ⟨rfl, rfl⟩
  | stopped x =>
    rw [advance_stopped]
    refine ⟨?_, sparing_config (pollGate_path c fun _ _ => trivial)⟩
    rcases pollGate_cases c e.invalidating with ⟨hp, _⟩ | ⟨hp, _⟩
    · rw [hp]
    · rw [hp]
      exact (invalidate_steady _ _).cfg
  | restarting x => exact hstart

/-- A core starts on such a file without writing it, if it starts. -/
theorem new_locked {w w' : World} {backend : Option Backend} {unreadable : Bool} {fault : Option FsStep} {c : Core}
    (hl : ∀ cfg, load builds unreadable w.disk.config = .ok cfg → ∃ n, cfg.version = .unknown n)
    (h : Core.new builds w backend unreadable fault = (w', .ok c)) : c.Locked ∧ c.host.world = w := by
  unfold Core.new at h
  split at h
  · cases h
  rename_i cfg hcfg
  obtain ⟨n, hn⟩ := hl cfg hcfg
  have hv : (cfg.version == .v0) = false := by rw [hn]; rfl
  have ho : cfg.version.older = false := by rw [hn]; rfl
  simp only [hv, Bool.false_and, Bool.false_eq_true, if_false, ho, Bool.or_self] at h
  cases h
  exact ⟨⟨n, hn⟩, rfl⟩

theorem new_error {w w' : World} {backend : Option Backend} {unreadable : Bool} {fault : Option FsStep} {err : IoError}
    (h : Core.new builds w backend unreadable fault = (w', .error err)) : w' = w := by
  unfold Core.new at h
  split at h
  · cases h
    rfl
  · cases h

end Core

/-! ## Runs -/

/-- The calls that write keys. -/
def Pending.ofKeys : Pending → Bool
  | .begun (.generateKey _) | .begun .pair => true
  | _ => false

/-- The event writes neither config.json nor a backup of it, and, if it is generate_key or
    pair, no key. -/
structure ReadOnly (K : Checks) (y : System) (ev : Event) : Prop where
  config : (y.step K ev).world.disk.config = y.world.disk.config
  others :
    match ev with
    | .new _ unreadable _ => y.up = false → corruptBackup K.builds unreadable y.world.disk.config = none
    | .advance i _ => ∀ p, y.calls[i]? = some p → p.ofKeys = true → (y.step K ev).world.disk = y.world.disk
    | _ => True

/-- The file is there, and a core that runs carries its version. -/
structure System.Locked (file : ConfigFile) (y : System) : Prop where
  file : y.world.disk.config = some file
  core : y.up = true → y.core.Locked
  calls : y.up = false → y.calls = []

theorem locked_start {file : ConfigFile} {w : World} (h : w.disk.config = some file) : (System.start w).Locked file :=
  ⟨h, nofun, fun _ => rfl⟩

/-- An event that keeps the file and the version. -/
theorem System.Locked.keep {file : ConfigFile} {y y' : System} (h : y.Locked file)
    (hf : y'.world.disk.config = y.world.disk.config) (hc : y.up = true → y'.core.cfg = y.core.cfg) (hup : y'.up = y.up)
    (hcalls : y.up = false → y'.calls = y.calls) : y'.Locked file where
  file := hf.trans h.file
  core hn := by
    obtain ⟨n, hv⟩ := h.core (hup ▸ hn)
    exact ⟨n, by rw [hc (hup ▸ hn)]; exact hv⟩
  calls hn := (hcalls (hup ▸ hn)).trans (h.calls (hup ▸ hn))

theorem Core.Locked.keys {c : Core} (h : c.Locked) (K : Checks) (e : SectionEnv) {p : Pending} (hp : p.ofKeys = true) :
    (Control.advance K c e p).1 = c := by
  unfold Pending.ofKeys at hp
  split at hp
  · exact h.generateKey _ e
  · rw [advance_pair]
    exact (h.pairSection e).1
  · cases hp

theorem locked_advance {K : Checks} {file : ConfigFile} {y : System} (hy : y.Locked file) (i : Nat) (e : SectionEnv) :
    ReadOnly K y (.advance i e) ∧ (y.step K (.advance i e)).Locked file := by
  cases hp : y.calls[i]? with
  | none =>
    have hs : y.step K (.advance i e) = y := by simp only [System.step, hp]
    exact ⟨⟨by rw [hs], fun p hn => by cases hp ▸ hn⟩, by rw [hs]; exact hy⟩
  | some p =>
    have hup : y.up = true := by
      cases hup : y.up with
      | true => rfl
      | false => rw [hy.calls hup] at hp; cases hp
    have hs : y.step K (.advance i e) =
        { y with core := (advance K y.core e p).1, calls := y.calls.eraseIdx i ++ (advance K y.core e p).2.toList } := by
      simp only [System.step, hp]
    obtain ⟨hc, hf⟩ := (hy.core hup).advance K e p
    rw [hs]
    refine ⟨⟨by rw [hs]; exact hf, fun q hq hk => ?_⟩, hy.keep hf (fun _ => hc) rfl fun hn => ?_⟩
    · cases hp.symm.trans hq
      rw [hs]
      exact congrArg Core.disk ((hy.core hup).keys K e hk)
    · rw [hup] at hn
      cases hn

theorem locked_new {K : Checks} {file : ConfigFile} {y : System} (hy : y.Locked file)
    (hl : ∀ unreadable cfg, load K.builds unreadable (some file) = .ok cfg → ∃ n, cfg.version = .unknown n)
    (backend : Option Backend) (unreadable : Bool) (fault : Option FsStep) :
    (y.step K (.new backend unreadable fault)).Locked file := by
  unfold System.step
  dsimp only
  split
  · exact hy
  · rename_i hup
    split
    · rename_i w err heq
      rw [Core.new_error heq]
      exact hy
    · rename_i c heq
      obtain ⟨hc, hw⟩ := Core.new_locked (fun cfg h => hl unreadable cfg (hy.file ▸ h)) heq
      refine ⟨?_, fun _ => hc, nofun⟩
      show c.host.world.disk.config = _
      rw [hw]
      exact hy.file

theorem locked_step {K : Checks} {fs : Fields} {v : Int} {layout : Nat} {y : System} (hv : fs.values "version" = [.int v])
    (hlo : 3 ≤ v) (hhi : v < 2 ^ 64) (hr : Readable K.builds fs) (hy : y.Locked (.json (.obj fs) layout)) (ev : Event) :
    ReadOnly K y ev ∧ (y.step K ev).Locked (.json (.obj fs) layout) := by
  cases ev with
  | move m =>
    have hf : (y.step K (.move m)).world.disk.config = y.world.disk.config :=
      sparing_config (Core.moves_path y.core fun _ _ => trivial)
    exact ⟨⟨hf, trivial⟩, hy.keep hf (fun _ => rfl) rfl fun _ => rfl⟩
  | call op =>
    have hs : (y.step K (.call op)).core = y.core := by
      unfold System.step
      dsimp only
      split <;> rfl
    have hu : (y.step K (.call op)).up = y.up := by
      unfold System.step
      dsimp only
      split <;> rfl
    have hcalls : y.up = false → (y.step K (.call op)).calls = y.calls := fun hn => by simp [System.step, hn]
    have hf : (y.step K (.call op)).world.disk.config = y.world.disk.config := by rw [System.world, hs, System.world]
    exact ⟨⟨hf, trivial⟩, hy.keep hf (fun _ => congrArg Core.cfg hs) hu hcalls⟩
  | poll =>
    have hf : (y.step K .poll).world.disk.config = y.world.disk.config := by
      unfold System.step
      dsimp only
      split
      · exact sparing_config (Core.pollEvent_path y.core)
      · rfl
    have hu : (y.step K .poll).up = y.up := by
      unfold System.step
      dsimp only
      split <;> rfl
    refine ⟨⟨hf, trivial⟩, hy.keep hf (fun hn => ?_) hu fun hn => by simp [System.step, hn]⟩
    simp only [System.step, hn, if_true]
    exact (Core.pollEvent_steady y.core).cfg
  | advance i e => exact locked_advance hy i e
  | drop e =>
    have hf : (y.step K (.drop e)).world.disk.config = y.world.disk.config := by
      unfold System.step
      dsimp only
      split
      · exact sparing_config (Core.drop_path y.core e.any fun _ => trivial)
      · rfl
    refine ⟨⟨hf, trivial⟩, hf.trans hy.file, fun hn => ?_, fun hn => ?_⟩
    · unfold System.step at hn ⊢
      dsimp only at hn ⊢
      split
      · rename_i hg
        rw [if_pos hg] at hn
        cases hn
      · rename_i hg
        rw [if_neg hg] at hn
        exact hy.core hn
    · unfold System.step at hn ⊢
      dsimp only at hn ⊢
      split
      · rename_i hg
        exact List.isEmpty_iff.1 (Bool.and_eq_true_iff.1 hg).2
      · rename_i hg
        rw [if_neg hg] at hn
        exact hy.calls hn
  | new backend unreadable fault =>
    have hn := locked_new (K := K) hy (fun _ _ => load_newer hv hlo hhi hr) backend unreadable fault
    exact ⟨⟨hn.file.trans hy.file.symm, fun _ => hy.file ▸ no_backup layout hv hlo hhi hr unreadable⟩, hn⟩

theorem locked_run {K : Checks} {fs : Fields} {v : Int} {layout : Nat} {y : System} (hv : fs.values "version" = [.int v])
    (hlo : 3 ≤ v) (hhi : v < 2 ^ 64) (hr : Readable K.builds fs) (hy : y.Locked (.json (.obj fs) layout)) (evs : List Event) :
    ((systems K).run y evs).Locked (.json (.obj fs) layout) := by
  induction evs generalizing y with
  | nil => exact hy
  | cons ev evs ih => exact ih (locked_step hv hlo hhi hr hy ev).2

/-- Over every run a document of a newer version is left as it is, if and only if serde can
    read it. -/
theorem newer_schema_read_only (K : Checks) {fs : Fields} {v : Int} (layout : Nat) (hv : fs.values "version" = [.int v])
    (hlo : 3 ≤ v) (hhi : v < 2 ^ 64) :
    (∀ w evs ev, w.disk.config = some (.json (.obj fs) layout) → ReadOnly K ((systems K).run (.start w) evs) ev) ↔
      Readable K.builds fs := by
  constructor
  · intro h
    by_contra hr
    let w : World := { pairedWorld with disk := { pairedWorld.disk with config := some (.json (.obj fs) layout) } }
    have hn := (h w [] (.new none false none) rfl).others rfl
    have hb := corrupt_of_unreadable layout hr
    exact Option.some_ne_none _ (hb.symm.trans hn)
  · intro hr w evs ev hw
    exact (locked_step hv hlo hhi hr (locked_run hv hlo hhi hr (locked_start hw) evs) ev).1

/-- The paired installation's file as a later build may write it. -/
def laterFields : Fields := .ofList (("version", .int 99) :: ("vehicles", .arr .nil) :: (configFields pairedConfig).toList.tail)

def withFile (fs : Fields) : World := { pairedWorld with disk := { pairedWorld.disk with config := some (.json (.obj fs) 1) } }

theorem later_read_only : (installed (withFile laterFields)).up = true ∧
    ReadOnly anyArgs ((systems anyArgs).run (.start (withFile laterFields))
      [.new (some .bluez) false none, .call (.setConfig otherCar)]) (.advance 0 {}) :=
  ⟨by decide, (newer_schema_read_only anyArgs 1 (show laterFields.values "version" = [.int 99] from rfl) (by decide) (by decide)).2 (.inl (by decide))
    (withFile laterFields) [.new (some .bluez) false none, .call (.setConfig otherCar)] (.advance 0 {}) rfl⟩

/-- Version 3, and a number no f64 holds. -/
def hugeNumber : Fields := .ofList [("version", .int 3), ("vehicles", .arr .nil), ("gain", .float false)]

/-- The first start backs it up as corrupt; the next set_config replaces it. -/
theorem newer_schema_overwritten :
    (corruptBackup anyArgs.builds false (withFile hugeNumber).disk.config = (withFile hugeNumber).disk.config ∧
      ((systems anyArgs).run (.start (withFile hugeNumber))
        [.new (some .bluez) false none, .call (.setConfig otherCar), .advance 0 {}]).world.disk.config ≠
          (withFile hugeNumber).disk.config) ∧
    ¬ ∀ (fs : Fields) (v : Int) layout, fs.values "version" = [.int v] → 3 ≤ v → v < 2 ^ 64 →
      ∀ w evs ev, w.disk.config = some (.json (.obj fs) layout) → ReadOnly anyArgs ((systems anyArgs).run (.start w) evs) ev := by
  refine ⟨by decide, fun h => ?_⟩
  have hbad := (h hugeNumber 3 1 rfl (by decide) (by decide) (withFile hugeNumber) [] (.new (some .bluez) false none) rfl).others rfl
  exact absurd hbad (by decide)

end ElectricEel.Control
