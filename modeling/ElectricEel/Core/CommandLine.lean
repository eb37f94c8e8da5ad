/-
  ElectricEel.Core.CommandLine — whether the child accepts the command line it is spawned
  with (helper/src/session_client.rs: `spawn`; core.rs; helper/session/main.go: `main`).

  A child that refuses its command line ends before it dials, so its spawn fails and its
  request is lost. Every operation but generate_key looks at the VIN before it sends
  anything; a stop sends only where a start went through, and no VIN is taken away from a
  started phone key without a stop.

  Proved: the child accepts the words of `spawn` just where they name a VIN (`accepts_iff`);
  whichever section runs next, nothing is sent while there is no VIN unless generate_key
  gets to its request (`advance_silent`); so every child spawned accepts its command line as
  long as generate_key finds a VIN, and refuses it where it finds none
  (`spawned_children_accept`). On a first run it finds none (`first_key_refused`).
-/
import ElectricEel.Child.Main
import ElectricEel.Core.Settings
import ElectricEel.Core.SpawnArgs
import ElectricEel.Numbers.Agreement

namespace ElectricEel.Control

open Lib Commands Wire Config Client Child.Main Numbers Share

/-! ## The words of spawn -/

/-- `Path::join` of a file name. -/
def joinPath (dir file : String) : String := if dir = "" ∨ dir.endsWith "/" then dir ++ file else dir ++ "/" ++ file

def privateKeyPath (stateDir : String) : String := joinPath stateDir "private_key.pem"

def sockPath (stateDir : String) (pid nextId : Nat) : String :=
  joinPath stateDir ("tesla-session-" ++ toString pid ++ "-" ++ toString nextId ++ ".sock")

def backendName : Backend → String
  | .hci => "hci"
  | .bluez => "bluez"

def idleTimeoutSec : Int := 90

def spawnArgv (a : SpawnArgs) (backend : Backend) (keyFile sock : String) : List String :=
  ["-vin", a.vin, "-key-file", keyFile, "-ble-backend", backendName backend,
    "-connect-timeout", Core.seconds a.connectTimeoutSec, "-command-timeout", Core.seconds a.commandTimeoutSec,
    "-idle-timeout", Core.seconds idleTimeoutSec, "-socket-path", sock]

theorem joinPath_ne {dir file : String} (h : file ≠ "") : joinPath dir file ≠ "" := by
  unfold joinPath
  split
  · simp [h]
  · simp [h]

theorem toList_seconds (n : Nat) : (Core.seconds n).toList = Nat.toDigits 10 n ++ ['s'] := by
  show (toString (n : Int) ++ "s").toList = _
  rw [String.toList_append]
  congr 1
  exact Nat.toList_repr

/-- Whole seconds are read back. -/
theorem parseDuration_toDigits {n : Nat} (h : n ≤ 3600) : parseDuration (Nat.toDigits 10 n ++ ['s']) = some ((n * second : Nat) : Int) := by
  have hdigits : ∀ c ∈ Nat.toDigits 10 n, c.isDigit = true := fun c hc => Nat.isDigit_of_mem_toDigits (by decide) (by decide) hc
  have hne : Nat.toDigits 10 n ≠ [] := Nat.toDigits_ne_nil
  have hv : F64.digitsValue (Nat.toDigits 10 n) = n := Nat.ofDigitChars_ten_toDigits
  have hterm := durationTerm_seconds hne hdigits (by rw [hv]; exact h)
  have hsum : n * second ≤ 3600 * second := Nat.mul_le_mul_right _ h
  have hsecond : 3600 * second < 2 ^ 63 := by decide
  have hmod : (0 + n * second) % 2 ^ 64 = n * second := by
    rw [Nat.zero_add]
    exact Nat.mod_eq_of_lt (by omega)
  rw [hv] at hterm
  obtain ⟨c, ds, hcons⟩ : ∃ c ds, Nat.toDigits 10 n ++ ['s'] = c :: ds :=
    List.exists_cons_of_ne_nil (List.append_ne_nil_of_left_ne_nil hne _)
  have hscan : durationScan (Nat.toDigits 10 n ++ ['s']).length 0 (Nat.toDigits 10 n ++ ['s']) = some (n * second) := by
    rw [hcons, List.length_cons]
    simp only [durationScan]
    rw [← hcons, hterm]
    simp only [hmod]
    rw [if_neg (by omega)]
    cases ds.length <;> rfl
  have hzero : Nat.toDigits 10 n ++ ['s'] ≠ ['0'] := by
    intro he
    have hlast := congrArg List.getLast? he
    rw [List.getLast?_concat] at hlast
    exact absurd hlast (by decide)
  simp only [parseDuration, F64.takeSign_digits hdigits hne, if_neg hzero]
  rw [if_neg (List.append_ne_nil_of_left_ne_nil hne _), hscan]
  simp only [Bool.false_eq_true, if_false]
  rw [if_neg (by omega)]

theorem duration_seconds {n : Int} (h : 1 ≤ n ∧ n ≤ 300) (name : String) : duration name (Core.seconds n) = .ok (n * second) := by
  obtain ⟨k, rfl⟩ := Int.eq_ofNat_of_zero_le (show 0 ≤ n by omega)
  rw [duration, toList_seconds, parseDuration_toDigits (by omega)]
  rfl

/-- The options the child gets to. -/
def spawnOptions (a : SpawnArgs) (backend : Backend) (keyFile sock : String) : Options :=
  { vin := a.vin, keyFile, bleBackend := backendName backend, connectTimeout := a.connectTimeoutSec * second,
    commandTimeout := a.commandTimeoutSec * second, idleTimeout := idleTimeoutSec * second, socketPath := sock }

theorem parse_spawnArgv {a : SpawnArgs} (hc : 1 ≤ a.connectTimeoutSec ∧ a.connectTimeoutSec ≤ 300)
    (hm : 1 ≤ a.commandTimeoutSec ∧ a.commandTimeoutSec ≤ 300) (backend : Backend) (keyFile sock : String) :
    parse (spawnArgv a backend keyFile sock) {} = .ok (spawnOptions a backend keyFile sock) := by
  have hwords : word "-vin" = .flag "vin" none ∧ word "-key-file" = .flag "key-file" none ∧
      word "-ble-backend" = .flag "ble-backend" none ∧ word "-connect-timeout" = .flag "connect-timeout" none ∧
      word "-command-timeout" = .flag "command-timeout" none ∧ word "-idle-timeout" = .flag "idle-timeout" none ∧
      word "-socket-path" = .flag "socket-path" none := by decide +kernel
  obtain ⟨hvin, hkey, hble, hconnect, hcommand, hidle, hsock⟩ := hwords
  have hi : 1 ≤ idleTimeoutSec ∧ idleTimeoutSec ≤ 300 := by decide
  rw [spawnArgv, parse_pair hvin]
  show parse _ { vin := a.vin } = _
  rw [parse_pair hkey]
  show parse _ { vin := a.vin, keyFile } = _
  rw [parse_pair hble]
  show parse _ { vin := a.vin, keyFile, bleBackend := backendName backend } = _
  rw [parse_pair hconnect, Options.set_connectTimeout, duration_seconds hc]
  show parse _ { vin := a.vin, keyFile, bleBackend := backendName backend, connectTimeout := a.connectTimeoutSec * second } = _
  rw [parse_pair hcommand, Options.set_commandTimeout, duration_seconds hm]
  show parse _
    { vin := a.vin, keyFile, bleBackend := backendName backend, connectTimeout := a.connectTimeoutSec * second,
      commandTimeout := a.commandTimeoutSec * second } = _
  rw [parse_pair hidle, Options.set_idleTimeout, duration_seconds hi]
  show parse _
    { vin := a.vin, keyFile, bleBackend := backendName backend, connectTimeout := a.connectTimeoutSec * second,
      commandTimeout := a.commandTimeoutSec * second, idleTimeout := idleTimeoutSec * second } = _
  rw [parse_pair hsock]
  rfl

/-- The child goes on to dial its parent. -/
def Accepts (a : SpawnArgs) : Prop :=
  ∀ backend stateDir pid nextId, (main (spawnArgv a backend (privateKeyPath stateDir) (sockPath stateDir pid nextId))).toBool = true

theorem main_spawnArgv {a : SpawnArgs} (hc : 1 ≤ a.connectTimeoutSec ∧ a.connectTimeoutSec ≤ 300)
    (hm : 1 ≤ a.commandTimeoutSec ∧ a.commandTimeoutSec ≤ 300) (backend : Backend) (stateDir : String) (pid nextId : Nat) :
    main (spawnArgv a backend (privateKeyPath stateDir) (sockPath stateDir pid nextId)) =
      if a.vin = "" then .error (.required "tesla-session: -vin and -key-file are required")
      else .ok (spawnOptions a backend (privateKeyPath stateDir) (sockPath stateDir pid nextId)) := by
  have hkey : privateKeyPath stateDir ≠ "" := joinPath_ne (by decide)
  have hsock : sockPath stateDir pid nextId ≠ "" := joinPath_ne (by simp)
  have hbackend : backendName backend = "hci" ∨ backendName backend = "bluez" := by cases backend <;> decide
  rw [main, parse_spawnArgv hc hm]
  exact @checked_eq (spawnOptions a backend _ _) hkey hsock hbackend

theorem accepts_iff {cfg : Config} (h : Sane cfg) : Accepts ⟨cfg.vin, cfg.connectTimeoutSec, cfg.commandTimeoutSec⟩ ↔ cfg.vin ≠ "" := by
  have hc := (timeoutOk_iff _).1 h.connect
  have hm := (timeoutOk_iff _).1 h.command
  constructor
  · intro ha hv
    have := ha .hci "" 0 0
    rw [main_spawnArgv hc hm, if_pos hv] at this
    cases this
  · intro hv backend stateDir pid nextId
    rw [main_spawnArgv hc hm, if_neg hv]
    rfl

/-! ## Lines written -/

theorem act_targets {s : Host} {x : Act} (h : ∀ c long arrives, x ≠ .writeLine c long arrives) :
    (s.act x).client.targets = s.client.targets := by
  cases x with
  | move m => exact (move_same s m).targets
  | cancel => exact (cancel_same s).targets
  | take => exact (take_same s).targets
  | writeLine c long arrives => exact absurd rfl (h c long arrives)
  | reap | setPresence | acknowledge | clearEvents | transportFailed | pollEvent | spawn => rfl

theorem prefix_of_targets {s t : Host} (h : t.client.targets = s.client.targets) : s.client.targets <+: t.client.targets :=
  h ▸ List.prefix_rfl

theorem act_grows (s : Host) (x : Act) : s.client.targets <+: (s.act x).client.targets := by
  cases x with
  | writeLine c long arrives => exact List.prefix_append _ _
  | move m => exact prefix_of_targets (move_same s m).targets
  | cancel => exact prefix_of_targets (cancel_same s).targets
  | take => exact prefix_of_targets (take_same s).targets
  | reap | setPresence | acknowledge | clearEvents | transportFailed | pollEvent | spawn => exact List.prefix_rfl

/-- The lines written stay in the record. -/
theorem acts_targets {P : Act → Prop} {s t : Host} (p : Host.Path P s t) : s.client.targets <+: t.client.targets :=
  p.inv (I := fun t => s.client.targets <+: t.client.targets) (fun u x _ hu => hu.trans (act_grows u x)) List.prefix_rfl

theorem invalidate_targets (s : Host) (during : List Move) : (s.invalidate during).client.targets = s.client.targets := by
  refine (Host.invalidate_path (K := fun _ => True) s fun _ _ => trivial).inv (I := fun t => t.client.targets = s.client.targets) ?_ rfl
  intro u x hx hu
  refine (act_targets fun c long arrives he => ?_).trans hu
  rw [he] at hx
  exact hx

theorem path_targets {S : Scope} {s t : Host} (p : S.Path s t) : s.client.targets <+: t.client.targets := by
  refine p.inv (I := fun t => s.client.targets <+: t.client.targets) ?_ List.prefix_rfl
  intro u op _ hu
  refine hu.trans ?_
  cases op with
  | run c e => exact acts_targets (Host.run_path u c e.any)
  | invalidate during => exact prefix_of_targets (invalidate_targets u during)
  | move m => exact prefix_of_targets (move_same u m).targets
  | pollEvent | clearEvents | files => exact List.prefix_rfl

/-- Without a call none is written. -/
theorem path_silent {s t : Host} (p : Scope.silent.Path s t) : t.client.targets = s.client.targets := by
  refine p.inv (I := fun t => t.client.targets = s.client.targets) ?_ rfl
  intro u op hop hu
  refine Eq.trans ?_ hu
  cases op with
  | run c e => exact hop.1.elim
  | invalidate during => exact invalidate_targets u during
  | move m => exact (move_same u m).targets
  | pollEvent | clearEvents | files => rfl

/-- With no child in the slot a run spawns one, if nothing else fails, and writes to it. -/
theorem run_targets {s : Host} (hs : s.slot = none) {e : RunEnv} (he : e.spawn = none) (c : Call) :
    ∃ x, s.client.targets ++ [x] <+: (s.run c e).1.client.targets := by
  have hr : s.reaches e = true := by
    rw [Host.reaches, he]
    exact Bool.or_true _
  obtain ⟨h, hc⟩ := Option.isSome_iff_exists.1 (beforeWrite_child hr c)
  have hbefore : (s.beforeWrite c e).client.targets = s.client.targets := by
    have hempty : s.retireDead e.retiring = s := by
      unfold Host.retireDead
      rw [slot_none.1 hs]
    rw [Host.beforeWrite, hempty, (moves_same _ _).targets]
    unfold Host.ensureChild
    rw [slot_none.1 hs, he]
    rfl
  have hline : ∀ arrives, ((s.beforeWrite c e).writeLine c e.long arrives).client.targets =
      s.client.targets ++ [⟨h.gen, h.vin, h.connectTimeoutSec, h.commandTimeoutSec, c⟩] := by
    intro arrives
    show (s.beforeWrite c e).client.targets ++ ((s.beforeWrite c e).client.child.map _).toList = _
    rw [hc, hbefore]
    rfl
  refine ⟨⟨h.gen, h.vin, h.connectTimeoutSec, h.commandTimeoutSec, c⟩, ?_⟩
  rw [run_reached hr]
  unfold Host.afterWrite
  split
  · rename_i arrived _
    rw [← hline arrived]
    exact acts_targets (Host.fail_path (K := fun _ => True) (c := c) _ _ fun _ _ => trivial)
  · rw [← hline true]
    exact (prefix_of_targets (moves_same _ e.waiting).targets).trans
      (acts_targets (Host.receive_path (K := fun _ => True) (c := c) _ _ _ fun _ _ => trivial))

/-! ## Without a VIN -/

namespace Core

/-- No VIN, and no phone key started. -/
structure Unset (c : Core) : Prop where
  vin : c.cfg.vin = ""
  started : c.phoneKeyStarted = false

/-- generate_key gets to its request. -/
def KeygenAsks (c : Core) (force : Bool) (e : SectionEnv) : Prop :=
  c.session = true ∧ ensureWritable c.cfg = .ok () ∧ ((force || c.disk.priv.isNone) = true → e.save = none)

variable {c : Core}

theorem Unset.commonArgs (h : Unset c) : c.commonArgsLocked = .error (.notConfigured "VIN is not set; call SetConfig first") := by
  rw [commonArgsLocked, if_pos h.vin]

theorem Unset.run (h : Unset c) (K : Checks) (cmd : Cmd) (args : List String) (e : SectionEnv) : (c.run K cmd args e).1 = c := by
  unfold Core.run
  rw [h.commonArgs]
  split
  · rfl
  split
  · rfl
  split <;> rfl

theorem Unset.shareDestination (h : Unset c) (K : Checks) (text : String) (e : SectionEnv) : (c.shareDestination K text e).1 = c := by
  unfold Core.shareDestination
  split
  · rfl
  split
  · rfl
  · rw [if_pos h.vin]

/-- A start is refused. -/
theorem Unset.startPhoneKey (h : Unset c) (e : StartEnv) : (c.startPhoneKey e).1 = c.checked e := by
  have hs := Control.Core.started c e
  generalize c.startPhoneKey e = r at hs ⊢
  cases hs with
  | kept hstarted _ =>
    rw [h.started] at hstarted
    cases hstarted
  | refused => rfl
  | sent _ hready =>
    have hvin : (c.checked e).cfg.vin = "" := h.vin
    simp [ready, eligible, hvin] at hready

theorem Unset.stopPhoneKeyLocked (h : Unset c) (e : StopEnv) : (c.stopPhoneKeyLocked e).host = c.host := by
  rw [stopPhoneKeyLocked_eq]
  show c.stopHost e = c.host
  rw [stopHost, h.started]
  rfl

theorem Unset.pairSection (h : Unset c) (e : SectionEnv) : Scope.silent.Path c.host (c.pairSection e).1.host := by
  have hm : Scope.silent.Path c.host ((c.stopPhoneKeyLocked e.stop).moves e.mid).host := by
    have hp := @moves_path .silent (c.stopPhoneKeyLocked e.stop) e.mid fun _ _ => trivial
    rwa [h.stopPhoneKeyLocked e.stop] at hp
  have hunset : Unset ((c.stopPhoneKeyLocked e.stop).moves e.mid) := by
    rw [stopPhoneKeyLocked_eq]
    exact ⟨h.vin, rfl⟩
  unfold Core.pairSection
  split
  · exact .refl
  split
  · exact .refl
  split
  · exact .refl
  dsimp only
  rw [hunset.commonArgs]
  exact hm

/-- A save, a stop that sends nothing, and the child dropped. -/
theorem Unset.persisted (h : Unset c) {c' : Core} {cfg : Config} {e : SectionEnv} {r : Except IoError Unit}
    (hs : c.saveConfig cfg e.save = (c', r)) :
    Scope.silent.Path c.host ({ c'.stopPhoneKeyLocked e.stop with cfg }.invalidate e.invalidating).host := by
  have hsave := saveConfig_path (S := .silent) c cfg e.save Scope.silent_writes
  have hst := saveConfig_steady c cfg e.save
  rw [hs] at hsave hst
  have hunset : Unset c' := ⟨by rw [hst.cfg, h.vin], hst.phoneKeyStarted.trans h.started⟩
  have hinv := @invalidate_path .silent { c'.stopPhoneKeyLocked e.stop with cfg } e.invalidating fun _ _ => trivial
  rw [show ({ c'.stopPhoneKeyLocked e.stop with cfg } : Core).host = c'.host from hunset.stopPhoneKeyLocked e.stop] at hinv
  exact hsave.trans hinv

theorem Unset.setConfigSection (h : Unset c) (r : ConfigRequest) (e : SectionEnv) :
    Scope.silent.Path c.host (c.setConfigSection r e).1.host := by
  have hsave := saveConfig_path (S := .silent) c (c.candidate r) e.save Scope.silent_writes
  unfold Core.setConfigSection
  split
  · exact .refl
  dsimp only
  split
  · rename_i heq
    rwa [heq] at hsave
  · rename_i heq
    exact h.persisted heq

theorem Unset.resetEnrollment (h : Unset c) (e : SectionEnv) : Scope.silent.Path c.host (c.resetEnrollment e).1.host := by
  have hsave := saveConfig_path (S := .silent) c { c.cfg with vinState := .unpaired } e.save Scope.silent_writes
  unfold Core.resetEnrollment
  dsimp only
  split
  · rename_i heq
    rwa [heq] at hsave
  · rename_i heq
    exact h.persisted heq

/-- A generate_key that does not get to its request. -/
theorem Unset.generateKey (h : Unset c) {force : Bool} {e : SectionEnv} (hk : ¬c.KeygenAsks force e) :
    Scope.silent.Path c.host (c.generateKey force e).1.host := by
  cases hs : c.session with
  | false => exact generateKey_path c force e.any (fun _ _ _ ht => by rw [hs] at ht; cases ht) Scope.silent_writes
  | true =>
    have hreset := h.resetEnrollment e
    unfold Core.generateKey
    split
    · exact .refl
    · rename_i hw
      have hr : (force || c.disk.priv.isNone) = true ∧ e.save ≠ none := by
        by_contra hn
        exact hk ⟨hs, hw, fun hf => by_contra fun hsave => hn ⟨hf, hsave⟩⟩
      rw [if_pos hr.1]
      split
      · rename_i heq
        rwa [heq] at hreset
      · rename_i c' heq
        -- the save failed
        have hok : (c.resetEnrollment e).2 = .ok () := by rw [heq]
        have hsaved : (save { c.cfg with vinState := .unpaired } c.disk.config e.save).2 = .ok () := by
          unfold Core.resetEnrollment at hok
          dsimp only at hok
          split at hok
          · cases hok
          · rename_i hsaved
            exact congrArg Prod.snd hsaved
        exact absurd ((save_ok_iff _ _ _).1 hsaved).2 hr.2

theorem Unset.drop (h : Unset c) (e : SectionEnv) : Scope.silent.Path c.host (c.drop e).host := by
  have hinv := @invalidate_path .silent (c.stopPhoneKeyLocked e.stop) e.invalidating fun _ _ => trivial
  rwa [h.stopPhoneKeyLocked e.stop] at hinv

theorem Unset.startPhoneKey_silent (h : Unset c) (e : StartEnv) : Scope.silent.Path c.host (c.startPhoneKey e).1.host := by
  rw [h.startPhoneKey]
  exact moves_path { c with phoneKeyStarted := false } fun _ _ => trivial

end Core

open ElectricEel.Control.Core in
theorem advance_silent (K : Checks) {c : Core} (h : c.Unset) {e : SectionEnv} {p : Pending}
    (hk : ∀ force, p = .begun (.generateKey force) → ¬c.KeygenAsks force e) : Scope.silent.Path c.host (advance K c e p).1.host := by
  cases p with
  | begun op =>
    cases op with
    | run cmd args =>
      show Scope.silent.Path c.host (c.run K cmd args e).1.host
      rw [h.run]
    | generateKey force => exact h.generateKey (hk force rfl)
    | pair =>
      rw [advance_pair]
      exact h.pairSection e
    | startPhoneKey => exact h.startPhoneKey_silent e.start
    | stopPhoneKey =>
      show Scope.silent.Path c.host (c.stopPhoneKeyLocked e.stop).host
      rw [h.stopPhoneKeyLocked]
    | handleResume => exact handleResumeSection_path c e.any
    | setConfig r =>
      rw [advance_setConfig]
      exact h.setConfigSection r e
    | shareDestination text =>
      show Scope.silent.Path c.host (c.shareDestination K text e).1.host
      rw [h.shareDestination]
  | starting => exact h.startPhoneKey_silent e.start
  | popped x => exact .refl
  | judged x due =>
    rw [advance_judged]
  | stopped x =>
    rw [advance_stopped]
    exact pollGate_path c fun _ _ => trivial
  | restarting x => exact h.startPhoneKey_silent e.start

open ElectricEel.Control.Core in
theorem advance_started (K : Checks) {c : Core} (h : c.Unset) (e : SectionEnv) (p : Pending) :
    (advance K c e p).1.phoneKeyStarted = false := by
  cases p with
  | begun op =>
    cases op with
    | run cmd args => exact (run_steady K c cmd args e).phoneKeyStarted.trans h.started
    | generateKey force =>
      rcases generateKey_ended c force e with hs | he
      · exact hs.phoneKeyStarted.trans h.started
      · exact he.phoneKeyStarted
    | pair =>
      rw [advance_pair]
      rcases pairSection_ended c e with ⟨hs, _⟩ | he
      · rw [hs]
        exact h.started
      · exact he.phoneKeyStarted
    | startPhoneKey => exact congrArg Core.phoneKeyStarted (h.startPhoneKey e.start)
    | stopPhoneKey => exact (stopPhoneKeyLocked_ended c e.stop).phoneKeyStarted
    | handleResume =>
      show (c.handleResumeSection e).phoneKeyStarted = false
      rw [handleResumeSection_eq]
    | setConfig r =>
      rw [advance_setConfig]
      rcases setConfigSection_ended c r e with ⟨_, _, hs⟩ | he
      · exact hs.phoneKeyStarted.trans h.started
      · exact he.phoneKeyStarted
    | shareDestination text => exact (shareDestination_steady K c text e).phoneKeyStarted.trans h.started
  | starting => exact congrArg Core.phoneKeyStarted (h.startPhoneKey e.start)
  | popped x => exact h.started
  | judged x due =>
    rw [advance_judged]
    exact h.started
  | stopped x =>
    rw [advance_stopped]
    rcases pollGate_cases c e.invalidating with ⟨hp, _⟩ | ⟨hp, _⟩
    · rw [hp]
    · rw [hp]
      exact (invalidate_steady _ _).phoneKeyStarted
  | restarting x => exact congrArg Core.phoneKeyStarted (h.startPhoneKey e.start)

/-! ## First-run key generation -/

namespace Core

variable {c : Core} {force : Bool} {e : SectionEnv}

theorem keygen_writes (hs : c.session = true) (hslot : c.host.slot = none) (he : e.run.spawn = none) :
    ∃ x, c.host.client.targets ++ [x] <+: (c.keygen force e).1.host.client.targets := by
  obtain ⟨x, hx⟩ := run_targets hslot he (c.call .keygen (if force then ["-f"] else []))
  refine ⟨x, ?_⟩
  have hrun : c.host.client.targets ++ [x] <+: (c.sessionRun .keygen (if force then ["-f"] else []) e.run).1.host.client.targets := hx
  unfold keygen
  rw [hs]
  simp only [Bool.not_true, Bool.false_eq_true, if_false]
  split
  · rename_i heq
    rwa [heq] at hrun
  · rename_i heq
    rw [heq] at hrun
    split
    · exact hrun
    · split <;> exact hrun

/-- It spawns a child, VIN or no VIN. -/
theorem Unset.generateKey_writes (h : Unset c) (hslot : c.host.slot = none) (hk : c.KeygenAsks force e) (he : e.run.spawn = none) :
    ∃ x, c.host.client.targets ++ [x] <+: (c.generateKey force e).1.host.client.targets := by
  obtain ⟨hs, hw, hsave⟩ := hk
  unfold Core.generateKey
  rw [hw]
  dsimp only
  split
  · rename_i hr
    have hsilent := path_silent (h.resetEnrollment e)
    split
    · rename_i heq
      have hok : (save { c.cfg with vinState := .unpaired } c.disk.config e.save).2 = .ok () := (save_ok_iff _ _ _).2 ⟨hw, hsave hr⟩
      unfold Core.resetEnrollment at heq
      dsimp only at heq
      split at heq
      · rename_i heq'
        have herr := congrArg Prod.snd heq'
        rw [show (c.saveConfig _ e.save).2 = _ from hok] at herr
        cases herr
      · cases heq
    · rename_i c' heq
      rw [heq] at hsilent
      obtain ⟨x, hx⟩ := @keygen_writes c' force e ((resetEnrollment_call heq).2.trans hs) (resetEnrollment_slot hs heq) he
      rw [hsilent] at hx
      refine ⟨x, ?_⟩
      split
      · rename_i heq'
        rwa [heq'] at hx
      · rename_i heq'
        rw [heq'] at hx
        exact hx.trans (path_targets (S := .silent) (invalidate_path _ fun _ _ => trivial))
  · exact keygen_writes hs hslot he

end Core

/-! ## Runs -/

/-- A generate_key that gets to its request has a VIN. -/
def System.VinSet (y : System) (ev : Event) : Prop :=
  ∀ i e force, ev = .advance i e → y.calls[i]? = some (.begun (.generateKey force)) → y.core.KeygenAsks force e → y.core.cfg.vin ≠ ""

/-- Without a VIN no phone key is started, and there is no child. -/
def System.Childless (y : System) : Prop := y.core.cfg.vin = "" → y.core.phoneKeyStarted = false ∧ y.core.host.slot = none

section

variable {K : Checks} {y : System}

theorem step_silent (h : y.core.Unset) {ev : Event} (hm : y.VinSet ev) :
    Scope.silent.Path y.core.host (y.step K ev).core.host ∨ (y.step K ev).core.host.Fresh := by
  refine y.step_path_of K (fun _ _ => trivial) ?_ fun e _ _ => h.drop e
  intro i e p he hp
  refine advance_silent K h fun force hforce hk => ?_
  rw [hforce] at hp
  exact hm i e force he hp hk h.vin

theorem wrote_nil {ev : Event}
    (h : Scope.silent.Path y.core.host (y.step K ev).core.host ∨ (y.step K ev).core.host.Fresh) : y.wrote K ev = [] := by
  unfold System.wrote
  rcases h with hp | ⟨b, hf⟩
  · rw [path_silent hp, List.drop_length]
  · rw [hf]
    exact List.drop_nil

/-- Without a core nothing is written. -/
theorem wrote_down (hc : y.Current 0) (hup : y.up = false) (ev : Event) : y.wrote K ev = [] := by
  refine wrote_nil (y.step_path_of K (fun _ _ => trivial) ?_ ?_)
  · intro i e p _ hp
    rw [(hc.down hup).2] at hp
    cases hp
  · intro e _ ht
    rw [hup] at ht
    cases ht

/-- Only set_config takes a VIN away, and then nothing is left of the phone key. -/
theorem advance_vin (hc : y.Current 0) {i : Nat} {p : Pending} (hp : y.calls[i]? = some p) (e : SectionEnv)
    (hv : y.core.cfg.vin ≠ "") (hv' : (advance K y.core e p).1.cfg.vin = "") :
    (advance K y.core e p).1.phoneKeyStarted = false ∧ (advance K y.core e p).1.host.slot = none := by
  have hcur : (y.step K (.advance i e)).Current 0 := hc.step (.inl rfl)
  have hcore : (y.step K (.advance i e)).core = (advance K y.core e p).1 := by simp only [System.step, hp]
  by_cases hset : ∃ r, p = .begun (.setConfig r)
  · obtain ⟨r, rfl⟩ := hset
    refine ⟨?_, ?_⟩
    · rw [advance_setConfig] at hv' ⊢
      rcases Core.setConfigSection_ended y.core r e with ⟨_, _, hs⟩ | he
      · exact absurd (hs.cfg ▸ hv') hv
      · exact he.phoneKeyStarted
    · cases hs : y.core.session with
      | false =>
        rw [← hcore]
        exact hcur.noSession (by rw [hcore, advance_session]; exact hs)
      | true =>
        rw [advance_setConfig] at hv' ⊢
        rcases Core.setConfigSection_slot hs r e with ⟨_, hst⟩ | ⟨_, hslot⟩
        · exact absurd (hst.cfg ▸ hv') hv
        · exact hslot
  · have hargs := advance_same_args K y.core e fun r he => hset ⟨r, he⟩
    exact absurd ((congrArg SpawnArgs.vin hargs).symm.trans hv') hv

theorem System.Childless.step (hn : y.Childless) (hc : y.Current 0) {ev : Event} (hm : y.VinSet ev) : (y.step K ev).Childless := by
  -- without a VIN the slot stays empty
  have hslot : y.core.cfg.vin = "" → (y.step K ev).core.host.slot = none := by
    intro hv
    rcases step_silent ⟨hv, (hn hv).1⟩ hm (K := K) with hp | ⟨b, hf⟩
    · exact path_empty hp (hn hv).2
    · rw [Host.slot, hf]
      rfl
  cases ev with
  | move m => exact fun hv => ⟨(hn hv).1, hslot hv⟩
  | call op =>
    unfold System.step
    dsimp only
    split <;> exact hn
  | poll =>
    unfold System.step at hslot ⊢
    dsimp only at hslot ⊢
    split
    · rename_i hup
      rw [if_pos hup] at hslot
      have hs := Core.pollEvent_steady y.core
      intro hv
      rw [show _ = y.core.cfg from hs.cfg] at hv
      exact ⟨hs.phoneKeyStarted.trans (hn hv).1, hslot hv⟩
    · exact hn
  | advance i e =>
    cases hp : y.calls[i]? with
    | none =>
      rw [show y.step K (.advance i e) = y by simp only [System.step, hp]]
      exact hn
    | some p =>
      have hcore : (y.step K (.advance i e)).core = (advance K y.core e p).1 := by simp only [System.step, hp]
      unfold System.Childless
      intro hv'
      by_cases hv : y.core.cfg.vin = ""
      · refine ⟨?_, hslot hv⟩
        rw [hcore]
        exact advance_started K ⟨hv, (hn hv).1⟩ e p
      · rw [hcore] at hv' ⊢
        exact advance_vin hc hp e hv hv'
  | drop e =>
    unfold System.step
    dsimp only
    split
    · exact fun _ => ⟨(Core.drop_ended y.core e).phoneKeyStarted, drop_slot hc.noSession e⟩
    · exact hn
  | new backend unreadable fault =>
    unfold System.step
    dsimp only
    split
    · exact hn
    · split
      · exact hn
      · rename_i heq
        unfold Core.new at heq
        split at heq
        · cases heq
        · cases heq
          exact fun _ => ⟨rfl, rfl⟩

theorem childless (h : (systems K).Reach System.VinSet y) : y.Childless := by
  have hinv : y.Current 0 ∧ y.Childless := by
    refine h.inv (I := fun y => y.Current 0 ∧ y.Childless) ?_ fun y ev hy hm => ⟨hy.1.step (.inl rfl), hy.2.step hy.1 hm⟩
    rintro y ⟨w, rfl⟩
    exact ⟨⟨fun _ => nofun, Nat.zero_le _, fun _ => rfl, fun _ => ⟨rfl, rfl⟩⟩, fun _ => ⟨rfl, rfl⟩⟩
  exact hinv.2

/-- Every line goes to a child that accepted its command line, as long as generate_key finds a
    VIN; where it finds none, the child it spawns refuses. -/
theorem spawned_children_accept (h : (systems K).Reach System.VinSet y) (ev : Event) :
    (y.VinSet ev → ∀ x ∈ y.wrote K ev, Accepts x.spawnArgs) ∧
      (¬y.VinSet ev → (∀ i e, ev = .advance i e → e.run.spawn = none) → ∃ x ∈ y.wrote K ev, ¬Accepts x.spawnArgs) := by
  have hc : y.Current 0 := current h
  have hsane := memory_sane (h.mono fun _ _ _ => trivial)
  have hiff : ∀ x ∈ y.wrote K ev, (Accepts x.spawnArgs ↔ y.core.cfg.vin ≠ "") := by
    intro x hx
    have hup : y.up = true := by
      by_contra hdown
      rw [wrote_down hc (Bool.eq_false_iff.2 hdown)] at hx
      cases hx
    rw [(hc.wrote ev x hx).1]
    exact accepts_iff (hsane hup)
  constructor
  · intro hm x hx
    refine (hiff x hx).2 fun hv => ?_
    rw [wrote_nil (step_silent ⟨hv, ((childless h) hv).1⟩ hm)] at hx
    cases hx
  · intro hm hspawn
    unfold System.VinSet at hm
    push Not at hm
    obtain ⟨i, e, force, rfl, hcall, hk, hv⟩ := hm
    obtain ⟨hstarted, hslot⟩ := childless h hv
    obtain ⟨x, l, hl⟩ := Core.Unset.generateKey_writes ⟨hv, hstarted⟩ hslot hk (hspawn i e rfl)
    have hx : x ∈ y.wrote K (.advance i e) := by
      have hcore : (y.step K (.advance i e)).core = (y.core.generateKey force e).1 := by
        simp only [System.step, hcall]
        rfl
      unfold System.wrote
      rw [hcore, ← hl, List.append_assoc, List.drop_left]
      exact List.mem_cons_self
    exact ⟨x, hx, fun ha => (hiff x hx).1 ha hv⟩

/-- A phone key started on a paired vehicle. -/
theorem paired_accepted :
    (((systems anyArgs).run (.start pairedWorld) [.new (some .bluez) false none, .call .startPhoneKey]).wrote anyArgs
      (.advance 0 startAnswered)).map Target.gen = [1] ∧
    ∀ x ∈ ((systems anyArgs).run (.start pairedWorld) [.new (some .bluez) false none, .call .startPhoneKey]).wrote anyArgs
      (.advance 0 startAnswered), Accepts x.spawnArgs := by
  have hreach : (systems anyArgs).Reach System.VinSet
      ((systems anyArgs).run (.start pairedWorld) [.new (some .bluez) false none, .call .startPhoneKey]) := by
    refine Machine.Reach.run (M := systems anyArgs) (.init ⟨pairedWorld, rfl⟩) _ ⟨?_, ?_, trivial⟩
    · intro i e force he
      cases he
    · intro i e force he
      cases he
  refine ⟨by decide, (spawned_children_accept hreach (.advance 0 startAnswered)).1 ?_⟩
  intro i e force he hcall
  cases he
  cases hcall

end

/-! ## A first run -/

/-- Nothing is on the disk yet. -/
def freshWorld : World :=
  { disk := { config := none, priv := none, pub := none }, whitelist := [], now := 0, confirmed := [] }

/-- The app asks for a key. -/
def firstRun : System := (systems anyArgs).run (.start freshWorld) [.new (some .bluez) false none, .call (.generateKey false)]

theorem firstRun_reached : (systems anyArgs).Reach (fun _ _ => True) firstRun :=
  Machine.Reach.run (M := systems anyArgs) (.init ⟨freshWorld, rfl⟩) _ (.of_forall (fun _ _ => trivial) _ _)

/-- The child ends over its missing VIN and the parent waits for its hello. -/
def refused : SectionEnv := { run := { spawn := some (.handshake "tesla-session did not connect in time") } }

/-- There is no key without a VIN. -/
theorem first_key_refused :
    firstRun.calls = [.begun (.generateKey false)] ∧
    (∀ backend stateDir pid nextId,
      main (spawnArgv firstRun.core.spawnArgs backend (privateKeyPath stateDir) (sockPath stateDir pid nextId)) =
        .error (.required "tesla-session: -vin and -key-file are required")) ∧
    (firstRun.core.generateKey false refused).2 =
      .error (.keygenFailed "tesla-session handshake failed: tesla-session did not connect in time") ∧
    ¬ ∀ y ev, (systems anyArgs).Reach (fun _ _ => True) y → ∀ x ∈ y.wrote anyArgs ev, Accepts x.spawnArgs := by
  have hargs : firstRun.core.spawnArgs = ⟨"", 20, 5⟩ := by decide
  have hmain : ∀ backend stateDir pid nextId,
      main (spawnArgv firstRun.core.spawnArgs backend (privateKeyPath stateDir) (sockPath stateDir pid nextId)) =
        .error (.required "tesla-session: -vin and -key-file are required") := by
    intro backend stateDir pid nextId
    rw [hargs, main_spawnArgv (by decide) (by decide), if_pos rfl]
  refine ⟨by decide, hmain, by decide +kernel, fun h => ?_⟩
  have hwrote : (firstRun.wrote anyArgs (.advance 0 {})).map Target.spawnArgs = [firstRun.core.spawnArgs] := by decide
  obtain ⟨x, hx, hxargs⟩ : ∃ x ∈ firstRun.wrote anyArgs (.advance 0 {}), x.spawnArgs = firstRun.core.spawnArgs := by
    apply List.mem_map.1
    rw [hwrote]
    exact List.mem_cons_self
  have ha := h firstRun (.advance 0 {}) firstRun_reached x hx .hci "" 0 0
  rw [hxargs, hmain] at ha
  cases ha

end ElectricEel.Control
