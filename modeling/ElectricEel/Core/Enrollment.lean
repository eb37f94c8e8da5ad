/-
  ElectricEel.Core.Enrollment — a paired state is about the key on disk (helper/src/core.rs
  `generate_key`, `pair`, `set_config`, `Core::new`; session/pairing.go).

  Files, memory and vehicles are changed by the calls of one core after another, by the
  children and the drivers. Every write of a file, every child request and every save can
  fail, each write before or after its rename. Between two events the core can be dropped,
  or its process killed with calls in progress (`Life.killed`); a kill within a section is
  one after it, the section's remaining writes and requests having failed. The start file
  is of any schema but V0, or missing. Nobody removes private_key.pem and no child forges
  a response.

  `Heir` is a history variable: the VIN and the key the start file was about, and whether
  it said paired and neither has changed since. `Recorded`: what one section does to the
  settings in memory and on disk. The key is touched only once both say unpaired; paired
  is recorded only after a pair request answered OK, by a child with the VIN in memory.

  Proved: every section is `Recorded` (`advance_recorded`); whenever memory or disk says
  paired, the key on disk is one the vehicle with that VIN confirmed, or VIN and key are
  the inherited ones (`paired_means_enrolled`).
-/
import ElectricEel.Client.Pairing
import ElectricEel.Core.Persistence
import ElectricEel.Core.SpawnArgs

namespace ElectricEel.Control

open Lib Commands Wire Config Client

variable {builds : Json → Bool}

/-! ## Paths -/

/-- Nobody makes or removes a key where private_key.pem is `f`, and no settings are saved. -/
def Scope.keeping (f : Option PrivFile) : Scope :=
  { moves := (· ≠ .unlinkKey), calls := fun c => KeepsKey f c.cmd c.args,
    files := fun w w' => w'.disk.config = w.disk.config ∧ w'.disk.priv = w.disk.priv }

/-- Only keygen makes a key. -/
theorem keeping_call {f : Option PrivFile} (c : Core) {cmd : Cmd} (h : cmd ≠ .keygen) (args : List String) :
    (Scope.keeping f).calls (c.call cmd args) := fun hc => absurd hc h

theorem step_held {f : Option PrivFile} {s : Host} (h : s.Held f) {op : Op} (ho : (Scope.keeping f).Allows s op) : (s.step op).Held f := by
  cases op with
  | run c e => exact run_held h ho.1 ho.2
  | invalidate during =>
    refine (Host.invalidate_path (K := (· ≠ .unlinkKey)) s ho).inv (I := Host.Held f) (fun t a ha ht => act_held ht ?_ ?_) h
    · rintro rfl
      rcases ha with ha | ha <;> simp at ha
    · rintro c long rfl
      exact ha.elim
  | move m => exact act_held h (a := .move m) (fun hm => ho (Act.move.inj hm)) fun _ _ => nofun
  | files w => exact ⟨ho.2.trans h.priv, h.inbox⟩
  | pollEvent | clearEvents => exact ⟨h.priv, h.inbox⟩

theorem keeping_sparing {f : Option PrivFile} {s t : Host} (p : (Scope.keeping f).Path s t) : Scope.sparing.Path s t := by
  refine Machine.Path.weaken (fun u op ho => ?_) p
  cases op with
  | run c e => exact ⟨trivial, e.any⟩
  | invalidate during => exact fun _ _ => trivial
  | move m => trivial
  | files w => exact ho.1
  | pollEvent | clearEvents => trivial

theorem held_path {f : Option PrivFile} {s t : Host} (p : (Scope.keeping f).Path s t) (h : s.Held f) : t.Held f :=
  p.inv (I := Host.Held f) (fun _ _ ho ht => step_held ht ho) h

/-- Whatever writes a file leaves the record of confirmed enrollments alone. -/
def Scope.recording : Scope := { moves := fun _ => True, calls := fun _ => True, files := fun w w' => w'.confirmed = w.confirmed }

theorem Scope.recording_writes : Scope.recording.Writes where
  pub _ _ := rfl
  oneShot w force e := by
    show (Core.teslaKeygen w force e).1.confirmed = _
    unfold Core.teslaKeygen Core.teslaKeygenKey
    dsimp only
    grind [World.setPriv, World.setPub]
  config _ _ := rfl

theorem confirmed_path {s t : Host} (p : Scope.recording.Path s t) : ∀ x ∈ s.world.confirmed, x ∈ t.world.confirmed := by
  refine p.inv (I := fun t => ∀ x ∈ s.world.confirmed, x ∈ t.world.confirmed) (fun t op ho ht x hx => ?_) fun _ hx => hx
  have hpath : ∀ {P : Act → Prop} {u : Host}, Host.Path P t u → x ∈ u.world.confirmed := fun q =>
    q.inv (I := fun u => x ∈ u.world.confirmed) (fun u a _ hu => act_confirmed u a x hu) (ht x hx)
  cases op with
  | run c e => exact hpath (Host.run_path t c e.any)
  | invalidate during => exact hpath (Host.invalidate_path (K := fun _ => True) t fun _ _ => trivial)
  | move m => exact act_confirmed t (.move m) x (ht x hx)
  | files w =>
    show x ∈ w.confirmed
    rw [show w.confirmed = t.world.confirmed from ho]
    exact ht x hx
  | pollEvent | clearEvents => exact ht x hx

/-! ## What a section may record -/

namespace Core

/-- `cfg` says paired because the memory did and the VIN and the key stay, or because the
    key on disk was confirmed for its VIN. -/
def Warranted (c c' : Core) (cfg : Config) : Prop :=
  cfg.vinState = .paired →
    (c.cfg.vinState = .paired ∧ cfg.vin = c.cfg.vin ∧ c'.disk.priv = c.disk.priv) ∨
    ∃ k, c'.disk.priv = some (.key k) ∧ (cfg.vin, k) ∈ c'.host.world.confirmed

inductive Recorded (builds : Json → Bool) (c c' : Core) : Prop
  | kept : c'.cfg = c.cfg → c'.disk.config = c.disk.config → c'.disk.priv = c.disk.priv → Recorded builds c c'
  /-- A save reached config.json; it succeeded and is in force, or it failed all the same. -/
  | stored (cfg : Config) : load builds false c'.disk.config = .ok cfg → cfg.version = c.cfg.version → Warranted c c' cfg →
      (c'.cfg = cfg ∨ c'.cfg = c.cfg ∧ c'.disk.priv = c.disk.priv) → Recorded builds c c'

theorem kept_of_path {c c' : Core} (hq : Quiet c.host) (hcfg : c'.cfg = c.cfg) (p : (Scope.keeping c.disk.priv).Path c.host c'.host) :
    Recorded builds c c' := .kept hcfg (sparing_config (keeping_sparing p)) (held_path p hq.held).priv

/-- A save leaves the file as it was, or it reads back as what was saved. -/
theorem saveConfig_file (builds : Json → Bool) (c : Core) {cfg : Config} (hs : Sane cfg) (fault : Option FsStep) :
    (c.saveConfig cfg fault).1.disk.config = c.disk.config ∨ load builds false (c.saveConfig cfg fault).1.disk.config = .ok cfg := by
  rw [saveConfig_disk, save_file]
  split
  · rename_i hw
    exact .inr (load_saved hw.1 hs)
  · exact .inl rfl

/-- A save that is refused: nothing else has happened. -/
theorem saveConfig_recorded {c c' : Core} {cfg : Config} {fault : Option FsStep} {r : Except IoError Unit} (hs : Sane cfg)
    (hv : cfg.version = c.cfg.version) (hw : cfg.vinState = .paired → c.cfg.vinState = .paired ∧ cfg.vin = c.cfg.vin)
    (h : c.saveConfig cfg fault = (c', r)) : Recorded builds c c' := by
  have hf := saveConfig_file builds c hs fault
  rw [h] at hf
  cases h
  rcases hf with hf | hf
  · exact .kept rfl hf rfl
  · exact .stored cfg hf hv (fun hp => .inl ⟨(hw hp).1, (hw hp).2, rfl⟩) (.inr ⟨rfl, rfl⟩)

/-! ## Sections -/

theorem resetEnrollment_recorded {c : Core} (hs : Sane c.cfg) (e : SectionEnv) :
    (∃ c' err, c.resetEnrollment e = (c', .error err) ∧ Recorded builds c c') ∨
    ∃ c', c.resetEnrollment e = (c', .ok ()) ∧ c'.Agrees builds ∧ c'.cfg = { c.cfg with vinState := .unpaired } := by
  have hsane : Sane { c.cfg with vinState := .unpaired } := hs.enrolled _ _
  unfold resetEnrollment
  dsimp only
  split
  · rename_i heq
    exact .inl ⟨_, _, rfl, saveConfig_recorded hsane rfl nofun heq⟩
  · rename_i heq
    exact .inr ⟨_, rfl, (persisted_agrees hsane heq).1, (invalidate_steady _ _).cfg⟩

/-- The key that is there is printed again. -/
theorem keygen_printed {c : Core} (hq : Quiet c.host) {e : SectionEnv} (he : e.Moves (· ≠ .unlinkKey)) (hp : c.disk.priv.isSome = true) :
    Recorded builds c (c.keygen false e).1 := by
  have hconfig : (c.keygen false e).1.disk.config = c.disk.config :=
    sparing_config (keygen_path c false e.any (fun _ _ => trivial) Scope.sparing_writes)
  refine .kept (keygen_steady c false e).cfg hconfig ?_
  unfold keygen
  split
  · -- tesla-keygen makes no key where there is one
    have hk : (teslaKeygen c.host.world false e.teslaKeygen).1.disk.priv = c.disk.priv := by
      unfold teslaKeygen teslaKeygenKey
      dsimp only
      simp only [disk] at hp ⊢
      grind [World.setPub]
    unfold generateKeyOneShot
    dsimp only
    split
    · exact hk
    · split <;> exact hk
  · have hkeeps : KeepsKey c.disk.priv .keygen [] := fun _ => ⟨rfl, hp⟩
    have hr : (c.sessionRun .keygen [] e.run).1.disk.priv = c.disk.priv := (run_held (c := c.call .keygen []) hq.held hkeeps he.run).priv
    simp only [Bool.false_eq_true, if_false]
    split
    · rename_i heq
      rwa [heq] at hr
    · rename_i heq
      rw [heq] at hr
      split
      · exact hr
      · split <;> exact hr

theorem generateKey_recorded {c : Core} (hq : Quiet c.host) (hs : Sane c.cfg) (force : Bool) {e : SectionEnv}
    (he : e.Moves (· ≠ .unlinkKey)) : Recorded builds c (c.generateKey force e).1 := by
  unfold generateKey
  split
  · exact .kept rfl rfl rfl
  by_cases hr : (force || c.disk.priv.isNone) = true
  · -- unpaired is on disk and in memory before the key is touched
    have hend : ∀ {c'' : Core}, c''.Agrees builds → c''.cfg = { c.cfg with vinState := .unpaired } → Recorded builds c c'' := by
      intro c'' ha hc
      refine .stored c''.cfg ha (by rw [hc]) (fun hp => ?_) (.inl rfl)
      rw [hc] at hp
      cases hp
    rw [if_pos hr]
    rcases resetEnrollment_recorded hs e with ⟨c', err, heq, hrec⟩ | ⟨c', heq, ha, hcfg⟩
    · rw [heq]
      exact hrec
    · rw [heq]
      dsimp only
      have hk := keygen_agrees ha force e
      have hst := (keygen_steady c' force e).cfg.trans hcfg
      split
      · rename_i heq'
        rw [heq'] at hk hst
        exact hend hk hst
      · rename_i heq'
        rw [heq'] at hk hst
        exact hend (hk.keep (invalidate_steady _ _).cfg (invalidate_config _ _)) ((invalidate_steady _ _).cfg.trans hst)
  · rw [if_neg hr]
    simp only [Bool.or_eq_true, not_or, Bool.not_eq_true] at hr
    obtain ⟨rfl, hn⟩ := hr
    exact keygen_printed hq he (by cases hp : c.disk.priv <;> simp_all)

theorem saveConfig_eq {c c' : Core} {cfg : Config} {fault : Option FsStep} {r : Except IoError Unit}
    (h : c.saveConfig cfg fault = (c', r)) : ∃ f, c' = c.setWorld (c.host.world.setConfig f) := ⟨_, (congrArg Prod.fst h).symm⟩

theorem setConfigSection_recorded {c : Core} (hq : Quiet c.host) (r : ConfigRequest) {e : SectionEnv} (he : e.Moves (· ≠ .unlinkKey)) :
    Recorded builds c (c.setConfigSection r e).1 := by
  have hw : (c.candidate r).vinState = .paired → c.cfg.vinState = .paired ∧ (c.candidate r).vin = c.cfg.vin := by
    intro hp
    unfold candidate at hp ⊢
    dsimp only at hp ⊢
    split at hp
    · cases hp
    · rename_i hv
      exact ⟨hp, (not_not.1 hv).symm⟩
  unfold setConfigSection
  split
  · exact .kept rfl rfl rfl
  rename_i hvalid
  dsimp only
  split
  · rename_i heq
    exact saveConfig_recorded (candidate_sane hvalid) rfl hw heq
  · rename_i c1 heq
    obtain ⟨ha, _⟩ := persisted_agrees (candidate_sane hvalid) heq
    have hheld : c1.host.Held c.disk.priv := by
      obtain ⟨f, rfl⟩ := saveConfig_eq heq
      exact ⟨rfl, hq.held.inbox⟩
    have hstop : (Scope.keeping c.disk.priv).Path c1.host (c1.stopPhoneKeyLocked e.stop).host :=
      stopPhoneKeyLocked_path c1 he.stop fun _ => keeping_call _ (by decide) _
    have hpath := hstop.trans (invalidate_path { c1.stopPhoneKeyLocked e.stop with cfg := c.candidate r } he.invalidating)
    have hcfg : ({ c1.stopPhoneKeyLocked e.stop with cfg := c.candidate r }.invalidate e.invalidating).cfg = c.candidate r :=
      (invalidate_steady _ _).cfg
    refine .stored (c.candidate r) (ha.trans (congrArg Except.ok hcfg)) rfl (fun hp => .inl ⟨(hw hp).1, (hw hp).2, ?_⟩) (.inl hcfg)
    exact (held_path hpath hheld).priv

/-- The key on disk was confirmed for the VIN in memory; then paired is saved. -/
theorem persistPaired_recorded {c d : Core} (hs : Sane d.cfg) (hcfg : d.cfg = c.cfg) (hfile : d.disk.config = c.disk.config)
    (hpriv : d.disk.priv = c.disk.priv) {k : Key} (hk : d.disk.priv = some (.key k)) (hc : (d.cfg.vin, k) ∈ d.host.world.confirmed)
    (stdout : Text) (e : SectionEnv) : Recorded builds c (d.persistPaired stdout e).1 := by
  have hsane : Sane { d.cfg with vinState := .paired } := hs.enrolled _ _
  have hf := saveConfig_file builds d hsane e.save
  have hv : d.cfg.version = c.cfg.version := by rw [hcfg]
  unfold persistPaired
  dsimp only
  split
  · rename_i heq
    rw [heq] at hf
    obtain ⟨f, rfl⟩ := saveConfig_eq heq
    rcases hf with hf | hf
    · exact .kept hcfg (hf.trans hfile) hpriv
    · exact .stored _ hf hv (fun _ => .inr ⟨k, hk, hc⟩) (.inr ⟨hcfg, hpriv⟩)
  · rename_i heq
    have hload := saveConfig_ok builds hsane heq
    obtain ⟨f, rfl⟩ := saveConfig_eq heq
    exact .stored _ hload hv (fun _ => .inr ⟨k, hk, hc⟩) (.inl rfl)

theorem pairSection_recorded {c : Core} (hh : HonestRun c.host) (hslot : ∀ x ∈ c.host.slot, x.2 = c.spawnArgs ∧ 0 < x.1) (hs : Sane c.cfg)
    {e : SectionEnv} (hhonest : e.Moves (Move.Honest c.host.client.nextId)) (he : e.Moves (· ≠ .unlinkKey)) :
    Recorded builds c (c.pairSection e).1 := by
  have hpath : ∀ {S : Scope}, e.Moves S.moves → S.calls (c.call .presenceStop []) →
      S.Path c.host ((c.stopPhoneKeyLocked e.stop).moves e.mid).host := fun hm hcall =>
    (stopPhoneKeyLocked_path c hm.stop fun _ => hcall).trans (moves_path _ hm.mid)
  have hstop := hpath (S := .keeping c.disk.priv) he (keeping_call _ (by decide) _)
  have hd := honestRun_path hh (hpath (S := .any _) hhonest trivial)
  have haddr := path_addressed (hpath (S := .passing c.spawnArgs) e.any rfl) hslot (Nat.zero_le _)
  have hnext := (path_grown hstop).nextId
  have hcfg : ((c.stopPhoneKeyLocked e.stop).moves e.mid).cfg = c.cfg := by
    rw [stopPhoneKeyLocked_eq]
    rfl
  unfold pairSection
  generalize (c.stopPhoneKeyLocked e.stop).moves e.mid = d at hstop hd haddr hnext hcfg ⊢
  have hrun : (Scope.keeping c.disk.priv).Path c.host (d.sessionRun .pair [World.publicKeyPath, "owner", "android_device"] e.run).1.host :=
    hstop.trans (sessionRun_path d he.run (keeping_call _ (by decide) _))
  have hkept : Recorded builds c d := kept_of_path (quiet hh) hcfg hstop
  split
  · exact .kept rfl rfl rfl
  split
  · exact .kept rfl rfl rfl
  split
  · exact .kept rfl rfl rfl
  dsimp only
  split
  · exact hkept
  split
  · exact hkept
  have hasked : Recorded builds c (d.sessionRun .pair [World.publicKeyPath, "owner", "android_device"] e.run).1 := kept_of_path (quiet hh) hcfg hrun
  split
  · rename_i heq
    rwa [heq] at hasked
  · rename_i d' out heq
    split
    · rwa [heq] at hasked
    · rename_i hok
      -- the child that answered was spawned with the VIN in memory
      have hvin : ∀ h, d.host.client.child = some h → h.proc.vin = d.cfg.vin := by
        intro h hc
        rw [hcfg, bound (hd.mono fun _ _ _ => trivial) h hc]
        exact congrArg SpawnArgs.vin (haddr.slot _ (slot_of hc)).1
      have hask : (Op.run (d.call .pair [World.publicKeyPath, "owner", "android_device"]) e.run).Honest d.host.client.nextId :=
        ⟨fun m hm => Move.Honest.mono (hhonest.run.before m hm) hnext, fun m hm => Move.Honest.mono (hhonest.run.waiting m hm) hnext⟩
      obtain ⟨k, hk, hc⟩ := run_confirms (quiet hd) hvin rfl hask he.run (congrArg Prod.snd heq) (by simpa using hok)
      have hpriv := (held_path hrun (quiet hh).held).priv
      have hfile := sparing_config (keeping_sparing hrun)
      rw [heq] at hfile hpriv
      obtain rfl : d.setHost (d.host.run (d.call .pair [World.publicKeyPath, "owner", "android_device"]) e.run).1 = d' := congrArg Prod.fst heq
      have hsane : Sane d.cfg := by
        rw [hcfg]
        exact hs
      exact persistPaired_recorded (d := d.setHost (d.host.run _ e.run).1) hsane hcfg hfile hpriv hk hc _ e

end Core

open ElectricEel.Control.Core in
/-- Every section of every call. -/
theorem advance_recorded (K : Checks) {c : Core} (hh : HonestRun c.host) (hslot : ∀ x ∈ c.host.slot, x.2 = c.spawnArgs ∧ 0 < x.1)
    (hs : Sane c.cfg) {e : SectionEnv} (hhonest : e.Moves (Move.Honest c.host.client.nextId)) (he : e.Moves (· ≠ .unlinkKey))
    (p : Pending) : Recorded builds c (advance K c e p).1 := by
  have hq := quiet hh
  have hstart : Recorded builds c (c.startPhoneKey e.start).1 :=
    kept_of_path hq (startPhoneKey_kept c e.start).cfg (startPhoneKey_path c he.start fun _ => keeping_call _ (by decide) _)
  cases p with
  | begun op =>
    cases op with
    | run cmd args =>
      refine kept_of_path hq (run_steady K c cmd args e).cfg (run_path K c he fun hk _ => keeping_call _ ?_ _)
      obtain ⟨v, rfl, _, _⟩ := isKnownCommand_iff.1 hk
      exact Cmd.noConfusion
    | generateKey force => exact generateKey_recorded hq hs force he
    | pair =>
      rw [advance_pair]
      exact pairSection_recorded hh hslot hs hhonest he
    | startPhoneKey => exact hstart
    | stopPhoneKey =>
      refine kept_of_path hq ?_ (stopPhoneKeyLocked_path c he.stop fun _ => keeping_call _ (by decide) _)
      rw [advance, stopPhoneKeyLocked_eq]
    | handleResume =>
      refine kept_of_path hq ?_ (handleResumeSection_path c he)
      rw [advance, handleResumeSection_eq]
    | setConfig r =>
      rw [advance_setConfig]
      exact setConfigSection_recorded hq r he
    | shareDestination text =>
      exact kept_of_path hq (shareDestination_steady K c text e).cfg (shareDestination_path K c text he fun _ _ => keeping_call _ (by decide) _)
  | starting => exact hstart
  | popped x => exact .kept rfl rfl rfl
  | judged x due =>
    rw [advance_judged]
    exact .kept rfl rfl rfl
  | stopped x =>
    rw [advance_stopped]
    refine kept_of_path hq ?_ (pollGate_path c he.invalidating)
    rcases pollGate_cases c e.invalidating with ⟨h, _⟩ | ⟨h, _⟩
    · rw [h]
    · rw [h]
      exact (invalidate_steady _ _).cfg
  | restarting x =>
    exact kept_of_path hq (startPhoneKey_kept c e.start).cfg (restart_path c he.start fun _ => keeping_call _ (by decide) _)

/-! ## Runs with restarts -/

/-- What happens to an installation. -/
inductive Life where
  | event (ev : Event)
  /-- The process is killed, wherever its calls are; `during` is what its child still does. -/
  | killed (during : List Move)

def System.live (K : Checks) (y : System) : Life → System
  | .event ev => y.step K ev
  | .killed during => { core := y.core.setHost (y.core.host.invalidate during), up := false, calls := [] }

def lives (K : Checks) : Machine System Life := { init := fun y => ∃ w, y = .start w, step := System.live K }

/-- No child forges a response, and nobody removes private_key.pem. -/
def System.Lawful (y : System) : Life → Prop
  | .event ev => y.Honest ev ∧ ev.Moves (· ≠ .unlinkKey)
  | .killed during => ∀ m ∈ during, m ≠ .unlinkKey

/-- History: the VIN and the key the start file was about, and whether it said paired and
    neither has changed since. -/
structure Heir where
  vin : String
  priv : Option PrivFile
  intact : Bool
  deriving DecidableEq, Repr

/-- The start file is there or not, and not of schema V0. -/
def Heir.Of (builds : Json → Bool) (g : Heir) (w : World) : Prop :=
  ∃ cfg, load builds false w.disk.config = .ok cfg ∧ cfg.version ≠ .v0 ∧ g = ⟨cfg.vin, w.disk.priv, cfg.vinState == .paired⟩

def Heir.keep (g : Heir) (y : System) : Heir :=
  { g with intact := g.intact && y.world.disk.priv == g.priv && (!y.up || y.core.cfg.vin == g.vin) }

def enrollments (K : Checks) : Machine (System × Heir) Life :=
  (lives K).withHistory (fun y g => g.Of K.builds y.world) fun g y l => g.keep (y.live K l)

/-- The vehicle with this VIN confirmed the key on disk, or VIN and key are the inherited ones. -/
def Licensed (g : Heir) (w : World) (vin : String) : Prop :=
  (∃ k, w.disk.priv = some (.key k) ∧ (vin, k) ∈ w.confirmed) ∨ g.intact = true ∧ w.disk.priv = g.priv ∧ vin = g.vin

theorem keep_intact (g : Heir) (y : System) :
    (g.keep y).intact = true ↔ g.intact = true ∧ y.world.disk.priv = g.priv ∧ (y.up = true → y.core.cfg.vin = g.vin) := by
  cases hup : y.up <;> simp [Heir.keep, hup, and_assoc]

theorem Licensed.keep {g : Heir} {w : World} {vin : String} (h : Licensed g w vin) {y : System} (hp : y.world.disk.priv = w.disk.priv)
    (hc : ∀ x ∈ w.confirmed, x ∈ y.world.confirmed) (hv : g.intact = true → vin = g.vin → y.up = true → y.core.cfg.vin = g.vin) :
    Licensed (g.keep y) y.world vin := by
  rcases h with ⟨k, hk, hm⟩ | ⟨hi, hpriv, hvin⟩
  · exact .inl ⟨k, hp.trans hk, hc _ hm⟩
  · exact .inr ⟨(keep_intact g y).2 ⟨hi, hp.trans hpriv, hv hi hvin⟩, hp.trans hpriv, hvin⟩

/-- Whenever `cfg` says paired it is licensed. -/
def Entitled (g : Heir) (w : World) (cfg : Config) : Prop := cfg.vinState = .paired → Licensed g w cfg.vin

structure Enrolled (builds : Json → Bool) (y : System) (g : Heir) : Prop where
  host : HonestRun y.core.host
  current : y.Current 0
  intact : g.intact = true → y.up = true → y.core.cfg.vin = g.vin
  memory : y.up = true → Sane y.core.cfg ∧ y.core.cfg.version ≠ .v0 ∧ Entitled g y.world y.core.cfg
  disk : ∀ cfg, load builds false y.world.disk.config = .ok cfg → cfg.version ≠ .v0 ∧ Entitled g y.world cfg

section

variable {y y' : System} {g : Heir}

/-- A step that leaves the settings and the key alone. -/
theorem Enrolled.kept (h : Enrolled builds y g) (hh : HonestRun y'.core.host) (hc : y'.Current 0) (hup : y'.up = true → y.up = true)
    (hcfg : y'.core.cfg = y.core.cfg) (hfile : y'.world.disk.config = y.world.disk.config) (hpriv : y'.world.disk.priv = y.world.disk.priv)
    (hconf : ∀ x ∈ y.world.confirmed, x ∈ y'.world.confirmed) : Enrolled builds y' (g.keep y') where
  host := hh
  current := hc
  intact hi := ((keep_intact g y').1 hi).2.2
  memory hu := by
    obtain ⟨hs, hv, hl⟩ := h.memory (hup hu)
    rw [hcfg]
    exact ⟨hs, hv, fun hp => (hl hp).keep hpriv hconf fun _ hvin _ => (congrArg Config.vin hcfg).trans hvin⟩
  disk cfg hl := by
    rw [hfile] at hl
    obtain ⟨hv, hd⟩ := h.disk cfg hl
    refine ⟨hv, fun hp => (hd hp).keep hpriv hconf fun hi _ hu => ?_⟩
    rw [hcfg]
    exact h.intact hi (hup hu)

/-- A section of a core. -/
theorem Enrolled.recorded (h : Enrolled builds y g) (hh : HonestRun y'.core.host) (hc : y'.Current 0) (hup : y.up = true)
    (hr : Core.Recorded builds y.core y'.core) (hconf : ∀ x ∈ y.world.confirmed, x ∈ y'.world.confirmed) : Enrolled builds y' (g.keep y') := by
  cases hr with
  | kept hcfg hfile hpriv => exact h.kept hh hc (fun _ => hup) hcfg hfile hpriv hconf
  | stored cfg hload hver hwar hmem =>
    obtain ⟨hs, hv, hl⟩ := h.memory hup
    have hcfgv : cfg.version ≠ .v0 := by
      rw [hver]
      exact hv
    have hent : Entitled (g.keep y') y'.world cfg := by
      intro hp
      rcases hwar hp with ⟨hpaired, hvin, hpriv⟩ | ⟨k, hk, hm⟩
      · rw [hvin]
        refine (hl hpaired).keep hpriv hconf fun _ hg _ => ?_
        rcases hmem with hmem | ⟨hmem, _⟩
        · rw [hmem, hvin, hg]
        · rw [hmem, hg]
      · exact .inl ⟨k, hk, hm⟩
    refine ⟨hh, hc, fun hi => ((keep_intact g y').1 hi).2.2, fun hu => ?_, fun cfg' hl' => ?_⟩
    · rcases hmem with hmem | ⟨hmem, hpriv⟩
      · rw [hmem]
        exact ⟨load_sane hload, hcfgv, hent⟩
      · rw [hmem]
        exact ⟨hs, hv, fun hp => (hl hp).keep hpriv hconf fun _ hvin _ => (congrArg Config.vin hmem).trans hvin⟩
    · obtain rfl : cfg = cfg' := Except.ok.inj (hload.symm.trans hl')
      exact ⟨hcfgv, hent⟩

/-- A step made of operations that keep the key and save nothing. -/
theorem Enrolled.path (h : Enrolled builds y g) (hh : HonestRun y'.core.host) (hc : y'.Current 0) (hup : y'.up = true → y.up = true)
    (hcfg : y'.core.cfg = y.core.cfg) (p : (Scope.keeping y.core.disk.priv).Path y.core.host y'.core.host)
    (hconf : ∀ x ∈ y.world.confirmed, x ∈ y'.world.confirmed) : Enrolled builds y' (g.keep y') :=
  h.kept hh hc hup hcfg (sparing_config (keeping_sparing p)) (held_path p (quiet h.host).held).priv hconf

end

/-! ### Core::new -/

/-- What a core that starts has in memory, and what it leaves on disk. -/
structure Loaded (builds : Json → Bool) (w w' : World) (c : Core) (cfg : Config) : Prop where
  file : load builds false w.disk.config = .ok cfg
  vin : c.cfg.vin = cfg.vin
  vinState : c.cfg.vinState = cfg.vinState
  version : c.cfg.version ≠ .v0
  world : c.host.world = w'
  priv : w'.disk.priv = w.disk.priv
  confirmed : w'.confirmed = w.confirmed
  saved : load builds false w'.disk.config = .ok cfg ∨ load builds false w'.disk.config = .ok c.cfg

theorem loaded {w w' : World} {backend : Option Backend} {unreadable : Bool} {fault : Option FsStep} {c : Core}
    (hv : ∀ cfg, load builds false w.disk.config = .ok cfg → cfg.version ≠ .v0)
    (h : Core.new builds w backend unreadable fault = (w', .ok c)) : ∃ cfg, Loaded builds w w' c cfg ∧ Sane c.cfg := by
  unfold Core.new at h
  split at h
  · cases h
  rename_i cfg hl
  have hread := load_readable hl
  have hsane := load_sane hl
  have hne : (cfg.version == .v0) = false := by simpa using hv cfg hread
  simp only [hne, Bool.false_and, Bool.false_eq_true, if_false, Bool.false_or] at h
  cases ho : cfg.version.older with
  | false =>
    simp only [ho, Bool.false_eq_true, if_false] at h
    cases h
    exact ⟨cfg, ⟨hread, rfl, rfl, hv cfg hread, rfl, rfl, rfl, .inl hread⟩, hsane⟩
  | true =>
    have hnew : Sane { cfg with version := .current } := hsane.enrolled _ _
    simp only [ho, if_true] at h
    cases h
    refine ⟨cfg, ⟨hread, rfl, rfl, nofun, rfl, rfl, rfl, ?_⟩, hnew⟩
    show load builds false (save { cfg with version := .current } w.disk.config fault).1 = _ ∨
      load builds false (save { cfg with version := .current } w.disk.config fault).1 = _
    rw [save_file]
    split
    · rename_i hs
      exact .inr (load_saved hs.1 hnew)
    · exact .inl hread

theorem Enrolled.new {y : System} {g : Heir} (h : Enrolled builds y g) {w : World} {c : Core} {cfg : Config} (hl : Loaded builds y.world w c cfg)
    (hs : Sane c.cfg) (hh : HonestRun c.host) (hc : System.Current 0 { y with core := c, up := true }) :
    Enrolled builds { y with core := c, up := true } (g.keep { y with core := c, up := true }) := by
  obtain ⟨_, hd⟩ := h.disk cfg hl.file
  have hw : System.world { y with core := c, up := true } = w := hl.world
  have hent : cfg.vinState = .paired → Licensed (g.keep { y with core := c, up := true }) w cfg.vin := by
    intro hp
    have hk := (hd hp).keep (y := { y with core := c, up := true }) (by rw [hw]; exact hl.priv) (by rw [hw, hl.confirmed]; exact fun _ => id)
      fun _ hvin _ => hl.vin.trans hvin
    rwa [hw] at hk
  have hmem : Entitled (g.keep { y with core := c, up := true }) w c.cfg := by
    intro hp
    rw [hl.vin]
    exact hent (hl.vinState.symm.trans hp)
  refine ⟨hh, hc, fun hi => ((keep_intact g _).1 hi).2.2, fun _ => ⟨hs, hl.version, hw.symm ▸ hmem⟩, fun cfg' hl' => ?_⟩
  rw [hw] at hl' ⊢
  rcases hl.saved with hsaved | hsaved
  · obtain rfl : cfg = cfg' := Except.ok.inj (hsaved.symm.trans hl')
    exact ⟨(h.disk cfg hl.file).1, hent⟩
  · obtain rfl : c.cfg = cfg' := Except.ok.inj (hsaved.symm.trans hl')
    exact ⟨hl.version, hmem⟩

/-! ## Every run -/

theorem honest_step {K : Checks} {y : System} (h : HonestRun y.core.host) {ev : Event} (hok : y.Honest ev) :
    HonestRun (y.step K ev).core.host := by
  rcases System.step_moves K y hok with hp | hf
  · exact honestRun_path h hp
  · exact .init hf

theorem Enrolled.event {K : Checks} {y : System} {g : Heir} (h : Enrolled K.builds y g) {ev : Event} (hok : y.Honest ev)
    (hkey : ev.Moves (· ≠ .unlinkKey)) : Enrolled K.builds (y.step K ev) (g.keep (y.step K ev)) := by
  have hh := honest_step (K := K) h.host hok
  have hc := System.Current.step (K := K) h.current (.inl rfl : 0 = 0 ∨ ev.sameCore = true)
  cases ev with
  | move m =>
    have hp : (Scope.keeping y.core.disk.priv).Path y.core.host (y.core.moves [m]).host :=
      Core.moves_path y.core fun m' hm => List.mem_singleton.1 hm ▸ hkey
    exact h.path hh hc id rfl hp (act_confirmed y.core.host (.move m))
  | call op =>
    cases hup : y.up with
    | true =>
      rw [show y.step K (.call op) = { y with calls := y.calls ++ [.begun op] } from if_pos hup] at hh hc ⊢
      exact h.kept hh hc id rfl rfl rfl fun _ => id
    | false =>
      rw [show y.step K (.call op) = y from if_neg (Bool.eq_false_iff.1 hup)] at hh hc ⊢
      exact h.kept hh hc id rfl rfl rfl fun _ => id
  | poll =>
    cases hup : y.up with
    | true =>
      rw [show y.step K .poll = { y with core := y.core.pollEvent.1, calls := y.calls ++ [.popped y.core.pollEvent.2] } from if_pos hup]
        at hh hc ⊢
      exact h.path hh hc id (Core.pollEvent_steady y.core).cfg (Core.pollEvent_path y.core) (confirmed_path (Core.pollEvent_path y.core))
    | false =>
      rw [show y.step K .poll = y from if_neg (Bool.eq_false_iff.1 hup)] at hh hc ⊢
      exact h.kept hh hc id rfl rfl rfl fun _ => id
  | advance i e =>
    cases hp : y.calls[i]? with
    | none =>
      rw [show y.step K (.advance i e) = y by simp only [System.step, hp]] at hh hc ⊢
      exact h.kept hh hc id rfl rfl rfl fun _ => id
    | some p =>
      have hcore : (y.step K (.advance i e)).core = (advance K y.core e p).1 := by simp only [System.step, hp]
      have hup : y.up = true := by
        cases hup : y.up with
        | true => rfl
        | false =>
          rw [(h.current.down hup).2] at hp
          cases hp
      refine h.recorded hh hc hup ?_ ?_
      · rw [hcore]
        exact advance_recorded K h.host h.current.slot (h.memory hup).1 hok hkey p
      · show ∀ x ∈ _, x ∈ (y.step K (.advance i e)).core.host.world.confirmed
        rw [hcore]
        exact confirmed_path (advance_path K (S := .recording) y.core e.any (fun _ _ _ => trivial) Scope.recording_writes p)
  | drop e =>
    cases hup : y.up && y.calls.isEmpty with
    | true =>
      rw [show y.step K (.drop e) = { y with core := y.core.drop e, up := false } from if_pos hup] at hh hc ⊢
      have hcfg : (y.core.drop e).cfg = y.core.cfg := by
        unfold Core.drop
        rw [(Core.invalidate_steady _ _).cfg, Core.stopPhoneKeyLocked_eq]
      exact h.path hh hc (fun hup => Bool.noConfusion hup) hcfg (Core.drop_path y.core hkey fun _ => keeping_call _ (by decide) _)
        (confirmed_path (Core.drop_path y.core e.any fun _ => trivial))
    | false =>
      rw [show y.step K (.drop e) = y from if_neg (Bool.eq_false_iff.1 hup)] at hh hc ⊢
      exact h.kept hh hc id rfl rfl rfl fun _ => id
  | new backend unreadable fault =>
    cases hup : y.up with
    | true =>
      rw [show y.step K (.new backend unreadable fault) = y from if_pos hup] at hh hc ⊢
      exact h.kept hh hc id rfl rfl rfl fun _ => id
    | false =>
      cases hn : Core.new K.builds y.world backend unreadable fault with
      | mk w r =>
        cases r with
        | error err =>
          have hw : w = y.world := by
            unfold Core.new at hn
            split at hn
            · cases hn
              rfl
            · cases hn
          have hs : y.step K (.new backend unreadable fault) = { y with core := y.core.setWorld w } := by
            simp only [System.step, hup, Bool.false_eq_true, if_false, hn]
          subst hw
          rw [hs] at hh hc ⊢
          exact h.kept hh hc id rfl rfl rfl fun _ => id
        | ok c =>
          have hs : y.step K (.new backend unreadable fault) = { y with core := c, up := true } := by
            simp only [System.step, hup, Bool.false_eq_true, if_false, hn]
          rw [hs] at hh hc ⊢
          obtain ⟨cfg, hl, hsane⟩ := loaded (fun cfg hcfg => (h.disk cfg hcfg).1) hn
          exact h.new hl hsane hh hc

theorem Enrolled.killed {K : Checks} {y : System} {g : Heir} (h : Enrolled K.builds y g) {during : List Move}
    (hkey : ∀ m ∈ during, m ≠ .unlinkKey) : Enrolled K.builds (y.live K (.killed during)) (g.keep (y.live K (.killed during))) := by
  have hp : (Scope.keeping y.core.disk.priv).Path y.core.host (y.core.host.invalidate during) :=
    Machine.Path.one (M := hosts) (e := .invalidate during) hkey
  have hr : Scope.recording.Path y.core.host (y.core.host.invalidate during) :=
    Machine.Path.one (M := hosts) (e := .invalidate during) fun _ _ => trivial
  have hslot : (y.core.host.invalidate during).slot = none := slot_none.2 (invalidate_child y.core.host during)
  have hc : (y.live K (.killed during)).Current 0 :=
    ⟨fun x hx => (nomatch hslot.symm.trans hx), Nat.zero_le _, fun _ => hslot, fun _ => ⟨hslot, rfl⟩⟩
  have hh : HonestRun (y.core.host.invalidate during) := Machine.Reach.step (M := hosts) (Op.invalidate during) h.host trivial
  exact h.path hh hc nofun rfl hp (confirmed_path hr)

theorem enrolled {K : Checks} {y : System} {g : Heir}
    (h : (enrollments K).Reach (fun p l => p.1.Lawful l) (y, g)) : Enrolled K.builds y g := by
  refine h.inv (I := fun p => Enrolled K.builds p.1 p.2) ?_ fun p l hp hok => ?_
  · intro ⟨y, g⟩ ⟨⟨w, hw⟩, cfg, hl, hv, hg⟩
    dsimp only at hw hl hg
    subst hw hg
    have hcurrent : (System.start w).Current 0 := ⟨fun _ => nofun, Nat.zero_le _, fun _ => rfl, fun _ => ⟨rfl, rfl⟩⟩
    refine ⟨.init ⟨.hci, rfl⟩, hcurrent, fun _ => nofun, nofun, fun cfg' hl' => ?_⟩
    obtain rfl : cfg = cfg' := Except.ok.inj (hl.symm.trans hl')
    exact ⟨hv, fun hp => .inr ⟨by simp [hp], rfl, rfl⟩⟩
  · cases l with
    | event ev => exact hp.event hok.1 hok.2
    | killed during => exact hp.killed hok

/-- Whenever memory or disk says paired, the key on disk is one the vehicle with that VIN
    confirmed, or VIN and key are those the start file called paired. -/
theorem paired_means_enrolled {K : Checks} {y : System} {g : Heir}
    (h : (enrollments K).Reach (fun p l => p.1.Lawful l) (y, g)) :
    (y.up = true → y.core.cfg.vinState = .paired → Licensed g y.world y.core.cfg.vin) ∧
    ∀ cfg, load K.builds false y.world.disk.config = .ok cfg → cfg.vinState = .paired → Licensed g y.world cfg.vin :=
  ⟨fun hup => ((enrolled h).memory hup).2.2, fun cfg hl => ((enrolled h).disk cfg hl).2⟩

/-! ## A rotation, a pairing and a kill -/

/-- The child reads the request and answers it as `e` decides. -/
def servedWith (e : Child.ServeEnv) : RunEnv := { waiting := [.serve e, .read] }

theorem servedWith_moves {P : Move → Prop} {e : Child.ServeEnv} (hs : P (.serve e)) (hr : P .read) : (servedWith e).Moves P := by
  refine ⟨fun _ => nofun, fun _ => nofun, fun m hm => ?_, fun _ => nofun⟩
  simp only [servedWith, List.mem_cons, List.not_mem_nil, or_false] at hm
  rcases hm with rfl | rfl
  · exact hs
  · exact hr

theorem servedWith_lawful {y : System} (i : Nat) (e : Child.ServeEnv) : y.Lawful (.event (.advance i { run := servedWith e })) :=
  ⟨runOnly_moves (servedWith_moves trivial trivial), runOnly_moves (servedWith_moves nofun nofun)⟩

/-- The key is replaced, the new one paired, and the process killed before pair's second section. -/
def rotatedAndPaired : List Life :=
  [.event (.new (some .bluez) false none), .event (.call (.generateKey true)),
    .event (.advance 0 { run := servedWith { keygen := { key := 2 } } }), .event (.call .pair),
    .event (.advance 0 { run := servedWith { enroll := [{ tap := true }] } }), .killed [], .event (.new (some .bluez) false none)]

def repaired : System × Heir :=
  (enrollments anyArgs).run (.start pairedWorld, ⟨pairedConfig.vin, some (.key 1), true⟩) rotatedAndPaired

theorem repaired_reached : (enrollments anyArgs).Reach (fun p l => p.1.Lawful l) (repaired.1, repaired.2) := by
  have h0 : (enrollments anyArgs).Reach (fun p l => p.1.Lawful l) (.start pairedWorld, ⟨pairedConfig.vin, some (.key 1), true⟩) :=
    .init ⟨⟨pairedWorld, rfl⟩, pairedConfig, by decide, nofun, by decide⟩
  refine h0.run rotatedAndPaired ?_
  exact ⟨⟨trivial, trivial⟩, ⟨trivial, trivial⟩, servedWith_lawful 0 _, ⟨trivial, trivial⟩, servedWith_lawful 0 _, fun _ => nofun,
    ⟨trivial, trivial⟩, trivial⟩

theorem repaired_enrolled :
    (repaired.1.up = true ∧ repaired.1.core.cfg.vinState = .paired ∧ repaired.1.world.disk.priv = some (.key 2) ∧
      repaired.2.intact = false) ∧
    Licensed repaired.2 repaired.1.world repaired.1.core.cfg.vin :=
  ⟨by decide, (paired_means_enrolled repaired_reached).1 (by decide) (by decide)⟩

end ElectricEel.Control
