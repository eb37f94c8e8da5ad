/-
  ElectricEel.Core.Sections — what each section of the core does to the core
  (helper/src/core.rs).

  One lemma per section, so that no later proof opens its body: which fields stay
  (`Steady`), how a start ends (`started`, `presenceStarted_cases`), what a stop leaves
  (`stopPhoneKeyLocked_eq`), how the poll's section ends (`pollGate_cases`).
-/
import ElectricEel.Core.Core

namespace ElectricEel.Control

open Commands Wire Config Client

namespace Core

/-! ## What the small operations leave alone -/

@[simp] theorem setHost_host (c : Core) (s : Host) : (c.setHost s).host = s := rfl
@[simp] theorem setHost_cfg (c : Core) (s : Host) : (c.setHost s).cfg = c.cfg := rfl
@[simp] theorem setHost_session (c : Core) (s : Host) : (c.setHost s).session = c.session := rfl
@[simp] theorem setHost_phoneKeyStarted (c : Core) (s : Host) : (c.setHost s).phoneKeyStarted = c.phoneKeyStarted := rfl
@[simp] theorem setHost_phoneKeyEnabled (c : Core) (s : Host) : (c.setHost s).phoneKeyEnabled = c.phoneKeyEnabled := rfl
@[simp] theorem setHost_phoneKeyRetryAt (c : Core) (s : Host) : (c.setHost s).phoneKeyRetryAt = c.phoneKeyRetryAt := rfl
@[simp] theorem setHost_oneShots (c : Core) (s : Host) : (c.setHost s).oneShots = c.oneShots := rfl
@[simp] theorem setHost_restarts (c : Core) (s : Host) : (c.setHost s).restarts = c.restarts := rfl

theorem setWorld_eq (c : Core) (w : World) : c.setWorld w = c.setHost (c.host.setWorld w) := rfl

theorem moves_eq (c : Core) (ms : List Move) : c.moves ms = c.setHost (c.host.moves ms) := rfl

theorem invalidate_eq (c : Core) (during : List Move) :
    c.invalidate during = c.setHost (if c.session then c.host.invalidate during else c.host) := by
  unfold invalidate
  split <;> rfl

theorem clearEvents_eq (c : Core) : c.clearEvents = c.setHost (if c.session then c.host.clearEvents else c.host) := by
  unfold clearEvents
  split <;> rfl

theorem pollEvent_fst (c : Core) : c.pollEvent.1 = c.setHost (if c.session then c.host.pollEvent.1 else c.host) := by
  unfold pollEvent
  split <;> rfl

/-! ## What start and stop do -/

/-- `start_phone_key` sends its request. -/
def ready (c : Core) : Bool := c.eligible && c.session && c.host.client.bleBackend = .bluez

/-- Up to the second liveness check. -/
def checked (c : Core) (e : StartEnv) : Core := { c with phoneKeyStarted := false }.moves e.checking

/-- Up to the request. -/
def prepared (c : Core) (wasStarted : Bool) (e : StartEnv) : Core :=
  { (if wasStarted && !c.isPresenceActive then c.invalidate e.invalidating else c) with phoneKeyEnabled := true }.moves e.starting

/-- What a section of start_phone_key comes to. -/
inductive Started (c : Core) (e : StartEnv) : Core × Except StartError Unit → Prop
  | kept : c.phoneKeyStarted = true → c.isPresenceActive = true → Started c e (c, .ok ())
  | refused (err : StartError) : (c.phoneKeyStarted && c.isPresenceActive) = false → (c.checked e).ready = false →
      err.text ≠ "" → Started c e (c.checked e, .error err)
  | sent : (c.phoneKeyStarted && c.isPresenceActive) = false → (c.checked e).ready = true →
      Started c e ((c.checked e).startPresence c.phoneKeyStarted e)

theorem started (c : Core) (e : StartEnv) : Started c e (c.startPhoneKey e) := by
  unfold startPhoneKey
  split
  · rename_i h
    rw [Bool.and_eq_true] at h
    exact .kept h.1 h.2
  rename_i h
  have h := Bool.eq_false_iff.2 h
  dsimp only
  split
  · rename_i he
    exact .refused .notPaired h (by simp only [ready]; simp only [checked]; simp at he; simp [he]) (by decide)
  split
  · rename_i hs
    exact .refused .noSession h (by simp only [ready]; simp only [checked]; simp at hs; simp [hs]) (by decide)
  split
  · rename_i hb
    exact .refused .requiresBluez h (by simp only [ready]; simp only [checked]; simp [hb]) (by decide)
  · rename_i he hs hb
    exact .sent h (by simp only [ready, checked]; simp at he hs hb; simp [he, hs, hb])

theorem startPresence_eq (c : Core) (wasStarted : Bool) (e : StartEnv) :
    c.startPresence wasStarted e = ((c.prepared wasStarted e).sessionRun .presenceStart [] e.run).1.presenceStarted
      ((c.prepared wasStarted e).sessionRun .presenceStart [] e.run).2 := rfl

/-- The request succeeded, or a retry is scheduled. -/
theorem presenceStarted_cases (c : Core) (r : Except SessionError RunOutcome) :
    (∃ out, r = .ok out ∧ out.ok = true ∧
      c.presenceStarted r = ({ c with phoneKeyStarted := true, phoneKeyRetryAt := none }, .ok ())) ∨
    ∃ text, (∀ out, r = .ok out → out.ok = false) ∧
      c.presenceStarted r = ({ c with phoneKeyStarted := false }.schedulePhoneKeyRetry, .error (.presenceFailed text)) := by
  unfold presenceStarted
  split
  · rename_i out
    split
    · rename_i hok
      exact .inl ⟨out, rfl, hok, rfl⟩
    · rename_i hok
      exact .inr ⟨_, fun out' h => by cases h; simpa using hok, rfl⟩
  · exact .inr ⟨_, fun _ => nofun, rfl⟩

@[simp] theorem prepared_phoneKeyEnabled (c : Core) (wasStarted : Bool) (e : StartEnv) :
    (c.prepared wasStarted e).phoneKeyEnabled = true := rfl

/-- A start touches the flags and the client only. -/
structure Kept (c c' : Core) : Prop where
  cfg : c'.cfg = c.cfg
  session : c'.session = c.session
  oneShots : c'.oneShots = c.oneShots
  restarts : c'.restarts = c.restarts

theorem prepared_kept (c : Core) (wasStarted : Bool) (e : StartEnv) : Kept c (c.prepared wasStarted e) := by
  unfold prepared
  split
  · rw [invalidate_eq]
    exact ⟨rfl, rfl, rfl, rfl⟩
  · exact ⟨rfl, rfl, rfl, rfl⟩

theorem startPresence_kept (c : Core) (wasStarted : Bool) (e : StartEnv) : Kept c (c.startPresence wasStarted e).1 := by
  have hp := prepared_kept c wasStarted e
  rw [startPresence_eq]
  generalize c.prepared wasStarted e = d at hp
  rcases presenceStarted_cases (d.sessionRun .presenceStart [] e.run).1 (d.sessionRun .presenceStart [] e.run).2 with
    ⟨_, _, _, h⟩ | ⟨_, _, h⟩ <;> rw [h] <;> exact ⟨hp.cfg, hp.session, hp.oneShots, hp.restarts⟩

theorem startPhoneKey_kept (c : Core) (e : StartEnv) : Kept c (c.startPhoneKey e).1 := by
  have hs := started c e
  generalize c.startPhoneKey e = r at hs ⊢
  cases hs with
  | kept => exact ⟨rfl, rfl, rfl, rfl⟩
  | refused => exact ⟨rfl, rfl, rfl, rfl⟩
  | sent =>
    have hp := startPresence_kept (c.checked e) c.phoneKeyStarted e
    exact ⟨hp.cfg, hp.session, hp.oneShots, hp.restarts⟩

/-- The client after a stop. -/
def stopHost (c : Core) (e : StopEnv) : Host :=
  if c.phoneKeyStarted && c.session then
    match c.host.run (c.call .presenceStop []) e.run with
    | (s, .ok _) => s
    | (s, .error _) => s.invalidate e.invalidating
  else c.host

theorem stopPhoneKeyLocked_eq (c : Core) (e : StopEnv) :
    c.stopPhoneKeyLocked e =
      { c with host := c.stopHost e, phoneKeyStarted := false, phoneKeyEnabled := false, phoneKeyRetryAt := none } := by
  obtain ⟨cfg, session, host, started, enabled, retryAt, oneShots, restarts⟩ := c
  unfold stopPhoneKeyLocked stopHost
  cases started with
  | false => rfl
  | true =>
    cases session with
    | false => rfl
    | true =>
      simp only [sessionRun, call, Bool.not_true, Bool.false_eq_true, if_false, if_true, Bool.and_true]
      rcases host.run _ e.run with ⟨s, err | out⟩
      · simp only [invalidate_eq, setHost_session, if_true, setHost_host]
        rfl
      · rfl

/-! ## Sections that leave the phone key alone -/

/-- The configuration and the phone-key flags are as they were. -/
structure Steady (c c' : Core) : Prop where
  cfg : c'.cfg = c.cfg
  session : c'.session = c.session
  phoneKeyStarted : c'.phoneKeyStarted = c.phoneKeyStarted
  phoneKeyEnabled : c'.phoneKeyEnabled = c.phoneKeyEnabled
  phoneKeyRetryAt : c'.phoneKeyRetryAt = c.phoneKeyRetryAt
  restarts : c'.restarts = c.restarts

theorem Steady.refl (c : Core) : Steady c c := ⟨rfl, rfl, rfl, rfl, rfl, rfl⟩

theorem Steady.setHost (c : Core) (s : Host) : Steady c (c.setHost s) := ⟨rfl, rfl, rfl, rfl, rfl, rfl⟩

theorem Steady.trans {c c' c'' : Core} (h : Steady c c') (h' : Steady c' c'') : Steady c c'' :=
  ⟨h'.cfg.trans h.cfg, h'.session.trans h.session, h'.phoneKeyStarted.trans h.phoneKeyStarted,
    h'.phoneKeyEnabled.trans h.phoneKeyEnabled, h'.phoneKeyRetryAt.trans h.phoneKeyRetryAt, h'.restarts.trans h.restarts⟩

theorem sessionRun_steady (c : Core) (cmd : Cmd) (args : List String) (e : RunEnv) : Steady c (c.sessionRun cmd args e).1 :=
  .setHost c _

theorem invalidate_steady (c : Core) (during : List Move) : Steady c (c.invalidate during) := by
  rw [invalidate_eq]
  exact .setHost c _

theorem pollEvent_steady (c : Core) : Steady c c.pollEvent.1 := by
  rw [pollEvent_fst]
  exact .setHost _ _

theorem run_steady (K : Checks) (c : Core) (cmd : Cmd) (args : List String) (e : SectionEnv) :
    Steady c (c.run K cmd args e).1 := by
  have hr := sessionRun_steady c cmd args e.run
  unfold run
  split
  · exact .refl c
  split
  · exact .refl c
  split
  · exact .refl c
  split
  · exact .refl c
  split
  · split
    · rename_i heq
      rwa [heq] at hr
    · rename_i heq
      rw [heq] at hr
      split
      · exact hr
      · exact hr.trans ⟨rfl, rfl, rfl, rfl, rfl, rfl⟩
  · exact ⟨rfl, rfl, rfl, rfl, rfl, rfl⟩

theorem shareDestination_steady (K : Checks) (c : Core) (text : String) (e : SectionEnv) :
    Steady c (c.shareDestination K text e).1 := by
  unfold shareDestination
  split
  · exact .refl c
  rename_i dest _
  have hr := sessionRun_steady c .navigate (Destination.args dest) e.run
  split
  · exact .refl c
  split
  · exact .refl c
  split
  · exact .refl c
  split
  · rename_i heq
    rwa [heq] at hr
  · rename_i heq
    rwa [heq] at hr

theorem keygen_steady (c : Core) (force : Bool) (e : SectionEnv) : Steady c (c.keygen force e).1 := by
  have hr := sessionRun_steady c .keygen (if force then ["-f"] else []) e.run
  unfold keygen
  split
  · unfold generateKeyOneShot
    dsimp only
    split
    · exact ⟨rfl, rfl, rfl, rfl, rfl, rfl⟩
    · split <;> exact ⟨rfl, rfl, rfl, rfl, rfl, rfl⟩
  split
  · rename_i heq
    rwa [heq] at hr
  · rename_i heq
    rw [heq] at hr
    split
    · exact hr
    · split <;> exact hr.trans (.setHost _ _)

/-! ## Sections that end a phone key -/

/-- Presence is off and not wanted any more; the configuration may have changed. -/
structure Ended (c c' : Core) : Prop where
  session : c'.session = c.session
  phoneKeyStarted : c'.phoneKeyStarted = false
  phoneKeyEnabled : c'.phoneKeyEnabled = false
  phoneKeyRetryAt : c'.phoneKeyRetryAt = none
  restarts : c'.restarts = c.restarts

theorem stopPhoneKeyLocked_ended (c : Core) (e : StopEnv) : Ended c (c.stopPhoneKeyLocked e) := by
  rw [stopPhoneKeyLocked_eq]
  exact ⟨rfl, rfl, rfl, rfl, rfl⟩

theorem Ended.setCfg {c c' : Core} (h : Ended c c') (cfg : Config) : Ended c { c' with cfg } :=
  ⟨h.session, h.phoneKeyStarted, h.phoneKeyEnabled, h.phoneKeyRetryAt, h.restarts⟩

theorem Ended.steady {c c' c'' : Core} (h : Ended c c') (hs : Steady c' c'') : Ended c c'' :=
  ⟨hs.session.trans h.session, hs.phoneKeyStarted.trans h.phoneKeyStarted, hs.phoneKeyEnabled.trans h.phoneKeyEnabled,
    hs.phoneKeyRetryAt.trans h.phoneKeyRetryAt, hs.restarts.trans h.restarts⟩

theorem Steady.ended {c c' c'' : Core} (hs : Steady c c') (h : Ended c' c'') : Ended c c'' :=
  ⟨h.session.trans hs.session, h.phoneKeyStarted, h.phoneKeyEnabled, h.phoneKeyRetryAt, h.restarts.trans hs.restarts⟩

theorem saveConfig_steady (c : Core) (cfg : Config) (fault : Option FsStep) : Steady c (c.saveConfig cfg fault).1 := .setHost c _

theorem resetEnrollment_ended (c : Core) (e : SectionEnv) :
    (∃ err, (c.resetEnrollment e).2 = .error err ∧ Steady c (c.resetEnrollment e).1) ∨
    (c.resetEnrollment e).2 = .ok () ∧ Ended c (c.resetEnrollment e).1 := by
  have hs := saveConfig_steady c { c.cfg with vinState := .unpaired } e.save
  unfold resetEnrollment
  dsimp only
  split
  · rename_i heq
    rw [heq] at hs
    exact .inl ⟨_, rfl, hs⟩
  · rename_i heq
    rw [heq] at hs
    exact .inr ⟨rfl, ((hs.ended (stopPhoneKeyLocked_ended _ e.stop)).setCfg _).steady (invalidate_steady _ _)⟩

/-- What generate_key comes to. -/
inductive Generated (c : Core) (force : Bool) (e : SectionEnv) : Core × Except OperationError Text → Prop
  | refused {c' : Core} (err : IoError) : Steady c c' → c'.host.client = c.host.client → Generated c force e (c', .error (.persist err))
  /-- The key that is there is printed again. -/
  | printed : (force || c.disk.priv.isNone) = false → Generated c force e (c.keygen force e)
  | failed {c' : Core} (err : OperationError) : (force || c.disk.priv.isNone) = true → c.resetEnrollment e = (c', .ok ()) →
      (c'.keygen force e).2 = .error err → Generated c force e ((c'.keygen force e).1, .error err)
  | replaced {c' : Core} (pub : Text) : (force || c.disk.priv.isNone) = true → c.resetEnrollment e = (c', .ok ()) →
      (c'.keygen force e).2 = .ok pub → Generated c force e ((c'.keygen force e).1.invalidate e.again, .ok pub)

theorem generated (c : Core) (force : Bool) (e : SectionEnv) : Generated c force e (c.generateKey force e) := by
  unfold generateKey
  split
  · exact .refused _ (.refl c) rfl
  split
  · rename_i hr
    split
    · rename_i c' err heq
      have hs := saveConfig_steady c { c.cfg with vinState := .unpaired } e.save
      unfold resetEnrollment at heq
      dsimp only at heq
      split at heq
      · rename_i heq'
        rw [heq'] at hs
        cases heq
        exact .refused _ hs (congrArg (fun r => r.1.host.client) heq').symm
      · cases heq
    · rename_i c' heq
      split
      · rename_i heq'
        have hf := Generated.failed (e := e) _ hr heq (congrArg Prod.snd heq')
        rwa [heq'] at hf
      · rename_i heq'
        have hp := Generated.replaced (e := e) _ hr heq (congrArg Prod.snd heq')
        rwa [heq'] at hp
  · rename_i hr
    exact .printed (Bool.eq_false_iff.2 hr)

theorem generateKey_ended (c : Core) (force : Bool) (e : SectionEnv) :
    Steady c (c.generateKey force e).1 ∨ Ended c (c.generateKey force e).1 := by
  have hg := generated c force e
  generalize c.generateKey force e = r at hg ⊢
  cases hg with
  | refused err hs _ => exact .inl hs
  | printed _ => exact .inl (keygen_steady c force e)
  | @failed c' err _ hr _ =>
    have ho := resetEnrollment_ended c e
    rw [hr] at ho
    rcases ho with ⟨_, he, _⟩ | ⟨_, ho⟩
    · cases he
    · exact .inr (ho.steady (keygen_steady c' force e))
  | @replaced c' pub _ hr _ =>
    have ho := resetEnrollment_ended c e
    rw [hr] at ho
    rcases ho with ⟨_, he, _⟩ | ⟨_, ho⟩
    · cases he
    · exact .inr (ho.steady ((keygen_steady c' force e).trans (invalidate_steady _ _)))

theorem persistPaired_ended {c c' : Core} (h : Ended c c') (stdout : Text) (e : SectionEnv) :
    Ended c (c'.persistPaired stdout e).1 := by
  have hs := saveConfig_steady c' { c'.cfg with vinState := .paired } e.save
  unfold persistPaired
  dsimp only
  split
  all_goals
    rename_i heq
    rw [heq] at hs
  · exact h.steady hs
  · exact (h.steady hs).setCfg _

theorem pairSection_ended (c : Core) (e : SectionEnv) :
    ((c.pairSection e).1 = c ∧ ∃ r, (c.pairSection e).2 = .done r) ∨ Ended c (c.pairSection e).1 := by
  have ho : Ended c ((c.stopPhoneKeyLocked e.stop).moves e.mid) := (stopPhoneKeyLocked_ended c e.stop).steady (.setHost _ _)
  have hr := ho.steady (sessionRun_steady _ .pair [World.publicKeyPath, "owner", "android_device"] e.run)
  unfold pairSection
  split
  · exact .inl ⟨rfl, _, rfl⟩
  split
  · exact .inl ⟨rfl, _, rfl⟩
  split
  · exact .inl ⟨rfl, _, rfl⟩
  refine .inr ?_
  dsimp only
  split
  · exact ho
  split
  · exact ho
  split
  · rename_i heq
    rwa [heq] at hr
  · rename_i heq
    rw [heq] at hr
    split
    · exact hr
    · exact persistPaired_ended hr _ e

theorem setConfigSection_ended (c : Core) (r : ConfigRequest) (e : SectionEnv) :
    (∃ err, (c.setConfigSection r e).2 = .error err ∧ Steady c (c.setConfigSection r e).1) ∨
    Ended c (c.setConfigSection r e).1 := by
  have hs := saveConfig_steady c (c.candidate r) e.save
  unfold setConfigSection
  split
  · exact .inl ⟨_, rfl, .refl c⟩
  dsimp only
  split
  · rename_i heq
    rw [heq] at hs
    exact .inl ⟨_, rfl, hs⟩
  · rename_i heq
    rw [heq] at hs
    exact .inr (((hs.ended (stopPhoneKeyLocked_ended _ e.stop)).setCfg _).steady (invalidate_steady _ _))

theorem drop_ended (c : Core) (e : SectionEnv) : Ended c (c.drop e) :=
  (stopPhoneKeyLocked_ended c e.stop).steady (invalidate_steady _ _)

theorem handleResumeSection_eq (c : Core) (e : SectionEnv) :
    c.handleResumeSection e = { c with host := (c.handleResumeSection e).host, phoneKeyStarted := false } := by
  unfold handleResumeSection
  rw [invalidate_eq, moves_eq, clearEvents_eq]
  rfl

/-! ## The poll's section -/

/-- Nothing but the flag, or on to the restart with the child gone. -/
theorem pollGate_cases (c : Core) (during : List Move) :
    (c.pollGate during = ({ c with phoneKeyStarted := false }, false) ∧
      (c.phoneKeyEnabled = false ∨ ∃ t, c.phoneKeyRetryAt = some t ∧ c.now < t)) ∨
    (c.pollGate during = ({ c with phoneKeyStarted := false }.invalidate during, true) ∧ c.phoneKeyEnabled = true ∧
      ∀ t, c.phoneKeyRetryAt = some t → t ≤ c.now) := by
  unfold pollGate
  dsimp only
  split
  · rename_i h
    exact .inl ⟨rfl, .inl (by simpa using h)⟩
  rename_i he
  split
  · rename_i h
    refine .inl ⟨rfl, .inr ?_⟩
    cases ht : c.phoneKeyRetryAt with
    | none => simp [ht] at h
    | some t =>
      simp only [ht, Option.any_some, decide_eq_true_eq] at h
      exact ⟨t, rfl, h⟩
  · rename_i h
    refine .inr ⟨rfl, by simpa using he, fun t ht => ?_⟩
    simp only [ht, Option.any_some, decide_eq_true_eq, not_lt] at h
    exact h

end Core

end ElectricEel.Control
