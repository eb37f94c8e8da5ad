/-
  ElectricEel.Core.Ops — which operations of the session client each section is made of
  (helper/src/core.rs).

  A section works on the client with `run`, `invalidate`, `clear_events` and `poll_event`
  and writes its files; the children move meanwhile. A `Scope` says which calls, writes and
  moves may occur; a section's lemma says that it is a path of the client's machine within
  every scope that has its own calls and writes. What an operation in a scope keeps, every
  section keeps.

  Proved: such a path for every section (`startPhoneKey_path`, `setConfigSection_path`, …).
-/
import ElectricEel.Client.Correlation
import ElectricEel.Core.Sections

namespace ElectricEel.Control

open Lib Commands Wire Config Client

/-! ## What the environment of a step moves -/

structure StartEnv.Moves (P : Move → Prop) (e : StartEnv) : Prop where
  checking : ∀ m ∈ e.checking, P m
  invalidating : ∀ m ∈ e.invalidating, P m
  starting : ∀ m ∈ e.starting, P m
  run : e.run.Moves P

structure StopEnv.Moves (P : Move → Prop) (e : StopEnv) : Prop where
  run : e.run.Moves P
  invalidating : ∀ m ∈ e.invalidating, P m

structure SectionEnv.Moves (P : Move → Prop) (e : SectionEnv) : Prop where
  stop : e.stop.Moves P
  mid : ∀ m ∈ e.mid, P m
  run : e.run.Moves P
  invalidating : ∀ m ∈ e.invalidating, P m
  again : ∀ m ∈ e.again, P m
  start : e.start.Moves P

theorem RunEnv.Moves.mono {P Q : Move → Prop} (hq : ∀ m, P m → Q m) {e : RunEnv} (h : e.Moves P) : e.Moves Q :=
  ⟨fun m hm => hq m (h.retiring m hm), fun m hm => hq m (h.before m hm), fun m hm => hq m (h.waiting m hm),
    fun m hm => hq m (h.killing m hm)⟩

theorem SectionEnv.Moves.mono {P Q : Move → Prop} (hq : ∀ m, P m → Q m) {e : SectionEnv} (h : e.Moves P) : e.Moves Q :=
  ⟨⟨RunEnv.Moves.mono hq h.stop.run, fun m hm => hq m (h.stop.invalidating m hm)⟩, fun m hm => hq m (h.mid m hm),
    RunEnv.Moves.mono hq h.run, fun m hm => hq m (h.invalidating m hm), fun m hm => hq m (h.again m hm),
    ⟨fun m hm => hq m (h.start.checking m hm), fun m hm => hq m (h.start.invalidating m hm),
      fun m hm => hq m (h.start.starting m hm), RunEnv.Moves.mono hq h.start.run⟩⟩

theorem StartEnv.any (e : StartEnv) : e.Moves fun _ => True :=
  ⟨fun _ _ => trivial, fun _ _ => trivial, fun _ _ => trivial, e.run.any⟩

theorem StopEnv.any (e : StopEnv) : e.Moves fun _ => True := ⟨e.run.any, fun _ _ => trivial⟩

theorem SectionEnv.any (e : SectionEnv) : e.Moves fun _ => True :=
  ⟨e.stop.any, fun _ _ => trivial, e.run.any, fun _ _ => trivial, fun _ _ => trivial, e.start.any⟩

/-! ## Scopes -/

structure Scope where
  moves : Move → Prop
  calls : Call → Prop
  files : World → World → Prop

namespace Scope

/-- Any calls and writes. -/
def any (P : Move → Prop) : Scope := { moves := P, calls := fun _ => True, files := fun _ _ => True }

def Allows (S : Scope) (s : Host) : Op → Prop
  | .run c e => S.calls c ∧ e.Moves S.moves
  | .invalidate during => ∀ m ∈ during, S.moves m
  | .move m => S.moves m
  | .files w => S.files s.world w
  | _ => True

abbrev Path (S : Scope) : Host → Host → Prop := hosts.Path S.Allows

/-- The scope has the writes of public_key.pem and of tesla-keygen. -/
structure KeyWrites (S : Scope) : Prop where
  pub : ∀ w f, S.files w (w.setPub f)
  oneShot : ∀ w force e, S.files w (Core.teslaKeygen w force e).1

/-- And those of config.json. -/
structure Writes (S : Scope) : Prop extends KeyWrites S where
  config : ∀ w f, S.files w (w.setConfig f)

theorem any_writes (P : Move → Prop) : (any P).Writes := ⟨⟨fun _ _ => trivial, fun _ _ _ => trivial⟩, fun _ _ => trivial⟩

end Scope

abbrev HostPath (P : Move → Prop) : Host → Host → Prop := (Scope.any P).Path

theorem path_grown {S : Scope} {s t : Host} (p : S.Path s t) : Grown s t :=
  p.inv (I := fun t => Grown s t) (fun t op _ h => h.trans (.step t op)) (.refl s)

namespace Core

variable {S : Scope}

theorem setWorld_path (c : Core) {w : World} (h : S.files c.host.world w) : S.Path c.host (c.setWorld w).host :=
  Machine.Path.one (M := hosts) (e := .files w) h

theorem moves_path (c : Core) {ms : List Move} (h : ∀ m ∈ ms, S.moves m) : S.Path c.host (c.moves ms).host := by
  show S.Path c.host (c.host.moves ms)
  generalize c.host = s
  induction ms generalizing s with
  | nil => exact .refl
  | cons m ms ih =>
    exact (Machine.Path.one (M := hosts) (e := .move m) (h m List.mem_cons_self)).trans
      (ih (fun m' hm => h m' (List.mem_cons_of_mem _ hm)) _)

theorem sessionRun_path (c : Core) {cmd : Cmd} {args : List String} {e : RunEnv} (h : e.Moves S.moves)
    (hq : S.calls (c.call cmd args)) : S.Path c.host (c.sessionRun cmd args e).1.host :=
  Machine.Path.one (M := hosts) (e := .run (c.call cmd args) e) ⟨hq, h⟩

theorem invalidate_path (c : Core) {during : List Move} (h : ∀ m ∈ during, S.moves m) : S.Path c.host (c.invalidate during).host := by
  unfold invalidate
  split
  · exact Machine.Path.one (M := hosts) (e := .invalidate during) h
  · exact .refl

theorem clearEvents_path (c : Core) : S.Path c.host c.clearEvents.host := by
  unfold clearEvents
  split
  · exact Machine.Path.one (M := hosts) (e := .clearEvents) trivial
  · exact .refl

theorem pollEvent_path (c : Core) : S.Path c.host c.pollEvent.1.host := by
  unfold pollEvent
  split
  · exact Machine.Path.one (M := hosts) (e := .pollEvent) trivial
  · exact .refl

theorem saveConfig_path (c : Core) (cfg : Config) (fault : Option FsStep) (hw : S.Writes) :
    S.Path c.host (c.saveConfig cfg fault).1.host := setWorld_path c (hw.config _ _)

theorem presenceStarted_host (c : Core) (r : Except SessionError RunOutcome) : (c.presenceStarted r).1.host = c.host := by
  unfold presenceStarted
  split
  · split <;> rfl
  · rfl

theorem startPresence_path (c : Core) (wasStarted : Bool) {e : StartEnv} (h : e.Moves S.moves)
    (hq : S.calls (c.call .presenceStart [])) : S.Path c.host (c.startPresence wasStarted e).1.host := by
  unfold startPresence
  dsimp only
  rw [presenceStarted_host]
  split
  · refine ((invalidate_path c h.invalidating).trans (moves_path _ h.starting)).trans (sessionRun_path _ h.run ?_)
    rw [invalidate_eq]
    exact hq
  · exact (moves_path _ h.starting).trans (sessionRun_path _ h.run hq)

theorem startPhoneKey_path (c : Core) {e : StartEnv} (h : e.Moves S.moves)
    (hq : c.session = true → S.calls (c.call .presenceStart [])) :
    S.Path c.host (c.startPhoneKey e).1.host := by
  have hm : S.Path c.host ({ c with phoneKeyStarted := false }.moves e.checking).host := moves_path _ h.checking
  unfold startPhoneKey
  split
  · exact .refl
  dsimp only
  split
  · exact hm
  split
  · exact hm
  rename_i hs
  split
  · exact hm
  · exact hm.trans (startPresence_path _ _ h (hq (by simpa [moves] using hs)))

theorem stopPhoneKeyLocked_path (c : Core) {e : StopEnv} (h : e.Moves S.moves)
    (hq : c.session = true → S.calls (c.call .presenceStop [])) : S.Path c.host (c.stopPhoneKeyLocked e).host := by
  unfold stopPhoneKeyLocked
  dsimp only
  split
  · exact .refl
  · split
    · rename_i hs
      have hr := sessionRun_path { c with phoneKeyEnabled := false, phoneKeyRetryAt := none } h.run (hq hs)
      split
      · rename_i heq
        rwa [heq] at hr
      · rename_i heq
        rw [heq] at hr
        exact hr.trans (invalidate_path _ h.invalidating)
    · exact .refl

theorem drop_path (c : Core) {e : SectionEnv} (h : e.Moves S.moves)
    (hq : c.session = true → S.calls (c.call .presenceStop [])) :
    S.Path c.host (c.drop e).host :=
  (stopPhoneKeyLocked_path c h.stop hq).trans (invalidate_path _ h.invalidating)

theorem run_path (K : Checks) (c : Core) {cmd : Cmd} {args : List String} {e : SectionEnv} (h : e.Moves S.moves)
    (hq : isKnownCommand cmd = true → c.session = true → S.calls (c.call cmd args)) :
    S.Path c.host (c.run K cmd args e).1.host := by
  unfold run
  split
  · exact .refl
  rename_i hk
  split
  · exact .refl
  split
  · exact .refl
  split
  · exact .refl
  split
  · rename_i hs
    have hr := sessionRun_path c h.run (hq (by simpa using hk) hs)
    split
    · rename_i heq
      rwa [heq] at hr
    · rename_i heq
      rw [heq] at hr
      split <;> exact hr
  · exact .refl

theorem shareDestination_path (K : Checks) (c : Core) (text : String) {e : SectionEnv} (h : e.Moves S.moves)
    (hq : ∀ args, c.session = true → S.calls (c.call .navigate args)) : S.Path c.host (c.shareDestination K text e).1.host := by
  unfold shareDestination
  split
  · exact .refl
  rename_i dest _
  split
  · exact .refl
  split
  · exact .refl
  split
  · exact .refl
  rename_i hs
  have hr := sessionRun_path c h.run (hq (Destination.args dest) (by simpa using hs))
  split
  · rename_i heq
    rwa [heq] at hr
  · rename_i heq
    rwa [heq] at hr

theorem generateKeyOneShot_path (c : Core) (force : Bool) (e : SectionEnv) (hw : S.KeyWrites) :
    S.Path c.host (c.generateKeyOneShot force e).1.host := by
  have hw := setWorld_path c (hw.oneShot c.host.world force e.teslaKeygen)
  unfold generateKeyOneShot
  dsimp only
  split
  · exact hw
  · split <;> exact hw

theorem keygen_path (c : Core) (force : Bool) {e : SectionEnv} (h : e.Moves S.moves)
    (hq : ∀ args, c.session = true → S.calls (c.call .keygen args)) (hw : S.KeyWrites) :
    S.Path c.host (c.keygen force e).1.host := by
  unfold keygen
  split
  · exact generateKeyOneShot_path c force e hw
  rename_i hs
  have hr := sessionRun_path c h.run (hq (if force then ["-f"] else []) (by simpa using hs))
  split
  · rename_i heq
    rwa [heq] at hr
  · rename_i heq
    rw [heq] at hr
    split
    · exact hr
    · split <;> exact hr.trans (setWorld_path _ (hw.pub _ _))

/-- A save leaves the configuration in memory alone. -/
theorem saveConfig_call {c c' : Core} {cfg : Config} {fault : Option FsStep} {r : Except IoError Unit}
    (h : c.saveConfig cfg fault = (c', r)) : c'.call = c.call ∧ c'.session = c.session := by
  cases h
  exact ⟨rfl, rfl⟩

/-- The enrollment reset changes nothing a child is spawned with. -/
theorem resetEnrollment_call {c c' : Core} {e : SectionEnv} {r : Except IoError Unit} (h : c.resetEnrollment e = (c', r)) :
    c'.call = c.call ∧ c'.session = c.session := by
  unfold resetEnrollment at h
  dsimp only at h
  split at h
  · rename_i heq
    cases h
    exact saveConfig_call heq
  · rename_i heq
    cases h
    rw [invalidate_eq, stopPhoneKeyLocked_eq]
    exact ⟨rfl, (saveConfig_call heq).2⟩

/-- What follows a save that went through: the stop, and the child is dropped. -/
theorem saved_path {c c' : Core} {cfg : Config} {e : SectionEnv} {r : Except IoError Unit} (h : e.Moves S.moves)
    (hq : c.session = true → S.calls (c.call .presenceStop [])) (hw : S.Writes) (heq : c.saveConfig cfg e.save = (c', r)) :
    S.Path c.host ({ c'.stopPhoneKeyLocked e.stop with cfg }.invalidate e.invalidating).host := by
  have hs := saveConfig_path c cfg e.save hw
  rw [heq] at hs
  obtain ⟨hcall, hsess⟩ := saveConfig_call heq
  have hstop := stopPhoneKeyLocked_path c' h.stop (by rw [hcall, hsess]; exact hq)
  exact (hs.trans hstop).trans (invalidate_path { c'.stopPhoneKeyLocked e.stop with cfg } h.invalidating)

theorem resetEnrollment_path (c : Core) {e : SectionEnv} (h : e.Moves S.moves)
    (hq : c.session = true → S.calls (c.call .presenceStop [])) (hw : S.Writes) : S.Path c.host (c.resetEnrollment e).1.host := by
  have hs := saveConfig_path c { c.cfg with vinState := .unpaired } e.save hw
  unfold resetEnrollment
  dsimp only
  split
  · rename_i heq
    rwa [heq] at hs
  · rename_i heq
    exact saved_path h hq hw heq

theorem generateKey_path (c : Core) (force : Bool) {e : SectionEnv} (h : e.Moves S.moves)
    (hq : ∀ cmd args, cmd = .presenceStop ∨ cmd = .keygen → c.session = true → S.calls (c.call cmd args)) (hw : S.Writes) :
    S.Path c.host (c.generateKey force e).1.host := by
  unfold generateKey
  split
  · exact .refl
  split
  · have hr := resetEnrollment_path c h (hq _ _ (.inl rfl)) hw
    split
    · rename_i heq
      rwa [heq] at hr
    · rename_i c' heq
      rw [heq] at hr
      obtain ⟨hcall, hsess⟩ := resetEnrollment_call heq
      have hk := keygen_path c' force h (fun args => by rw [hcall, hsess]; exact hq _ args (.inr rfl)) hw.toKeyWrites
      split
      · rename_i heq'
        rw [heq'] at hk
        exact hr.trans hk
      · rename_i heq'
        rw [heq'] at hk
        exact (hr.trans hk).trans (invalidate_path _ h.again)
  · exact keygen_path c force h (fun args => hq _ args (.inr rfl)) hw.toKeyWrites

theorem persistPaired_path (c : Core) (stdout : Text) (e : SectionEnv) (hw : S.Writes) :
    S.Path c.host (c.persistPaired stdout e).1.host := by
  have hs := saveConfig_path c { c.cfg with vinState := .paired } e.save hw
  unfold persistPaired
  dsimp only
  split
  · rename_i heq
    rwa [heq] at hs
  · rename_i heq
    rwa [heq] at hs

/-- What pair does once it has stopped presence. -/
theorem pairSection_rest (c : Core) {e : SectionEnv} (h : e.Moves S.moves)
    (hq : ∀ args, c.session = true → S.calls (c.call .pair args)) (hw : S.Writes) :
    (c.pairSection e).1 = c ∨ S.Path (c.stopPhoneKeyLocked e.stop).host (c.pairSection e).1.host := by
  have hm := moves_path (c.stopPhoneKeyLocked e.stop) h.mid
  unfold pairSection
  split
  · exact .inl rfl
  split
  · exact .inl rfl
  rename_i hs
  have hcall : S.calls (((c.stopPhoneKeyLocked e.stop).moves e.mid).call .pair
      [World.publicKeyPath, "owner", "android_device"]) := by
    rw [stopPhoneKeyLocked_eq]
    exact hq _ (by simpa using hs)
  have hr := sessionRun_path ((c.stopPhoneKeyLocked e.stop).moves e.mid) h.run hcall
  split
  · exact .inl rfl
  refine .inr ?_
  dsimp only
  split
  · exact hm
  split
  · exact hm
  split
  · rename_i heq
    rw [heq] at hr
    exact hm.trans hr
  · rename_i heq
    rw [heq] at hr
    split
    · exact hm.trans hr
    · exact (hm.trans hr).trans (persistPaired_path _ _ e hw)

theorem pairSection_path (c : Core) {e : SectionEnv} (h : e.Moves S.moves)
    (hq : ∀ cmd args, cmd = .presenceStop ∨ cmd = .pair → c.session = true → S.calls (c.call cmd args)) (hw : S.Writes) :
    S.Path c.host (c.pairSection e).1.host := by
  rcases pairSection_rest c h (fun args => hq _ args (.inr rfl)) hw with he | hp
  · rw [he]
  · exact (stopPhoneKeyLocked_path c h.stop (hq _ _ (.inl rfl))).trans hp

theorem setConfigSection_path (c : Core) (r : ConfigRequest) {e : SectionEnv} (h : e.Moves S.moves)
    (hq : c.session = true → S.calls (c.call .presenceStop [])) (hw : S.Writes) :
    S.Path c.host (c.setConfigSection r e).1.host := by
  unfold setConfigSection
  split
  · exact .refl
  have hs := saveConfig_path c (c.candidate r) e.save hw
  dsimp only
  split
  · rename_i heq
    rwa [heq] at hs
  · rename_i heq
    exact saved_path h hq hw heq

theorem handleResumeSection_path (c : Core) {e : SectionEnv} (h : e.Moves S.moves) :
    S.Path c.host (c.handleResumeSection e).host :=
  ((clearEvents_path { c with phoneKeyStarted := false }).trans (moves_path _ h.mid)).trans (invalidate_path _ h.invalidating)

theorem pollGate_path (c : Core) {during : List Move} (h : ∀ m ∈ during, S.moves m) : S.Path c.host (c.pollGate during).1.host := by
  unfold pollGate
  dsimp only
  split
  · exact .refl
  split
  · exact .refl
  · exact invalidate_path { c with phoneKeyStarted := false } h

theorem restart_path (c : Core) {e : StartEnv} (h : e.Moves S.moves)
    (hq : c.session = true → S.calls (c.call .presenceStart [])) :
    S.Path c.host (c.restart e).1.host := startPhoneKey_path c h hq

end Core

end ElectricEel.Control
