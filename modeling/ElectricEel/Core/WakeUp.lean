/-
  ElectricEel.Core.WakeUp — a lost phone key has a trigger for its restart (core.rs
  `start_phone_key`, `poll_phone_key_event`, `handle_resume`, `stop_phone_key_locked`).

  While presence is wanted, one of four things makes the next poll restart it or needs no
  restart: presence is on and the child's reader tells when it ends; a retry is scheduled;
  a presence_stopped event is queued, or about to be; a call in progress goes on to start
  presence or has such an event in its hands (`Pending.rouses`). Sections that clear the
  queue or kill the child either end the phone key or go on to `start_phone_key`, which
  ends with presence on or a retry scheduled.

  The runs are those of calls, children, readers and vehicles; nobody removes
  private_key.pem. A child that runs no presence emits events all the same: ordinary
  commands attach the authentication responder too. The queue holds 64, so enough of them
  push the notice of the child before out (`Host.Drowned`).

  Proved: in every such run, whenever no call is in progress, presence is wanted and the
  notice was not pushed out so, presence is on, a retry is scheduled, or a notice waits or
  is about to be pushed (`lost_phone_key_wakes`). `lost_phone_key_sleeps`: 64 events leave
  the phone key off, with nothing to start it again.
-/
import ElectricEel.Core.Advance
import ElectricEel.Core.Retry
import ElectricEel.Core.Stops

namespace ElectricEel.Control

open Lib Commands Wire Config Client Child

/-! ## private_key.pem stays -/

/-- Nobody removes private_key.pem. -/
def Scope.keyed : Scope :=
  { moves := (· ≠ .unlinkKey), calls := fun _ => True, files := fun w w' => w.disk.priv.isSome = true → w'.disk.priv.isSome = true }

theorem Scope.keyed_writes : Scope.keyed.Writes where
  pub _ _ := id
  oneShot w force e := by
    show w.disk.priv.isSome = true → (Core.teslaKeygen w force e).1.disk.priv.isSome = true
    unfold Core.teslaKeygen Core.teslaKeygenKey
    dsimp only
    rcases writeAtomic_cases w.disk.priv (some (PrivFile.key e.key)) e.save with h | ⟨_, h⟩ | ⟨_, h⟩ <;>
      grind [World.setPriv, World.setPub]
  config _ _ := id

theorem act_priv (s : Host) {a : Act} (ha : a ≠ .move .unlinkKey) (hp : s.world.disk.priv.isSome = true) :
    (s.act a).world.disk.priv.isSome = true := by
  cases act_touched s a with
  | nothing hd _ =>
    rw [hd]
    exact hp
  | unlinkKey hu _ => exact (ha hu).elim
  | @served h line rest e _ _ hw =>
    rw [hw]
    rcases serveLine_effect s.world h.proc line e with ⟨_, he⟩ | ⟨_, _, _, _, he⟩
    · rw [he]
      exact hp
    · rcases he.priv with hk | ⟨_, _, hk⟩
      · rw [hk]
        exact hp
      · exact hk

theorem step_priv {s : Host} {op : Op} (h : Scope.keyed.Allows s op) (hp : s.world.disk.priv.isSome = true) :
    (s.step op).world.disk.priv.isSome = true := by
  have hpath : ∀ {P : Act → Prop} {t : Host}, ¬ P (.move .unlinkKey) → Host.Path P s t → t.world.disk.priv.isSome = true :=
    fun hn p => p.inv (I := fun t => t.world.disk.priv.isSome = true)
      (fun t a ha ht => act_priv t (by rintro rfl; exact hn ha) ht) hp
  cases op with
  | run c e => exact hpath (by rintro (h | h) <;> simp at h) (Host.run_path (K := (· ≠ .unlinkKey)) s c h.2)
  | invalidate during => exact hpath (by rintro (h | h) <;> simp at h) (Host.invalidate_path (K := (· ≠ .unlinkKey)) s h)
  | move m => exact act_priv s (a := .move m) (by rintro ⟨⟩; exact h rfl) hp
  | files w => exact h hp
  | pollEvent | clearEvents => exact hp

theorem keyed_priv {s t : Host} (p : Scope.keyed.Path s t) (hp : s.world.disk.priv.isSome = true) : t.world.disk.priv.isSome = true :=
  p.inv (I := fun t => t.world.disk.priv.isSome = true) (fun _ _ ho ht => step_priv ho ht) hp

/-- The client stays one its own machine reaches. -/
theorem reached_path {S : Scope} {s t : Host} (h : AnyRun s) (p : S.Path s t) : AnyRun t :=
  Machine.Reach.path h (Machine.Path.weaken (fun _ _ _ => trivial) p)

/-! ## Sections -/

theorem Asked.wakes {s t : Host} (h : Asked s t) (ho : Orderly s) {started : Bool} (hw : s.Wakes started) : t.Wakes started := by
  cases h with
  | nothing ht => exact hw.of_client ht
  | once c e hc ht => exact (run_wakes ho hc e hw).of_client ht

namespace Core

/-- While presence is wanted the key file is there. -/
def Keyed (c : Core) : Prop := c.phoneKeyEnabled = true → c.disk.priv.isSome = true

/-- A retry is scheduled, or nothing that ends presence goes unnoticed. -/
def Alert (c : Core) : Prop := c.phoneKeyRetryAt.isSome = true ∨ c.host.Wakes c.phoneKeyStarted

section

variable {c c' : Core}

theorem Plain.alert (h : Plain c c') (hr : AnyRun c.host) (ha : c.Alert) : c'.Alert := by
  unfold Alert
  rw [h.steady.phoneKeyRetryAt, h.steady.phoneKeyStarted]
  exact ha.imp id (h.asked.wakes (orderly hr))

/-! ### start_phone_key -/

theorem prepared_path {S : Scope} (c : Core) (wasStarted : Bool) {e : StartEnv} (h : e.Moves S.moves) :
    S.Path c.host (c.prepared wasStarted e).host := by
  unfold prepared
  split
  · exact (invalidate_path c h.invalidating).trans (moves_path _ h.starting)
  · exact moves_path _ h.starting

/-- While presence is wanted and the key stays, a start is not refused. -/
theorem checked_ready (ha : Armed c) (hk : c.Keyed) {e : StartEnv} (he : e.Moves (· ≠ .unlinkKey)) (hen : c.phoneKeyEnabled = true) :
    (c.checked e).ready = true := by
  obtain ⟨hv, hs, hses, hb⟩ := ha hen
  have hpriv := keyed_priv (moves_path (S := .keyed) c he.checking) (hk hen)
  refine (ready_iff _).2 ⟨hv, hs, hpriv, hses, ?_⟩
  exact (Grown.path (P := fun _ => True) (Host.moves_path c.host fun _ _ => trivial)).bleBackend.trans hb

theorem startPhoneKey_alert (hr : AnyRun c.host) (ha : Armed c) (hk : c.Keyed) {e : StartEnv} (he : e.Moves (· ≠ .unlinkKey))
    (hen : (c.startPhoneKey e).1.phoneKeyEnabled = true) : (c.startPhoneKey e).1.Alert := by
  have hs := started c e
  generalize c.startPhoneKey e = r at hs hen ⊢
  cases hs with
  | kept hst hact =>
    simp only [isPresenceActive, Host.isPresenceActive, Bool.and_eq_true] at hact
    obtain ⟨_, hflag, halive⟩ := hact
    obtain ⟨h, hc⟩ : ∃ h, c.host.client.child = some h := by
      cases hn : c.host.client.child with
      | none => simp [Host.isAlive, hn] at halive
      | some h => exact ⟨h, rfl⟩
    refine .inr (.inr ⟨hst, hflag, h, hc, uncancelled hr h hc, fun hd => ?_⟩)
    rw [isAlive_of hc, Handle.alive, hd] at halive
    cases halive
  | refused err _ hready _ =>
    rw [checked_ready ha hk he hen] at hready
    cases hready
  | sent =>
    have hprep : AnyRun ((c.checked e).prepared c.phoneKeyStarted e).host :=
      reached_path (S := .any fun _ => True) hr
        (.trans (moves_path { c with phoneKeyStarted := false } fun _ _ => trivial) (prepared_path (c.checked e) _ e.any))
    rw [startPresence_eq]
    generalize (c.checked e).prepared c.phoneKeyStarted e = d at hprep
    rcases presenceStarted_cases (d.sessionRun .presenceStart [] e.run).1 (d.sessionRun .presenceStart [] e.run).2 with
      ⟨out, ho, hok, h⟩ | ⟨text, _, h⟩
    · rw [h]
      exact .inr (.inr ⟨rfl, run_attended (orderly hprep) (uncancelled hprep) (c := d.call .presenceStart []) rfl ho hok⟩)
    · rw [h]
      exact .inl rfl

theorem startPhoneKey_keyed (hk : c.Keyed) {e : StartEnv} (he : e.Moves (· ≠ .unlinkKey)) : (c.startPhoneKey e).1.Keyed := by
  have hs := started c e
  have hp := startPhoneKey_path (S := .keyed) c he fun _ => trivial
  generalize c.startPhoneKey e = r at hs hp ⊢
  cases hs with
  | kept => exact hk
  | refused => exact fun hen => keyed_priv hp (hk hen)
  | sent _ hready =>
    obtain ⟨_, _, hpriv, _⟩ := (ready_iff _).1 hready
    exact fun _ => keyed_priv (startPresence_path (S := .keyed) _ _ he trivial) hpriv

end

end Core

/-! ## Calls -/

/-- The call goes on to start presence, or holds a presence_stopped event. -/
def Pending.rouses : Pending → Bool
  | .starting | .stopped _ | .restarting _ => true
  | .popped (some x) | .judged (some x) _ => x.ev.kind = .presenceStopped
  | _ => false

open ElectricEel.Control.Core in
theorem advance_keyed (K : Checks) {c : Core} (hk : c.Keyed) {e : SectionEnv} (he : e.Moves (· ≠ .unlinkKey)) (p : Pending) :
    (advance K c e p).1.Keyed := by
  intro hen
  have hp := advance_path K (S := .keyed) c he (fun _ _ _ => trivial) Scope.keyed_writes p
  cases hon : c.phoneKeyEnabled with
  | true => exact keyed_priv hp (hk hon)
  | false =>
    -- only a start turns presence on
    cases hst : p.starts with
    | false => exact nomatch (advance_staysOff hon K e hst).1.enabled.symm.trans hen
    | true =>
      cases p with
      | begun op =>
        cases op with
        | startPhoneKey => exact startPhoneKey_keyed hk he.start hen
        | pair =>
          rw [advance_pair] at hen
          rcases pairSection_ended c e with ⟨hc, _⟩ | ho
          · rw [hc, hon] at hen
            cases hen
          · exact nomatch ho.phoneKeyEnabled.symm.trans hen
        | setConfig r =>
          rw [advance_setConfig] at hen
          rcases setConfigSection_ended c r e with ⟨_, _, hs⟩ | ho
          · exact nomatch (hs.phoneKeyEnabled.trans hon).symm.trans hen
          · exact nomatch ho.phoneKeyEnabled.symm.trans hen
        | handleResume =>
          have hen' : (c.handleResumeSection e).phoneKeyEnabled = true := hen
          rw [handleResumeSection_eq] at hen'
          exact nomatch hon.symm.trans hen'
        | run | generateKey | stopPhoneKey | shareDestination => cases hst
      | starting => exact startPhoneKey_keyed hk he.start hen
      | restarting x => exact startPhoneKey_keyed hk he.start hen
      | popped | judged | stopped => cases hst

open ElectricEel.Control.Core in
/-- A section of a call that rouses passes it on or leaves the core alert; one that does not
    leaves an alert core alert. -/
theorem advance_alert (K : Checks) {c : Core} (hr : AnyRun c.host) (ha : Armed c) (hk : c.Keyed) {e : SectionEnv}
    (he : e.Moves (· ≠ .unlinkKey)) {p : Pending} (h : c.phoneKeyEnabled = true → p.rouses = true ∨ c.Alert)
    (hen : (advance K c e p).1.phoneKeyEnabled = true) :
    (∃ q ∈ (advance K c e p).2, q.rouses = true) ∨ (advance K c e p).1.Alert := by
  cases p with
  | begun op =>
    by_cases hop : op = .handleResume
    · rw [hop]
      exact .inl ⟨.starting, rfl, rfl⟩
    · refine .inr ?_
      have hadv := advanced K c e (.begun op)
      generalize hp : Pending.begun op = p at h hen hadv ⊢
      generalize (advance K c e p).1 = c' at hen hadv ⊢
      cases hadv with
      | plain hpl =>
        subst hp
        exact hpl.alert hr ((h (hpl.steady.phoneKeyEnabled.symm.trans hen)).resolve_left nofun)
      | ended ho => exact (nomatch ho.phoneKeyEnabled.symm.trans hen)
      | start r _ => exact startPhoneKey_alert hr ha hk he.start hen
      | resume => exact (hop (Pending.begun.inj hp)).elim
      | gate x => cases hp
  | starting => exact .inr (startPhoneKey_alert hr ha hk he.start hen)
  | restarting x => exact .inr (startPhoneKey_alert hr ha hk he.start hen)
  | popped x =>
    rcases h hen with hq | hq
    · cases x with
      | none => cases hq
      | some y => exact .inl ⟨_, rfl, hq⟩
    · exact .inr hq
  | judged x due =>
    rw [advance_judged] at hen ⊢
    rcases h hen with hq | hq
    · cases x with
      | none => cases hq
      | some y =>
        -- the event in hand is passed on, its VIN filled in
        have hkind : y.ev.kind = .presenceStopped := by simpa [Pending.rouses] using hq
        obtain ⟨z, hz, _, hzk⟩ := polledEvent_some c y due
        refine .inl ⟨.stopped z, ?_, rfl⟩
        unfold advance
        dsimp only
        rw [hz]
        dsimp only
        rw [if_pos (hzk.trans hkind)]
        rfl
    · exact .inr hq
  | stopped x =>
    unfold advance at hen ⊢
    dsimp only at hen ⊢
    rcases pollGate_cases c e.invalidating with ⟨hg, hwhy⟩ | ⟨hg, _⟩
    · rw [hg] at hen ⊢
      rcases hwhy with hoff | ⟨t, ht, _⟩
      · exact nomatch hoff.symm.trans hen
      · exact .inr (.inl (Option.isSome_of_mem ht))
    · rw [hg]
      exact .inl ⟨_, rfl, rfl⟩

/-! ## Runs -/

/-- While presence is wanted there is a call that rouses, or the core is alert. -/
structure System.Awake (y : System) : Prop where
  keyed : y.core.Keyed
  alert : y.core.phoneKeyEnabled = true → (∃ p ∈ y.calls, p.rouses = true) ∨ y.core.Alert

theorem System.Awake.off {y : System} (h : y.core.phoneKeyEnabled = false) : y.Awake :=
  ⟨fun hen => (nomatch h.symm.trans hen), fun hen => (nomatch h.symm.trans hen)⟩

/-- The calls that rouse stay where they are, or the one that moves was among them. -/
theorem rouses_eraseIdx {calls : List Pending} {i : Nat} {p : Pending} (hp : calls[i]? = some p)
    (h : ∃ q ∈ calls, q.rouses = true) : (∃ q ∈ calls.eraseIdx i, q.rouses = true) ∨ p.rouses = true := by
  obtain ⟨q, hq, hr⟩ := h
  obtain ⟨j, hj⟩ := List.mem_iff_getElem?.1 hq
  by_cases hij : j = i
  · rw [hij, hp] at hj
    cases hj
    exact .inr hr
  · exact .inl ⟨q, List.mem_eraseIdx_iff_getElem?.2 ⟨j, hij, hj⟩, hr⟩

theorem poll_awake {y : System} (hy : y.Awake) :
    System.Awake { y with core := y.core.pollEvent.1, calls := y.calls ++ [.popped y.core.pollEvent.2] } := by
  have hs := Core.pollEvent_steady y.core
  refine ⟨fun hen => ?_, fun hen => ?_⟩
  · have hp := keyed_priv (Core.pollEvent_path (S := .keyed) y.core)
    exact hp (hy.keyed (hs.phoneKeyEnabled.symm.trans hen))
  · rcases hy.alert (hs.phoneKeyEnabled.symm.trans hen) with ⟨q, hq, hr⟩ | ha
    · exact .inl ⟨q, List.mem_append_left _ hq, hr⟩
    · -- the event popped is the wake-up, or leaves it
      by_cases hx : (Pending.popped y.core.pollEvent.2).rouses = true
      · exact .inl ⟨_, List.mem_append_right _ (List.mem_singleton_self _), hx⟩
      · refine .inr ?_
        unfold Core.Alert
        rw [hs.phoneKeyRetryAt, hs.phoneKeyStarted]
        refine ha.imp id fun hw => ?_
        unfold Core.pollEvent at hx ⊢
        split
        · rename_i hses
          rw [if_pos hses] at hx
          refine pollEvent_wakes hw fun x hpop hk => hx ?_
          dsimp only
          rw [hpop]
          simpa [Pending.rouses] using hk
        · exact hw

theorem step_awake {K : Checks} {y : System} (hr : AnyRun y.core.host) (ha : Armed y.core) (hy : y.Awake) {ev : Event}
    (hok : ev.Moves (· ≠ .unlinkKey)) : (y.step K ev).Awake := by
  cases ev with
  | move m =>
    refine ⟨fun hen => ?_, fun hen => ?_⟩
    · exact keyed_priv (Machine.Path.one (M := hosts) (e := .move m) hok) (hy.keyed hen)
    · exact (hy.alert hen).imp id (Or.imp id (moves_wakes (orderly hr) [m]))
  | call op =>
    unfold System.step
    dsimp only
    split
    · refine ⟨hy.keyed, fun hen => (hy.alert hen).imp ?_ id⟩
      rintro ⟨q, hq, hr⟩
      exact ⟨q, List.mem_append_left _ hq, hr⟩
    · exact hy
  | poll =>
    unfold System.step
    dsimp only
    split
    · exact poll_awake hy
    · exact hy
  | advance i e =>
    cases hp : y.calls[i]? with
    | none =>
      have hstep : y.step K (.advance i e) = y := by simp only [System.step, hp]
      rw [hstep]
      exact hy
    | some p =>
      have hstep : y.step K (.advance i e) =
          { y with core := (advance K y.core e p).1, calls := y.calls.eraseIdx i ++ (advance K y.core e p).2.toList } := by
        simp only [System.step, hp]
      rw [hstep]
      refine ⟨advance_keyed K hy.keyed hok p, fun hen => ?_⟩
      by_cases hrest : ∃ q ∈ y.calls.eraseIdx i, q.rouses = true
      · obtain ⟨q, hq, hr⟩ := hrest
        exact .inl ⟨q, List.mem_append_left _ hq, hr⟩
      · have h := advance_alert K hr ha hy.keyed hok (p := p) (fun hon => (hy.alert hon).imp
          (fun hq => (rouses_eraseIdx hp hq).resolve_left hrest) id) hen
        refine h.imp ?_ id
        rintro ⟨q, hq, hr⟩
        exact ⟨q, List.mem_append_right _ (Option.mem_toList.2 hq), hr⟩
  | drop e =>
    unfold System.step
    dsimp only
    split
    · exact .off (Core.drop_ended y.core e).phoneKeyEnabled
    · exact hy
  | new backend unreadable fault =>
    unfold System.step
    dsimp only
    split
    · exact hy
    · split
      · rename_i heq
        unfold Core.new at heq
        split at heq
        · cases heq
          exact ⟨hy.keyed, fun hen => (hy.alert hen).imp id (Or.imp id fun hw => hw.of_client rfl)⟩
        · cases heq
      · rename_i heq
        unfold Core.new at heq
        split at heq
        · cases heq
        · cases heq
          exact .off rfl

theorem awake {K : Checks} {y : System} (h : (systems K).Reach (fun _ ev => ev.Moves (· ≠ .unlinkKey)) y) : y.Awake := by
  refine h.inv_of (I := System.Awake) (J := fun y => AnyRun y.core.host ∧ Armed y.core) (fun y hy => ⟨host_reached hy, armed hy⟩) ?_
    fun y ev hJ hy hok => step_awake hJ.1 hJ.2 hy hok
  rintro y ⟨w, rfl⟩
  exact .off rfl

/-- The phone key is on, or something will start it again. -/
def System.Rousable (y : System) : Prop :=
  (y.core.phoneKeyStarted = true ∧ y.core.isPresenceActive = true) ∨ y.core.phoneKeyRetryAt.isSome = true ∨
    y.core.host.Noticed ∨ y.core.host.Exiting

/-- With no call in progress and presence wanted, presence is on, a retry is scheduled, or a
    presence_stopped event waits or is about to be pushed: unless it was pushed out. -/
theorem lost_phone_key_wakes {K : Checks} {y : System} (h : (systems K).Reach (fun _ ev => ev.Moves (· ≠ .unlinkKey)) y)
    (hidle : y.calls = []) (hen : y.core.phoneKeyEnabled = true) (hd : ¬ y.core.host.Drowned) : y.Rousable := by
  have hs : y.core.session = true := (armed h hen).2.2.1
  rcases (awake h).alert hen with ⟨q, hq, _⟩ | hretry | hw
  · rw [hidle] at hq
    cases hq
  · exact .inr (.inl hretry)
  · rcases hw.trigger hd with ⟨hst, hact⟩ | htrig
    · refine .inl ⟨hst, ?_⟩
      rw [Core.isPresenceActive, hs, hact]
      rfl
    · exact .inr (.inr htrig)

/-! ## A run -/

theorem answered_keyed : answered.Moves (· ≠ .unlinkKey) := by
  refine ⟨fun _ => nofun, fun _ => nofun, fun m hm => ?_, fun _ => nofun⟩
  simp only [answered, List.mem_cons, List.not_mem_nil, or_false] at hm
  obtain rfl | rfl := hm
  · exact Move.noConfusion
  · exact Move.noConfusion

theorem startAnswered_keyed : startAnswered.Moves (· ≠ .unlinkKey) := by
  have hr : ({} : RunEnv).Moves (· ≠ .unlinkKey) := ⟨fun _ => nofun, fun _ => nofun, fun _ => nofun, fun _ => nofun⟩
  exact ⟨⟨hr, fun _ => nofun⟩, fun _ => nofun, hr, fun _ => nofun, fun _ => nofun,
    ⟨fun _ => nofun, fun _ => nofun, fun _ => nofun, answered_keyed⟩⟩

/-- Presence started, the child's socket closed, and a command answered by the next child. -/
def lostAndReplaced : List Event :=
  [.new (some .bluez) false none, .call .startPhoneKey, .advance 0 startAnswered] ++ childDies ++
    [.call (.run (.vendor .ping) []), .advance 0 { run := answered }]

def replaced : System := (systems anyArgs).run (.start pairedWorld) lostAndReplaced

theorem replaced_reached : (systems anyArgs).Reach (fun _ ev => ev.Moves (· ≠ .unlinkKey)) replaced :=
  Machine.Reach.run (M := systems anyArgs) (.init ⟨pairedWorld, rfl⟩) lostAndReplaced
    ⟨trivial, trivial, startAnswered_keyed, nofun, nofun, nofun, nofun, trivial, runOnly_moves answered_keyed, trivial⟩

/-- The second child runs no presence, no retry is scheduled, and the notice of the first waits. -/
theorem lostAndReplaced_wakes :
    (replaced.core.isAlive = true ∧ replaced.core.isPresenceActive = false ∧ replaced.core.phoneKeyRetryAt = none) ∧ replaced.Rousable := by
  have hdropped : replaced.core.host.client.events.dropped = [] := by decide
  refine ⟨⟨by decide, by decide, by decide⟩, lost_phone_key_wakes replaced_reached (by decide) (by decide) ?_⟩
  rintro ⟨_, _, _, d, hd, _⟩
  rw [hdropped] at hd
  cases hd

/-- The second child answers the vehicle's authentication requests, `n` of them, and nobody polls. -/
def answersRequests (n : Nat) : List Event :=
  (List.replicate n [Event.move (.send (.event { kind := .presenceAuthOk })), Event.move .read]).flatten

theorem answersRequests_keyed {n : Nat} {ev : Event} (h : ev ∈ answersRequests n) : ev.Moves (· ≠ .unlinkKey) := by
  obtain ⟨pair, hpair, hev⟩ := List.mem_flatten.1 h
  obtain ⟨_, rfl⟩ := List.mem_replicate.1 hpair
  simp only [List.mem_cons, List.not_mem_nil, or_false] at hev
  obtain rfl | rfl := hev
  · exact Move.noConfusion
  · exact Move.noConfusion

def drowned : System := (systems anyArgs).run replaced (answersRequests 64)

theorem drowned_reached : (systems anyArgs).Reach (fun _ ev => ev.Moves (· ≠ .unlinkKey)) drowned :=
  replaced_reached.run _ (.of_mem fun _ hev _ => answersRequests_keyed hev)

/-- The 64th pushes the notice of the first child out. -/
theorem drowned_silent : ¬ drowned.Rousable := by
  have hactive : drowned.core.isPresenceActive = false := by decide +kernel
  have hretry : drowned.core.phoneKeyRetryAt = none := by decide +kernel
  have hitems : ∀ x ∈ drowned.core.host.client.events.items, x.ev.kind ≠ .presenceStopped := by decide +kernel
  have hphase : drowned.core.host.client.child.map Handle.phase = some .reading := by decide +kernel
  rintro (⟨_, hon⟩ | hon | ⟨x, hx, hk⟩ | ⟨h, hc, _, hp⟩)
  · exact nomatch hactive.symm.trans hon
  · rw [hretry] at hon
    cases hon
  · exact hitems x hx hk
  · rw [hc] at hphase
    have hreading : h.phase = .reading := Option.some.inj hphase
    rw [hreading] at hp
    revert hp
    decide

theorem lost_phone_key_sleeps :
    ¬ ∀ (K : Checks) (y : System), (systems K).Reach (fun _ ev => ev.Moves (· ≠ .unlinkKey)) y → y.calls = [] →
      y.core.phoneKeyEnabled = true → y.core.eligible = true → y.core.session = true → y.core.host.client.bleBackend = .bluez →
      y.Rousable := fun h =>
  drowned_silent (h anyArgs drowned drowned_reached (by decide +kernel) (by decide +kernel) (by decide +kernel) (by decide +kernel)
    (by decide +kernel))

end ElectricEel.Control
