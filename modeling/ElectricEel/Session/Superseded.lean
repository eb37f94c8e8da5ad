/-
  ElectricEel.Session.Superseded — a presence loop after presence-stop (main.go
  `stopPresenceLocked`, `presenceLoop`, `runPresenceWatcher`).

  presence-stop cancels the loop's context and does not wait for it. The loop runs on to
  its next look at the context, and only its deferred cleanup asks whether it is still the
  current one. What it does on the way is done to the session as it is by then: a loop that
  comes out of Wait clears the beacon its successor has recorded (`stop_disturbs`).

  A stopped loop disturbs nobody where presence-stop does not overtake it between two
  sections of a connect, a departure or an event, and none of the sections on its way out
  finds something to do (`strays`): the rest of the way the context, the generation and the
  link it remembers keep it away from its successor (`stopped_loop_undisturbing`).
-/
import ElectricEel.Session.Inside
import ElectricEel.Session.Loops

namespace ElectricEel.Session

open Lib Lib.Protowire Commands Wire Child

/-! ## What a stopped loop may leave behind -/

/-- Presence mode, beacon, backoff and connection as they were; no event, and nothing on the
    connection. -/
structure Undisturbed (s t : State) : Prop where
  presence : t.presence = s.presence
  lastBeacon : t.lastBeacon = s.lastBeacon
  lastBeaconAt : t.lastBeaconAt = s.lastBeaconAt
  connectBackoffUntil : t.connectBackoffUntil = s.connectBackoffUntil
  connectBackoff : t.connectBackoff = s.connectBackoff
  car : t.car = s.car
  authInbox : t.authInbox = s.authInbox
  connectedAt : t.connectedAt = s.connectedAt
  lastVCSECPrime : t.lastVCSECPrime = s.lastVCSECPrime
  lastUserPresence : t.lastUserPresence = s.lastUserPresence
  insideEmitted : t.insideEmitted = s.insideEmitted
  log : t.log = s.log ∨ t.log = .startDiscovery :: s.log

namespace Undisturbed

theorem refl (s : State) : Undisturbed s s := ⟨rfl, rfl, rfl, rfl, rfl, rfl, rfl, rfl, rfl, rfl, rfl, .inl rfl⟩

/-- Its watcher is the loop's own. -/
theorem scanner (s : State) (made : Nat) (watcher : Option Nat) (watchers : Nat → Scanner) :
    Undisturbed s { s with made, watcher, watchers } := ⟨rfl, rfl, rfl, rfl, rfl, rfl, rfl, rfl, rfl, rfl, rfl, .inl rfl⟩

theorem discovery (s : State) (made : Nat) (watcher : Option Nat) (watchers : Nat → Scanner) :
    Undisturbed s ({ s with made, watcher, watchers }.note .startDiscovery) :=
  ⟨rfl, rfl, rfl, rfl, rfl, rfl, rfl, rfl, rfl, rfl, rfl, .inr rfl⟩

end Undisturbed

/-! ## The condition -/

/-- The next section connects, departs or emits an event. -/
def Pc.committed : Pc → Bool
  | connect _ | depart | tell _ _ => true
  | _ => false

/-- presence_inside is due. -/
def State.insideDue (s : State) : Bool :=
  s.presence.isSome && !s.insideEmitted && State.readyForInside s.connectedAt s.lastVCSECPrime s.now s.lastUserPresence

namespace Proc

/-- The loop was started before presence mode was last stopped. -/
def Stopped (p : Proc) (g : Nat) : Prop := 0 < g ∧ g ≤ p.session.stopped

/-- The section before loop `g` finds something to do. -/
def strays (p : Proc) (g : Nat) (c : Choice) : Bool :=
  let l := p.loops g
  let s := p.session
  match l.pc with
  | .bus => c == .fail
  | .snapshot => s.car.isSome && c == .dropped
  | .linkSelect => l.link.isSome && l.link == s.car && c != .done
  | .refresh => s.car.isSome && (s.vcsecPrimeDue l.now || s.insideDue)
  | .heard =>
    l.result.isSome || s.lastBeacon.isSome || s.lastBeaconAt.isSome || (l.near && expired l.cfg.toPresenceConfig l.lastSeen l.now)
  | .target => !s.connectBackoffActive l.now && (s.connectTarget l.result).isSome
  | _ => false

/-- presence-stop overtakes no loop on its way to a connect, a departure or an event; the
    sections a stopped loop still comes by find nothing to do; its Watch does not fail. -/
def Clean (p : Proc) : Event → Prop
  | .stop => p.mu = none → ∀ g ≤ p.session.presenceGeneration, p.session.stopped < g → (p.loops g).pc.committed = false
  | .loop g c => p.Stopped g → ((p.loops g).pc.locks && p.mu.isSome) = false → p.strays g c = false
  | .locked (.failed _) =>
    match p.mu with
    | some (.watch g) => ¬ p.Stopped g
    | _ => True
  | _ => True

instance (p : Proc) (g : Nat) : Decidable (p.Stopped g) := inferInstanceAs (Decidable (_ ∧ _))

instance (p : Proc) (e : Event) : Decidable (p.Clean e) := by
  unfold Clean
  split
  · infer_instance
  · infer_instance
  · split <;> infer_instance
  · infer_instance

end Proc

/-- A loop from presence-start into Wait. -/
def waiting (g : Nat) : List Event :=
  [.presenceStart defaultPresenceConfig, .loop g .go, .loop g .go, .loop g .go, .locked .ok] ++ List.replicate 6 (.loop g .go)

set_option maxRecDepth 8192 in
/-- Stopped in Wait, it comes out after its successor has heard the vehicle. -/
theorem stop_disturbs : ∃ p : Proc, (Proc.machine plainDecoders).Reach (fun _ _ => True) p ∧ p.Stopped 1 ∧ p.session.presence = some 3 ∧
    p.session.lastBeacon = some ⟨0, some (-60)⟩ ∧ (p.step plainDecoders (.loop 1 .go)).session.lastBeacon = none ∧
      ¬ Undisturbed p.session (p.step plainDecoders (.loop 1 .go)).session := by
  let es := waiting 1 ++ [.stop] ++ waiting 3 ++ [.loop 3 (.result (some (some (-60)))), .loop 3 .go, .loop 1 (.result none)]
  have h0 : (Proc.machine plainDecoders).Reach (fun _ _ => True) (Proc.start .bluez) := .init ⟨.bluez, rfl⟩
  have hr := h0.run es (.of_forall (fun _ _ => trivial) _ _)
  have hb : ((Proc.machine plainDecoders).run (Proc.start .bluez) es).session.lastBeacon = some ⟨0, some (-60)⟩ := by decide +kernel
  have ha : (((Proc.machine plainDecoders).run (Proc.start .bluez) es).step plainDecoders (.loop 1 .go)).session.lastBeacon = none := by
    decide +kernel
  refine ⟨_, hr, ⟨by decide, by decide +kernel⟩, by decide +kernel, hb, ha, ?_⟩
  intro hu
  have := hu.lastBeacon
  rw [ha, hb] at this
  cases this

/-! ## The way out -/

namespace Proc

/-- A stopped loop. -/
structure Spent (p : Proc) (g : Nat) : Prop where
  committed : (p.loops g).pc.committed = false
  link : (p.loops g).pc.reads = true → (p.loops g).link ≠ p.session.car
  holder : ∀ k, p.mu = some k → k.presence = some g → k = .watch g

/-- A step on its way out. -/
structure Leaves (g : Nat) (p q : Proc) : Prop where
  undisturbed : Undisturbed p.session q.session
  committed : (q.loops g).pc.committed = false
  link : (q.loops g).pc.reads = true → (q.loops g).link ≠ p.session.car
  mu : q.mu = p.mu ∨ q.mu = none ∨ q.mu = some (.watch g)

namespace Leaves

variable {g : Nat} {p q : Proc}

theorem stand (h : p.Spent g) (hl : q.loops = p.loops) (hu : Undisturbed p.session q.session)
    (hm : q.mu = p.mu ∨ q.mu = none ∨ q.mu = some (.watch g)) : Leaves g p q :=
  ⟨hu, by rw [hl]; exact h.committed, by rw [hl]; exact h.link, hm⟩

theorem go {l : Loop} (hl : q.loops = upd p.loops g l) (hc : l.pc.committed = false) (hr : l.pc.reads = false)
    (hu : Undisturbed p.session q.session) (hm : q.mu = p.mu ∨ q.mu = none) : Leaves g p q := by
  refine ⟨hu, ?_, ?_, hm.imp_right .inl⟩
  · rw [hl, upd_same, hc]
  · rw [hl, upd_same, hr]
    intro h
    cases h

/-- It goes by a link that is not the session's. -/
theorem read {l : Loop} (hl : q.loops = upd p.loops g l) (hc : l.pc.committed = false) (hk : l.link ≠ p.session.car)
    (hs : q.session = p.session) (hm : q.mu = p.mu) : Leaves g p q := by
  refine ⟨by rw [hs]; exact .refl _, ?_, ?_, .inl hm⟩
  · rw [hl, upd_same, hc]
  · rw [hl, upd_same]
    exact fun _ => hk

end Leaves

theorem emitInside_idle {s : State} (h : s.car.isSome = true → s.insideDue = false) : s.emitInside = s := by
  unfold State.emitInside
  split
  · next link hc =>
    refine if_pos ?_
    have hd : s.insideDue = false := h (by rw [hc]; rfl)
    unfold State.insideDue at hd
    revert hd
    cases s.presence <;> cases s.insideEmitted <;> simp
  · rfl

theorem snapshot_leaves {p : Proc} {g : Nat} {c : Choice} (hc : (p.session.car.isSome && c == .dropped) = false) :
    Leaves g p (p.snapshot g c) := by
  unfold snapshot
  dsimp only
  split
  · next link hcar =>
    rw [hcar] at hc
    cases hc
  · exact .go rfl rfl rfl (.refl _) (.inl rfl)
  · exact .go rfl rfl rfl (.refl _) (.inl rfl)

/-- The link it saw is not the session's. -/
theorem dropSeen_leaves {p : Proc} {g : Nat} (hl : (p.loops g).link ≠ p.session.car) : Leaves g p (p.dropSeen g) := by
  unfold dropSeen
  dsimp only
  rw [if_neg]
  · exact .go rfl rfl rfl (.refl _) (.inl rfl)
  · simp only [Bool.and_eq_true, beq_iff_eq, not_and]
    exact fun _ he => hl he.symm

theorem refresh_leaves {p : Proc} {g : Nat}
    (h : (p.session.car.isSome && (p.session.vcsecPrimeDue (p.loops g).now || p.session.insideDue)) = false) : Leaves g p (p.refresh g) := by
  have hidle : p.session.emitInside = p.session := by
    refine emitInside_idle fun hc => ?_
    rw [hc, Bool.true_and, Bool.or_eq_false_iff] at h
    exact h.2
  have hgo : Leaves g p ((p.onSession State.emitInside).goto g .check) :=
    .go rfl rfl rfl (by rw [goto_session, onSession_session, hidle]; exact .refl _) (.inl rfl)
  unfold refresh
  split
  · next link hc =>
    rw [hc, Option.isSome_some, Bool.true_and, Bool.or_eq_false_iff] at h
    rw [if_neg (by rw [h.1]; decide)]
    exact hgo
  · exact hgo

/-- Wait has heard nothing, nothing is recorded, and no departure is due. -/
theorem hear_leaves {p : Proc} {g : Nat} (hr : (p.loops g).result = none) (hb : p.session.lastBeacon = none)
    (ha : p.session.lastBeaconAt = none)
    (hd : ((p.loops g).near && expired (p.loops g).cfg.toPresenceConfig (p.loops g).lastSeen (p.loops g).now) = false) :
    Leaves g p (p.hear g) := by
  have hu : Undisturbed p.session (p.hear g).session :=
    ⟨rfl, by simp [hear, onSession, setLoop, State.setLastBeacon, hr, hb], by simp [hear, onSession, setLoop, State.setLastBeacon, hr, ha],
      rfl, rfl, rfl, rfl, rfl, rfl, rfl, rfl, .inl rfl⟩
  have hpc : ((p.hear g).loops g).pc = .settle := by
    simp only [hear, setLoop, onSession, upd_same, hr, Option.bind_none, Option.isSome_none, State.presenceLiveNear, Option.any_none]
    split
    · rfl
    · rfl
    · next hact =>
      have hdep : (presenceStep (p.loops g).cfg.toPresenceConfig (p.loops g).near (p.loops g).consecNear (p.loops g).lastSeen (p.loops g).now
          false ((none : Option Int).getD 0) false).2.2.2 ≠ .depart := by
        unfold presenceStep
        simp only [Bool.false_and, Bool.false_eq_true, if_false]
        split
        · simp
        · split
          · simp
          · split
            · next h3 =>
              rw [hd] at h3
              cases h3
            · split <;> simp
      exact (hdep hact).elim
    · rfl
  refine ⟨hu, by rw [hpc]; rfl, ?_, .inl rfl⟩
  rw [hpc]
  intro h
  cases h

variable {p : Proc} {g : Nat} {c : Choice}

/-- One step of a stopped loop. -/
theorem stepLoop_leaves (h : p.Spent g) (hgen : p.session.presenceGeneration ≠ g)
    (hc : ((p.loops g).pc.locks && p.mu.isSome) = false → p.strays g c = false) : Leaves g p (p.stepLoop g c) := by
  have hcom := h.committed
  have hlink := h.link
  unfold stepLoop
  dsimp only
  split
  · exact .stand h rfl (.refl _) (.inl rfl)
  · next hlock =>
    have hs := hc (Bool.eq_false_iff.2 hlock)
    unfold strays at hs
    dsimp only at hs
    split <;> rename_i hpc <;> simp only [hpc] at hs hcom hlink
    · exact .stand h rfl (.refl _) (.inl rfl)
    · exact .stand h rfl (.refl _) (.inl rfl)
    · -- bus
      have hgo : c ≠ .fail := by simpa using hs
      rw [if_neg hgo]
      exact .go rfl rfl rfl (.refl _) (.inl rfl)
    · -- top
      split <;> exact .go rfl rfl rfl (.refl _) (.inl rfl)
    · exact .stand h rfl (.refl _) (.inr (.inr rfl))
    · exact .stand h rfl (.refl _) (.inr (.inr rfl))
    · -- rest
      split
      · split
        · exact .go rfl rfl rfl (.refl _) (.inl rfl)
        · exact .stand h rfl (.refl _) (.inl rfl)
      · exact .go rfl rfl rfl (.refl _) (.inl rfl)
    · exact .go rfl rfl rfl (.scanner _ _ _ _) (.inl rfl)
    · -- check
      split <;> exact .go rfl rfl rfl (.refl _) (.inl rfl)
    · exact snapshot_leaves hs
    · -- pausing
      split
      · exact .stand h rfl (.refl _) (.inl rfl)
      · exact .go rfl rfl rfl (.scanner _ _ _ _) (.inl rfl)
    · -- linkSelect
      split
      · split
        · exact .go rfl rfl rfl (.refl _) (.inl rfl)
        · exact .stand h rfl (.refl _) (.inl rfl)
      · split
        · next hl =>
          refine .read rfl rfl ?_ rfl rfl
          simpa [hl] using hs
        · exact .stand h rfl (.refl _) (.inl rfl)
      · next hdone _ =>
        split
        · next hl =>
          refine .read rfl rfl ?_ rfl rfl
          intro he
          have hd : (c != Choice.done) = true := by simpa using hdone
          rw [show (p.loops g).link = p.session.car from he] at hs hl
          rw [hl, hd] at hs
          simp at hs
        · exact .go rfl rfl rfl (.refl _) (.inl rfl)
    · exact dropSeen_leaves (hlink rfl)
    · exact dropSeen_leaves (hlink rfl)
    · -- readConnected
      split
      · exact .go rfl rfl rfl (.refl _) (.inl rfl)
      · split
        · exact .read rfl rfl (hlink rfl) rfl rfl
        · exact .go rfl rfl rfl (.refl _) (.inl rfl)
      · exact .go rfl rfl rfl (.refl _) (.inl rfl)
    · exact refresh_leaves hs
    · -- resume
      split
      · exact .go rfl rfl rfl (.refl _) (.inl rfl)
      · exact .go rfl rfl rfl (.scanner _ _ _ _) (.inl rfl)
    · -- wait
      split
      · exact .stand h rfl (.refl _) (.inl rfl)
      · split
        · exact .go rfl rfl rfl (.refl _) (.inl rfl)
        · exact .go rfl rfl rfl (.scanner _ _ _ _) (.inl rfl)
    · -- discovering
      split
      · exact .go rfl rfl rfl (.scanner _ _ _ _) (.inl rfl)
      · exact .go rfl rfl rfl (.discovery _ _ _ _) (.inl rfl)
      · exact .go rfl rfl rfl (.discovery _ _ _ _) (.inl rfl)
      · exact .go rfl rfl rfl (.scanner _ _ _ _) (.inl rfl)
    · -- listening
      split
      · exact .go rfl rfl rfl (.refl _) (.inl rfl)
      · exact .go rfl rfl rfl (.refl _) (.inl rfl)
      · exact .go rfl rfl rfl (.refl _) (.inl rfl)
      · exact .go rfl rfl rfl (.refl _) (.inl rfl)
      · exact .stand h rfl (.refl _) (.inl rfl)
    · -- waitFailed
      split <;> exact .go rfl rfl rfl (.refl _) (.inl rfl)
    · exact .go rfl rfl rfl (.scanner _ _ _ _) (.inl rfl)
    · -- heard
      simp only [Bool.or_eq_false_iff, Option.isSome_eq_false_iff, Option.isNone_iff_eq_none] at hs
      exact hear_leaves hs.1.1.1 hs.1.1.2 hs.1.2 hs.2
    · -- target
      rw [if_pos]
      · exact .go rfl rfl rfl (.refl _) (.inl rfl)
      · revert hs
        cases p.session.connectBackoffActive (p.loops g).now <;> cases p.session.connectTarget (p.loops g).result <;> simp
    · cases hcom
    · cases hcom
    · -- settle
      split
      · split <;> exact .go rfl rfl rfl (.refl _) (.inl rfl)
      · split
        · split
          · exact .go rfl rfl rfl (.refl _) (.inl rfl)
          · exact .stand h rfl (.refl _) (.inl rfl)
        · exact .go rfl rfl rfl (.refl _) (.inl rfl)
    · -- leave
      refine .go rfl rfl rfl ?_ (.inl rfl)
      show Undisturbed p.session (p.session.forgetWatcher _)
      unfold State.forgetWatcher
      split
      · exact .scanner _ _ _ _
      · exact .refl _
    · exact .go rfl rfl rfl (.scanner _ _ _ _) (.inl rfl)
    · -- cleanup: another generation
      exact .go rfl rfl rfl (.refl _) (.inl rfl)
    · cases hcom

/-- Its Watch goes on. -/
theorem stepLocked_leaves (h : p.Spent g) (hm : p.mu = some (.watch g)) {r : Reply} (hr : ∀ dropped, r ≠ .failed dropped) :
    Leaves g p (p.stepLocked r) := by
  unfold stepLocked
  rw [hm]
  cases r with
  | scan => exact .stand h rfl (.discovery _ _ _ _) (.inl rfl)
  | ok =>
    unfold watched
    dsimp only
    split
    · exact .go rfl rfl rfl (.discovery _ _ _ _) (.inr rfl)
    · next hf => cases hf
    · exact .go rfl rfl rfl (.discovery _ _ _ _) (.inr rfl)
    · next hf => cases hf
    · exact .stand h rfl (.refl _) (.inr (.inl rfl))
  | failed dropped => exact (hr dropped rfl).elim
  | attempt | retry | status presence => exact .stand h rfl (.refl _) (.inl rfl)

/-! ## Every step -/

structure Trail (p : Proc) : Prop where
  seen : ∀ g, Seen p.session.links (p.loops g)
  spent : ∀ g, p.Stopped g → p.Spent g
  behind : p.session.stopped < p.session.presenceGeneration ∨ p.session.stopped = 0

namespace Trail

variable {q : Proc}

theorem generation (h : p.Trail) (hg : p.Stopped g) : p.session.presenceGeneration ≠ g := by
  have := hg.1
  have := hg.2
  rcases h.behind with hb | hb <;> omega

theorem behind_ages (h : p.Trail) (ha : State.Ages p.session q.session) :
    q.session.stopped < q.session.presenceGeneration ∨ q.session.stopped = 0 := by
  have := ha.generation
  rw [ha.stopped]
  rcases h.behind with hb | hb
  · exact .inl (by omega)
  · exact .inr hb

/-- A stopped loop through the step of another. -/
theorem other (h : p.Trail) (ha : State.Ages p.session q.session) (hg : p.Stopped g) (hl : q.loops g = p.loops g)
    (hm : q.mu = p.mu ∨ ∀ k, q.mu = some k → k.presence ≠ some g) : q.Spent g := by
  have hs := h.spent g hg
  refine ⟨by rw [hl]; exact hs.committed, ?_, ?_⟩
  · intro hr hcar
    rw [hl] at hr hcar
    obtain ⟨k, hk⟩ := Option.isSome_iff_exists.1 ((h.seen g).reads hr)
    refine hs.link hr ?_
    rw [hk, ha.car k ((h.seen g).link k hk) (hcar.symm.trans hk)]
  · intro k hk hkg
    rcases hm with he | hn
    · exact hs.holder k (he ▸ hk) hkg
    · exact (hn k hk hkg).elim

/-- A stopped loop through its own step. -/
theorem own (h : p.Trail) (hg : p.Stopped g) (hl : Leaves g p q) : q.Spent g := by
  have hs := h.spent g hg
  refine ⟨hl.committed, ?_, ?_⟩
  · rw [hl.undisturbed.car]
    exact hl.link
  · intro k hk hkg
    rcases hl.mu with he | hn | hw
    · exact hs.holder k (he ▸ hk) hkg
    · rw [hn] at hk
      cases hk
    · rw [hw] at hk
      exact (Option.some.inj hk).symm

/-- A step that leaves the loops to themselves. -/
theorem stays (h : p.Trail) {a : Option Nat} (ha : State.Ages p.session q.session) (hst : Stays a p q)
    (hown : ∀ g, p.Stopped g → a = some g → Leaves g p q) : q.Trail := by
  refine ⟨?_, ?_, h.behind_ages ha⟩
  · intro g
    have hold : ∀ k, (p.loops g).link = some k → k < q.session.links :=
      fun k hk => Nat.lt_of_lt_of_le ((h.seen g).link k hk) ha.links
    rcases hst.own g with he | ⟨hk, hr, _⟩
    · rw [he]
      exact ⟨hold, (h.seen g).reads⟩
    · refine ⟨hk ▸ hold, ?_⟩
      rw [hr]
      intro hf
      cases hf
  · intro g hg
    have hg' : p.Stopped g := ⟨hg.1, ha.stopped ▸ hg.2⟩
    by_cases hag : a = some g
    · exact h.own hg' (hown g hg' hag)
    · refine h.other ha hg' (hst.loops g hag) (hst.mu.imp_right fun hm k hk hkg => ?_)
      rcases hm k hk with he | hn
      · exact hag (he.symm.trans hkg)
      · rw [hn] at hkg
        cases hkg

theorem walks (h : p.Trail) {i : Nat} (ha : State.Ages p.session q.session) (hc : ∀ k, p.session.car = some k → k < p.session.links)
    (hw : Walks i p q) (hown : p.Stopped i → Leaves i p q) : q.Trail := by
  refine ⟨?_, ?_, h.behind_ages ha⟩
  · intro g
    by_cases hg : g = i
    · subst hg
      exact hw.seen (h.seen g) hc ha.links
    · rw [hw.loops g hg]
      exact ⟨fun k hk => Nat.lt_of_lt_of_le ((h.seen g).link k hk) ha.links, (h.seen g).reads⟩
  · intro g hg
    have hg' : p.Stopped g := ⟨hg.1, ha.stopped ▸ hg.2⟩
    by_cases hgi : g = i
    · subst hgi
      exact h.own hg' (hown hg')
    · refine h.other ha hg' (hw.loops g hgi) (hw.mu.imp_right fun hm k hk hkg => ?_)
      rcases hm k hk with he | hn
      · exact hgi (Option.some.inj (hkg.symm.trans he))
      · rw [hn] at hkg
        cases hkg

/-- presence-stop, with `mu`. -/
theorem stop (h : p.Trail) (hm : p.mu = none)
    (hc : ∀ g ≤ p.session.presenceGeneration, p.session.stopped < g → (p.loops g).pc.committed = false) :
    (p.onSession fun s => s.stopPresence.teardown).Trail := by
  have hages := State.teardown_ages p.session.stopPresence
  have hstopped : p.session.stopPresence.teardown.stopped = p.session.presenceGeneration := by
    rw [hages.stopped, State.stopPresence_stopped]
  have hgen : p.session.presenceGeneration + 1 ≤ p.session.stopPresence.teardown.presenceGeneration := by
    rw [← State.stopPresence_presenceGeneration]
    exact hages.generation
  have hlinks : p.session.links ≤ p.session.stopPresence.teardown.links := by
    rw [← State.stopPresence_links]
    exact hages.links
  refine ⟨fun g => ⟨fun k hk => Nat.lt_of_lt_of_le ((h.seen g).link k hk) hlinks, (h.seen g).reads⟩, ?_, .inl ?_⟩
  · intro g hg
    refine ⟨?_, ?_, ?_⟩
    · by_cases hold : g ≤ p.session.stopped
      · exact (h.spent g ⟨hg.1, hold⟩).committed
      · refine hc g ?_ (by omega)
        rw [← hstopped]
        exact hg.2
    · -- the connection is down
      intro hr hcar
      have hs := (h.seen g).reads hr
      rw [onSession_session, State.teardown_car] at hcar
      have hl : (p.loops g).link = none := hcar
      rw [hl] at hs
      cases hs
    · intro k hk
      rw [onSession_mu, hm] at hk
      cases hk
  · rw [onSession_session, hstopped]
    omega

theorem leaves (h : p.Trail) {e : Event} (hc : p.Clean e) (hg : p.Stopped g) (ha : e.actor p = some g) : Leaves g p (p.step decoders e) := by
  have hs := h.spent g hg
  cases e with
  | loop i c =>
    cases ha
    exact stepLoop_leaves hs (h.generation hg) (hc hg)
  | locked r =>
    obtain ⟨k, hm, hk⟩ := Option.bind_eq_some_iff.1 ha
    have hw := hs.holder k hm hk
    subst hw
    refine stepLocked_leaves hs hm ?_
    rintro dropped rfl
    simp only [Clean, hm] at hc
    exact hc hg
  | _ => cases ha

theorem step (h : p.Trail) (hh : p.Held) (hi : p.session.Inside) {e : Event} (hc : p.Clean e) : (p.step decoders e).Trail := by
  cases e with
  | loop g c => exact h.walks (step_ages hh (by simp)) hi.known (stepLoop_walks p g c) fun hg => h.leaves hc hg rfl
  | presenceStart cfg =>
    refine h.walks (step_ages hh (by simp)) hi.known (presenceStart_walks p cfg) fun hg => ?_
    have := hg.2
    rcases h.behind with hb | hb <;> omega
  | stop =>
    unfold Proc.step sectionNow
    dsimp only
    by_cases hm : p.mu.isSome = true
    · rw [if_pos hm]
      exact h
    · have hm' : p.mu = none := by simpa using hm
      rw [if_neg hm]
      exact h.stop hm' (hc hm')
  | _ => exact h.stays (step_ages hh (by simp)) (step_stays p (by simp) (by simp)) fun g hg ha => h.leaves hc hg ha

end Trail

theorem Trail.start (b : Backend) : (Proc.start b).Trail := by
  refine ⟨?_, ?_, .inr rfl⟩
  · intro g
    refine ⟨?_, ?_⟩
    · intro k hk
      cases hk
    · intro hr
      cases hr
  · intro g hg
    have h0 : g ≤ 0 := hg.2
    have := hg.1
    omega

theorem trail (h : (machine decoders).Reach Clean p) : p.Trail := by
  have hin : ∀ q, (machine decoders).Reach Clean q → q.session.Inside :=
    fun _ hq => session_inv State.inside_start (fun _ _ => State.Inside.move) (fun _ _ => State.Inside.talk)
      (fun _ => State.Inside.stopPresence) hq
  refine Machine.Reach.inv_of (J := fun q => q.Held ∧ q.session.Inside) (I := Trail) (fun q hq => ⟨held hq, hin q hq⟩) ?_ ?_ h
  · rintro q ⟨b, rfl⟩
    exact Trail.start b
  · intro q e hJ hq hc
    exact hq.step hJ.1 hJ.2 hc

end Proc

/-! ## All runs -/

theorem stopped_loop_undisturbing {decoders : Decoders} {p : Proc} (h : (Proc.machine decoders).Reach Proc.Clean p)
    {e : Event} (hc : p.Clean e) {g : Nat} (hg : p.Stopped g) (ha : e.actor p = some g) :
    Undisturbed p.session (p.step decoders e).session :=
  ((Proc.trail h).leaves hc hg ha).undisturbed

set_option maxRecDepth 8192 in
/-- Stopped in Wait, and out of it before its successor hears anything. -/
theorem stopped_loop_undisturbing_in_wait :
    let es := waiting 1 ++ [.stop] ++ waiting 3 ++ [.loop 1 (.result none)]
    let p := (Proc.machine plainDecoders).run (Proc.start .bluez) es
    Undisturbed p.session (p.step plainDecoders (.loop 1 .go)).session := by
  intro es p
  have h0 : (Proc.machine plainDecoders).Reach Proc.Clean (Proc.start .bluez) := .init ⟨.bluez, rfl⟩
  have hr := h0.run es (by decide +kernel)
  have hc : p.Clean (.loop 1 .go) := by decide +kernel
  have hg : p.Stopped 1 := by decide +kernel
  exact stopped_loop_undisturbing hr hc hg rfl

end ElectricEel.Session
