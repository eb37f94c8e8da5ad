/-
  ElectricEel.Session.Reuse — no unauthenticated connection is reused (main.go
  `ensureConnectedLocked`, `teardownLocked`, `ensureAuthTapLocked`, `dispatch`).

  ensureConnectedLocked caches the vehicle before StartSession, and for add-key-request it
  skips StartSession. Both connections are torn down before the lock is released: the first
  where StartSession fails, the second by dispatch, whatever came of the command.

  Proved: whenever the lock is free, a cached vehicle has had a successful StartSession on
  its connection, which is `conn`, and on bluez its observer feeds `authInbox`; without a
  vehicle everything that speaks of a connection is reset (`link_authenticated`).
-/
import ElectricEel.Session.Guarded

namespace ElectricEel.Guarded

open Lib Commands Child

namespace State

/-! ## The invariant -/

/-- Nothing speaks of a connection. -/
structure Reset (s : State) : Prop where
  conn : s.conn = none
  authCancel : s.authCancel = none
  authInbox : s.authInbox = none
  lastVCSECPrime : s.lastVCSECPrime = none
  connectedAt : s.connectedAt = none
  lastUserPresence : s.lastUserPresence = .unknown
  insideEmitted : s.insideEmitted = false

/-- The tap on `conn` feeds the session's inbox. -/
def Tapped (s : State) (conn : Connector) : Prop :=
  conn.bluez = true → ∃ inbox, s.authInbox = some inbox ∧ s.observers conn.id = some inbox

structure Sound (s : State) : Prop where
  conn : ∀ v, s.car = some v → s.conn = some v.conn
  started : ∀ v, s.car = some v → v.conn.id ∈ s.started
  tapped : ∀ v, s.car = some v → s.Tapped v.conn
  responder : s.authCancel = s.authInbox
  reset : s.car = none → s.Reset

/-- What a section leaves alone that is not about the connection. -/
structure Same (s t : State) : Prop where
  car : t.car = s.car
  conn : t.conn = s.conn
  authCancel : t.authCancel = s.authCancel
  authInbox : t.authInbox = s.authInbox
  observers : t.observers = s.observers
  started : t.started = s.started
  lastVCSECPrime : t.lastVCSECPrime = s.lastVCSECPrime
  connectedAt : t.connectedAt = s.connectedAt
  lastUserPresence : t.lastUserPresence = s.lastUserPresence
  insideEmitted : t.insideEmitted = s.insideEmitted

theorem Sound.same {s t : State} (h : s.Sound) (hs : Same s t) : t.Sound := by
  refine ⟨?_, ?_, ?_, ?_, ?_⟩
  · rw [hs.car, hs.conn]
    exact h.conn
  · rw [hs.car, hs.started]
    exact h.started
  · unfold Tapped
    rw [hs.car, hs.authInbox, hs.observers]
    exact h.tapped
  · rw [hs.authCancel, hs.authInbox, h.responder]
  · intro hc
    have hr := h.reset (hs.car ▸ hc)
    exact ⟨hs.conn.trans hr.conn, hs.authCancel.trans hr.authCancel, hs.authInbox.trans hr.authInbox,
      hs.lastVCSECPrime.trans hr.lastVCSECPrime, hs.connectedAt.trans hr.connectedAt,
      hs.lastUserPresence.trans hr.lastUserPresence, hs.insideEmitted.trans hr.insideEmitted⟩

/-- A vehicle is cached with its connector. -/
structure Cached (s : State) (v : Vehicle) : Prop where
  car : s.car = some v
  conn : s.conn = some v.conn
  responder : s.authCancel = s.authInbox

theorem Sound.cached {s : State} (h : s.Sound) {v : Vehicle} (hv : s.car = some v) : s.Cached v := ⟨hv, h.conn v hv, h.responder⟩

/-- With a vehicle cached the readings may be anything. -/
theorem Cached.sound {s : State} {v : Vehicle} (h : s.Cached v) (hs : v.conn.id ∈ s.started) (ht : s.Tapped v.conn) : s.Sound := by
  have hone : ∀ w, s.car = some w → w = v := fun w hw => Option.some.inj (hw.symm.trans h.car)
  refine ⟨?_, ?_, ?_, h.responder, ?_⟩
  · intro w hw
    rw [hone w hw]
    exact h.conn
  · intro w hw
    rw [hone w hw]
    exact hs
  · intro w hw
    rw [hone w hw]
    exact ht
  · intro hn
    rw [h.car] at hn
    cases hn

/-! ## Each function -/

theorem stopIdleTimer_same (s : State) : Same s s.stopIdleTimer := by
  unfold stopIdleTimer
  split <;> constructor <;> rfl

theorem resetIdleTimer_same (s : State) : Same s s.resetIdleTimer := by
  have h := stopIdleTimer_same s
  unfold resetIdleTimer
  split
  · exact h
  · exact ⟨h.car, h.conn, h.authCancel, h.authInbox, h.observers, h.started, h.lastVCSECPrime, h.connectedAt, h.lastUserPresence,
      h.insideEmitted⟩

/-- Whatever it finds. -/
theorem teardown_sound (s : State) : s.teardown.Sound := by
  refine ⟨?_, ?_, ?_, rfl, fun _ => ⟨rfl, rfl, rfl, rfl, rfl, rfl, rfl⟩⟩
  · intro v hv
    cases hv
  · intro v hv
    cases hv
  · intro v hv
    cases hv

/-- Started where it is not, attached again where it is. -/
theorem Cached.ensureAuthTap {s : State} {v : Vehicle} (h : s.Cached v) : s.ensureAuthTap.Cached v ∧ s.ensureAuthTap.Tapped v.conn := by
  unfold State.ensureAuthTap
  split
  · next c hc =>
    obtain rfl : v.conn = c := Option.some.inj (h.conn.symm.trans hc)
    split
    · split
      · exact ⟨⟨h.car, h.conn, rfl⟩, fun _ => ⟨s.inboxes, rfl, Session.upd_same _ _ _⟩⟩
      · next i hi =>
        have hin : s.authInbox = some i := h.responder.symm.trans hi
        exact ⟨⟨h.car, h.conn, h.responder⟩, fun _ => ⟨i, hin, (Session.upd_same _ _ _).trans hin⟩⟩
    · next hb => exact ⟨h, fun hb' => (hb hb').elim⟩
  · next hn =>
    rw [h.conn] at hn
    cases hn

@[simp] theorem ensureAuthTap_car (s : State) : s.ensureAuthTap.car = s.car := by
  unfold ensureAuthTap
  split
  · split
    · split <;> rfl
    · rfl
  · rfl

@[simp] theorem ensureAuthTap_started (s : State) : s.ensureAuthTap.started = s.started := by
  unfold ensureAuthTap
  split
  · split
    · split <;> rfl
    · rfl
  · rfl

theorem Sound.ensureAuthTap {s : State} (h : s.Sound) : s.ensureAuthTap.Sound := by
  cases hv : s.car with
  | some v =>
    obtain ⟨hc, ht⟩ := (h.cached hv).ensureAuthTap
    refine hc.sound ?_ ht
    rw [ensureAuthTap_started]
    exact h.started v hv
  | none =>
    unfold State.ensureAuthTap
    split
    · next c hc =>
      rw [(h.reset hv).conn] at hc
      cases hc
    · exact h

theorem Cached.startSession {s : State} {v : Vehicle} (h : s.Cached v) (ht : s.Tapped v.conn) : s.startSession.Sound := by
  refine @Cached.sound _ v ⟨h.car, h.conn, h.responder⟩ ?_ ht
  simp [State.startSession, h.car]

/-- A new connection: authenticated, or torn down, or opened for add-key-request. -/
theorem openSession_sound {s : State} (h : s.Sound) (cmd : Option Cmd) (conn : Connector) (r : Reply)
    (hk : withoutSession cmd = false ∨ (s.openSession cmd conn r).2 = false) : (s.openSession cmd conn r).1.Sound := by
  have hc : State.Cached { s with car := some ⟨conn⟩, conn := some conn } ⟨conn⟩ := ⟨rfl, rfl, h.responder⟩
  unfold openSession at hk ⊢
  dsimp only at hk ⊢
  split at hk
  · next hw =>
    rw [hw] at hk
    rcases hk with hk | hk <;> cases hk
  · next hw =>
    rw [if_neg hw]
    obtain ⟨hc', ht⟩ := hc.ensureAuthTap
    split
    · exact @Cached.sound _ ⟨conn⟩ ⟨hc'.car, hc'.conn, hc'.responder⟩ (by simp [State.ready, State.startSession]) ht
    · exact teardown_sound _

theorem openTransport_same (s : State) (r : Reply) : Same s (s.openTransport r).1 := by
  unfold openTransport ensureBluez
  dsimp only
  split
  · split <;> split <;> constructor <;> rfl
  · split <;> constructor <;> rfl

theorem ensureConnected_sound {s : State} (h : s.Sound) (cmd : Option Cmd) (target : Option Session.Result) (since : Int) (r : Reply)
    (hk : withoutSession cmd = false ∨ (s.ensureConnected cmd target since r).2 = false) : (s.ensureConnected cmd target since r).1.Sound := by
  unfold ensureConnected at hk ⊢
  split
  · next hlive =>
    obtain ⟨v, hv⟩ := Option.isSome_iff_exists.1 hlive
    have ht := (h.cached hv).ensureAuthTap
    split
    · exact h
    · split
      · exact h.ensureAuthTap
      · split
        · exact ht.1.startSession ht.2
        · exact h.ensureAuthTap
  · next hlive =>
    rw [if_neg hlive] at hk
    split
    · exact h
    · next hnear =>
      rw [if_neg hnear] at hk
      split
      · exact h
      · next hkey =>
        rw [if_neg hkey] at hk
        have hs := h.same (openTransport_same s r)
        split
        · next he =>
          rw [he] at hs
          exact hs
        · next conn he =>
          rw [he] at hk hs
          dsimp only at hk
          split
          · next hl =>
            rw [if_pos hl] at hk
            exact openSession_sound hs cmd conn r hk
          · exact hs

/-! ## Each section -/

theorem Sound.complete {s : State} (h : s.Sound) : s.complete.Sound := h.same (by constructor <;> rfl)

theorem Sound.resetIdleTimer {s : State} (h : s.Sound) : s.resetIdleTimer.Sound := h.same (resetIdleTimer_same s)

/-- add-key-request's connection goes with the section. -/
theorem dispatch_sound {s : State} (h : s.Sound) (cmd : Cmd) (since : Int) (r : Reply) : (s.dispatch cmd since r).Sound := by
  have hc := ensureConnected_sound h (some cmd) s.presenceBeaconTarget since r
  unfold dispatch
  split
  · next he =>
    rw [he] at hc
    exact (hc (.inr rfl)).complete
  · next he =>
    rw [he] at hc
    split
    · exact teardown_sound _
    · next hw => exact (hc (.inl (Bool.eq_false_iff.2 hw))).complete.resetIdleTimer

theorem navigateConnect_sound {s : State} (h : s.Sound) (since : Int) (r : Reply) : (s.navigateConnect since r).1.Sound := by
  have hc := ensureConnected_sound h none s.presenceBeaconTarget since r (.inl rfl)
  unfold navigateConnect
  split <;> rename_i he <;> rw [he] at hc
  · exact hc.complete
  · exact hc

theorem navigateSend_sound {s : State} (h : s.Sound) (r : Reply) : (s.navigateSend r).Sound := by
  unfold navigateSend
  split
  · exact h
  · split
    · exact h.complete.resetIdleTimer
    · exact h.complete

theorem prime_sound {s : State} (h : s.Sound) (r : Reply) : (s.prime r).Sound := by
  unfold prime
  split
  · exact h
  · next hn =>
    obtain ⟨v, hv⟩ := Option.ne_none_iff_exists'.1 (by simpa using hn)
    have hc := h.cached hv
    split
    · exact @Cached.sound _ v ⟨hc.car, hc.conn, hc.responder⟩ (h.started v hv) (h.tapped v hv)
    · split
      · exact teardown_sound s
      · exact @Cached.sound _ v ⟨hc.car, hc.conn, hc.responder⟩ (h.started v hv) (h.tapped v hv)

theorem emitInside_sound {s : State} (h : s.Sound) : s.emitInside.Sound := by
  unfold emitInside
  split
  · exact h
  · next hn =>
    simp only [Bool.or_eq_true, not_or, Bool.not_eq_true, Option.isNone_eq_false_iff] at hn
    obtain ⟨v, hv⟩ := Option.isSome_iff_exists.1 hn.1.1.1
    have hc := h.cached hv
    exact @Cached.sound _ v ⟨hc.car, hc.conn, hc.responder⟩ (h.started v hv) (h.tapped v hv)

theorem refresh_sound {s : State} (h : s.Sound) (now : Int) (r : Reply) : (s.refresh now r).Sound := by
  unfold refresh
  refine emitInside_sound ?_
  split
  · refine Sound.resetIdleTimer ?_
    split
    · exact prime_sound h r
    · exact h
  · exact h

theorem presenceConnect_sound {s : State} (h : s.Sound) (target : Option Session.Result) (since : Int) (r : Reply) :
    (s.presenceConnect target since r).Sound := by
  have hc := ensureConnected_sound h none target since r (.inl rfl)
  unfold presenceConnect
  split <;> rename_i he <;> rw [he] at hc
  · exact hc
  · exact (prime_sound hc.ensureAuthTap r).resetIdleTimer

theorem keygen_sound {s : State} (h : s.Sound) (force : Bool) (r : Reply) : (s.keygen force r).Sound := by
  unfold keygen
  split
  · exact teardown_sound _
  · exact h

theorem respond_sound {s : State} (h : s.Sound) (inbox : Nat) (r : Reply) : (s.respond inbox r).Sound := by
  unfold respond
  split
  · exact h
  · split
    · exact teardown_sound s
    · exact h

theorem look_sound {s : State} (h : s.Sound) (r : Reply) : (s.look r).Sound := by
  unfold look
  split
  · exact teardown_sound s
  · exact h

theorem dropSeen_sound {s : State} (h : s.Sound) (conn : Connector) : (s.dropSeen conn).Sound := by
  unfold dropSeen
  split
  · exact teardown_sound s
  · exact h

theorem startPresence_same (s : State) (cfg : Session.Config) : Same s (s.startPresence cfg) := by
  unfold startPresence
  split <;> constructor <;> rfl

theorem endPresence_same (s : State) (g : Nat) : Same s (s.endPresence g) := by
  unfold endPresence
  split <;> constructor <;> rfl

theorem ensureBluez_same (s : State) (r : Reply) : Same s (s.ensureBluez r) := by
  unfold ensureBluez
  split <;> constructor <;> rfl

theorem run_sound {s : State} (h : s.Sound) (since : Int) (r : Reply) (j : Job) : (s.run since r j).Sound := by
  cases j with
  | command cmd => exact dispatch_sound h cmd since r
  | keygen force => exact keygen_sound h force r
  | presenceStart cfg => exact h.same (startPresence_same s cfg)
  | presenceStop => exact teardown_sound _
  | navigate => exact navigateConnect_sound h since r
  | navigateSend => exact navigateSend_sound h r
  | responder inbox => exact respond_sound h inbox r
  | openBus g => exact h.same (ensureBluez_same s r)
  | look g => exact look_sound h r
  | dropSeen g conn => exact dropSeen_sound h conn
  | refresh g now => exact refresh_sound h now r
  | hear g result => exact h.same (by constructor <;> rfl)
  | connect g target => exact presenceConnect_sound h target since r
  | depart g => exact teardown_sound s
  | cleanup g => exact h.same (endPresence_same s g)

end State

/-! ## All runs -/

namespace Proc

theorem sound_step {p : Proc} (h : p.session.Sound) (e : Event) : (p.step e).session.Sound := by
  unfold step
  cases e with
  | tick ms => exact h.same (by constructor <;> rfl)
  | expire t =>
    dsimp only
    split
    · exact h.same (by constructor <;> rfl)
    · exact h
  | callback t =>
    dsimp only
    split
    · exact State.teardown_sound _
    · exact h
  | lock j =>
    dsimp only
    split <;> exact h
  | done r =>
    dsimp only
    split
    · exact State.run_sound h _ r _
    · exact h
  | enter g =>
    dsimp only
    split <;> exact h
  | exit g =>
    dsimp only
    split <;> exact h

theorem sound {ok : Proc → Event → Prop} {p : Proc} (h : machine.Reach ok p) : p.session.Sound := by
  refine h.inv (I := fun p => p.session.Sound) ?_ fun p e hp _ => sound_step hp e
  rintro p ⟨b, t, rfl⟩
  refine ⟨?_, ?_, ?_, rfl, fun _ => ⟨rfl, rfl, rfl, rfl, rfl, rfl, rfl⟩⟩
  · intro v hv
    cases hv
  · intro v hv
    cases hv
  · intro v hv
    cases hv

end Proc

theorem link_authenticated {p : Proc} (h : Proc.machine.Reach (fun _ _ => True) p) : p.mu = none →
    (∀ v, p.session.car = some v → v.conn.id ∈ p.session.started ∧ p.session.conn = some v.conn ∧ p.session.Tapped v.conn) ∧
      (p.session.car = none → p.session.Reset) := by
  intro _
  have hs := Proc.sound h
  exact ⟨fun v hv => ⟨hs.started v hv, hs.conn v hv, hs.tapped v hv⟩, hs.reset⟩

/-- `navigate` has connected. -/
theorem link_authenticated_after_navigate :
    let p := Proc.machine.run (Proc.start .bluez 90000) [.lock .navigate, .done {}]
    ∃ v, p.session.car = some v ∧ v.conn.id ∈ p.session.started ∧ p.session.conn = some v.conn ∧ p.session.Tapped v.conn := by
  intro p
  have h0 : Proc.machine.Reach (fun _ _ => True) (Proc.start .bluez 90000) := .init ⟨.bluez, 90000, rfl⟩
  have hr := h0.run [.lock .navigate, .done {}] (.of_forall (fun _ _ => trivial) _ _)
  have hv : p.session.car = some ⟨0, true⟩ := by decide
  exact ⟨_, hv, (link_authenticated hr rfl).1 _ hv⟩

end ElectricEel.Guarded
