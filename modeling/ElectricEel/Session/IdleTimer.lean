/-
  ElectricEel.Session.IdleTimer — the idle timer's discipline (main.go
  `resetIdleTimerLocked`, `dispatch`; navigate.go `dispatchNavigate`).

  resetIdleTimerLocked is to be called after every command, successful or not. A navigate
  whose vehicle call fails, and a command whose StartSession fails on the live connection,
  answer without it. Stop does not recall a callback that waits for the lock, and the
  callback does not ask whether its timer is still the session's. presence-start leaves an
  armed timer armed. So a connection may stay up with no timer (`link_forgotten`), and a
  callback may end one that was used a moment ago (`link_cut_short`).

  Proved: where none of this happens (`Disciplined`), a connection that is up outside
  presence mode has its timer or the callback pending, and a callback ends a connection
  only outside presence mode, with no command on it within idleTimeout, and only one that
  was up when the timer was armed (`idle_timer_disciplined`).
-/
import ElectricEel.Session.LoopExit

namespace ElectricEel.Guarded

open Lib Commands Child

/-! ## What is promised -/

namespace State

/-- The session's timer has not expired, or its callback waits. -/
def Pending (s : State) : Prop := ∃ t, (t ∈ s.armed ∨ t ∈ s.waiting) ∧ s.idleTimer = some t.id

/-- Outside presence mode a connection is going to be released. -/
def Released (s : State) : Prop := s.presenceCancel = none → s.car.isSome = true → s.Pending

end State

/-- Whatever connection the callback finds, it may tear it down. -/
def Proc.Spared (p : Proc) (t : Timer) : Prop :=
  p.mu = none → t ∈ p.session.waiting → ∀ v, p.session.car = some v →
    p.session.presenceCancel = none ∧ (∀ τ, (v.conn.id, τ) ∈ p.session.completed → τ + p.session.idleTimeout ≤ p.session.now) ∧
      t.link = some v.conn.id

/-! ## The condition -/

/-- The section goes by StartSession on the live connection. -/
def State.restarts (s : State) (cmd : Option Cmd) : Bool := s.car.isSome && !withoutSession cmd && sessionDomains cmd != []

namespace Proc

/-- No request fails and leaves the connection up, no stopped loop's prime loses it, and no
    callback waits when presence mode starts; none starts in presence mode, and none with a
    connection up is that of a timer stopped since. -/
def Disciplined (p : Proc) : Event → Prop
  | .expire t => t ∈ p.session.armed → t.deadline ≤ p.session.now → p.session.presenceCancel = none
  | .callback t => p.mu = none → t ∈ p.session.waiting → p.session.car.isSome = true → p.session.idleTimer = some t.id
  | .done r =>
    p.session.presenceCancel = none →
      match p.mu with
      | some (.presenceStart _, _) => p.session.bleBackend = .bluez → p.session.waiting = []
      | some (.command cmd, _) => p.session.restarts (some cmd) = true → r.session = true
      | some (.navigate, _) => p.session.restarts none = true → r.session = true
      | some (.navigateSend, _) => p.session.car.isSome = true → r.ok = true
      | some (.refresh _ _, _) | some (.connect _ _, _) => r.prime ≠ .failed true
      | _ => True
  | _ => True

instance (p : Proc) (e : Event) : Decidable (p.Disciplined e) := by
  unfold Disciplined
  split
  · infer_instance
  · infer_instance
  · refine @instDecidableForall _ _ inferInstance ?_
    split <;> infer_instance
  · infer_instance

end Proc

/-! ## As built -/

/-- `navigate` connects, and the vehicle call fails. -/
theorem link_forgotten : ∃ p : Proc, Proc.machine.Reach (fun _ _ => True) p ∧ p.dispatching = false ∧ ¬ p.session.Released := by
  let es : List Event := [.lock .navigate, .done {}, .lock .navigateSend, .done { ok := false }]
  have h0 : Proc.machine.Reach (fun _ _ => True) (Proc.start .bluez 90000) := .init ⟨.bluez, 90000, rfl⟩
  refine ⟨_, h0.run es (.of_forall (fun _ _ => trivial) _ _), rfl, fun h => ?_⟩
  obtain ⟨t, -, ht⟩ := h rfl rfl
  cases ht

/-- The timer of the first command expires during the second. -/
theorem link_cut_short : ∃ (p : Proc) (t : Timer), Proc.machine.Reach (fun _ _ => True) p ∧ ¬ p.Spared t := by
  let es : List Event := [.lock (.command (.vendor .lock)), .done {}, .tick 89990, .lock (.command (.vendor .lock)), .tick 10, .expire ⟨0, 90000, some 0⟩, .done {}]
  have h0 : Proc.machine.Reach (fun _ _ => True) (Proc.start .bluez 90000) := .init ⟨.bluez, 90000, rfl⟩
  refine ⟨_, ⟨0, 90000, some 0⟩, h0.run es (.of_forall (fun _ _ => trivial) _ _), fun h => ?_⟩
  have := (h rfl (by decide) ⟨⟨0, true⟩⟩ rfl).2.1 90000 (by decide)
  revert this
  decide

/-! ## The timer and the connection -/

namespace State

structure Wound (s : State) : Prop where
  /-- No timer runs for no connection. -/
  idle : s.car = none → s.idleTimer = none
  calm : s.presenceCancel.isSome = true → s.waiting = []
  fresh : ∀ t, t ∈ s.armed ∨ t ∈ s.waiting → t.id < s.timers
  due : ∀ t ∈ s.waiting, t.deadline ≤ s.now
  past : ∀ i τ, (i, τ) ∈ s.completed → τ ≤ s.now

/-- The session's timer was armed on the connection, since its last command. -/
structure Timed (s : State) : Prop extends Wound s where
  link : ∀ t, t ∈ s.armed ∨ t ∈ s.waiting → s.idleTimer = some t.id → ∀ v, s.car = some v → t.link = some v.conn.id
  aged : ∀ t, t ∈ s.armed ∨ t ∈ s.waiting → s.idleTimer = some t.id → ∀ v, s.car = some v → s.presenceCancel = none →
    ∀ τ, (v.conn.id, τ) ∈ s.completed → τ + s.idleTimeout ≤ t.deadline

/-- Timer and connection are as they were. -/
structure Quiet (s t : State) : Prop where
  car : t.car = s.car
  idleTimer : t.idleTimer = s.idleTimer
  armed : t.armed = s.armed
  waiting : t.waiting = s.waiting
  timers : t.timers = s.timers
  completed : t.completed = s.completed
  now : t.now = s.now
  idleTimeout : t.idleTimeout = s.idleTimeout
  presenceCancel : t.presenceCancel = s.presenceCancel

/-- A connection is up that was not. -/
structure Opened (s t : State) : Prop where
  down : s.car = none
  up : t.car.isSome = true
  quiet : Quiet { s with car := t.car } t

theorem Quiet.refl (s : State) : Quiet s s := ⟨rfl, rfl, rfl, rfl, rfl, rfl, rfl, rfl, rfl⟩

theorem Quiet.trans {r s t : State} (h : Quiet r s) (h' : Quiet s t) : Quiet r t :=
  ⟨h'.car.trans h.car, h'.idleTimer.trans h.idleTimer, h'.armed.trans h.armed, h'.waiting.trans h.waiting, h'.timers.trans h.timers,
    h'.completed.trans h.completed, h'.now.trans h.now, h'.idleTimeout.trans h.idleTimeout, h'.presenceCancel.trans h.presenceCancel⟩

theorem Opened.after {r s t : State} (h : Opened s t) (hq : Quiet r s) : Opened r t := by
  refine ⟨hq.car.symm.trans h.down, h.up, Quiet.trans ?_ h.quiet⟩
  exact ⟨rfl, hq.idleTimer, hq.armed, hq.waiting, hq.timers, hq.completed, hq.now, hq.idleTimeout, hq.presenceCancel⟩

theorem Wound.quiet {s t : State} (h : s.Wound) (hq : Quiet s t) : t.Wound := by
  refine ⟨?_, ?_, ?_, ?_, ?_⟩
  · rw [hq.car, hq.idleTimer]
    exact h.idle
  · rw [hq.presenceCancel, hq.waiting]
    exact h.calm
  · rw [hq.armed, hq.waiting, hq.timers]
    exact h.fresh
  · rw [hq.waiting, hq.now]
    exact h.due
  · rw [hq.completed, hq.now]
    exact h.past

theorem Timed.quiet {s t : State} (h : s.Timed) (hq : Quiet s t) : t.Timed := by
  refine ⟨h.toWound.quiet hq, ?_, ?_⟩
  · rw [hq.armed, hq.waiting, hq.idleTimer, hq.car]
    exact h.link
  · rw [hq.armed, hq.waiting, hq.idleTimer, hq.car, hq.presenceCancel, hq.completed, hq.idleTimeout]
    exact h.aged

theorem Released.quiet {s t : State} (h : s.Released) (hq : Quiet s t) : t.Released := by
  unfold Released Pending
  rw [hq.presenceCancel, hq.car, hq.armed, hq.waiting, hq.idleTimer]
  exact h

theorem released_of_down {s : State} (h : s.car = none) : s.Released := by
  intro _ hc
  rw [h] at hc
  cases hc

theorem released_of_presence {s : State} (h : s.presenceCancel.isSome = true) : s.Released := by
  intro hp
  rw [hp] at h
  cases h

/-- Without a timer it does not matter which connection is up. -/
theorem Timed.opened {s t : State} (h : s.Timed) (ho : Opened s t) : t.Timed := by
  have hn := h.idle ho.down
  refine Timed.quiet ?_ ho.quiet
  refine ⟨⟨fun _ => hn, h.calm, h.fresh, h.due, h.past⟩, ?_, ?_⟩
  · intro t _ ht
    rw [show _ = none from hn] at ht
    cases ht
  · intro t _ ht
    rw [show _ = none from hn] at ht
    cases ht

/-! ## Stopping and arming -/

@[simp] theorem stopIdleTimer_idleTimer (s : State) : s.stopIdleTimer.idleTimer = none := by
  unfold stopIdleTimer
  split
  · rfl
  · next h => exact h

theorem stopIdleTimer_armed {s : State} {t : Timer} (h : t ∈ s.stopIdleTimer.armed) : t ∈ s.armed := by
  unfold stopIdleTimer at h
  split at h
  · exact (List.mem_filter.1 h).1
  · exact h

/-- Nothing else of it. -/
theorem stopIdleTimer_quiet (s : State) : Quiet { s with idleTimer := none, armed := s.stopIdleTimer.armed } s.stopIdleTimer := by
  unfold stopIdleTimer
  split
  · constructor <;> rfl
  · next h => exact ⟨rfl, h, rfl, rfl, rfl, rfl, rfl, rfl, rfl⟩

theorem Wound.stopIdleTimer {s : State} (h : s.Wound) : s.stopIdleTimer.Timed := by
  refine Timed.quiet ?_ (stopIdleTimer_quiet s)
  refine ⟨⟨fun _ => rfl, h.calm, ?_, h.due, h.past⟩, ?_, ?_⟩
  · intro t ht
    exact h.fresh t (ht.imp_left stopIdleTimer_armed)
  · intro t _ ht
    cases ht
  · intro t _ ht
    cases ht

theorem stopAuthTap_quiet (s : State) : Quiet s s.stopAuthTap := by
  unfold stopAuthTap
  dsimp only
  split
  · split <;> constructor <;> rfl
  · constructor <;> rfl

theorem Wound.teardown {s : State} (h : s.Wound) : s.teardown.Timed := by
  have ht := h.stopIdleTimer.quiet (stopAuthTap_quiet _)
  have hn : s.stopIdleTimer.stopAuthTap.idleTimer = none := (stopAuthTap_quiet _).idleTimer.trans (stopIdleTimer_idleTimer s)
  refine ⟨⟨fun _ => hn, ht.calm, ht.fresh, ht.due, ht.past⟩, ?_, ?_⟩
  · intro t _ _ v hv
    cases hv
  · intro t _ _ v hv
    cases hv

/-- A connection opened with no timer set is gone again. -/
theorem Opened.teardown {s t : State} (h : Opened s t) (hi : s.idleTimer = none) : Quiet s t.teardown := by
  have hs : t.stopIdleTimer = t := by
    unfold stopIdleTimer
    rw [show t.idleTimer = none from h.quiet.idleTimer.trans hi]
  have hq := h.quiet.trans (stopAuthTap_quiet t)
  unfold State.teardown
  rw [hs]
  exact ⟨h.down.symm, hq.idleTimer, hq.armed, hq.waiting, hq.timers, hq.completed, hq.now, hq.idleTimeout, hq.presenceCancel⟩

/-- The section ends with the timer armed, or in presence mode. -/
theorem Wound.resetIdleTimer {s : State} (h : s.Wound) (hc : s.car.isSome = true ∨ s.presenceCancel.isSome = true) :
    s.resetIdleTimer.Timed ∧ s.resetIdleTimer.Released := by
  have hs := h.stopIdleTimer
  have hq := stopIdleTimer_quiet s
  unfold State.resetIdleTimer
  split
  · next hp => exact ⟨hs, released_of_presence (hq.presenceCancel ▸ hp)⟩
  · next hp =>
    have hup : s.car.isSome = true := hc.resolve_right hp
    -- the new timer's number is that of no other
    have hnew : ∀ {new t : Timer}, new.id = s.stopIdleTimer.timers → (t ∈ new :: s.stopIdleTimer.armed ∨ t ∈ s.stopIdleTimer.waiting) →
        some s.stopIdleTimer.timers = some t.id → t = new := by
      rintro new t - ht hid
      by_cases he : t = new
      · exact he
      · have hlt := hs.fresh t (ht.imp_left fun hm => (List.mem_cons.1 hm).resolve_left he)
        have := Option.some.inj hid
        omega
    refine ⟨⟨⟨?_, ?_, ?_, hs.due, hs.past⟩, ?_, ?_⟩, ?_⟩
    · intro hn
      rw [show _ = none from hq.car.symm.trans hn] at hup
      cases hup
    · intro hon
      exact (hp (hq.presenceCancel ▸ hon)).elim
    · rintro t (ht | ht)
      · rcases List.mem_cons.1 ht with rfl | ht
        · exact Nat.lt_succ_self _
        · exact Nat.lt_succ_of_lt (hs.fresh t (.inl ht))
      · exact Nat.lt_succ_of_lt (hs.fresh t (.inr ht))
    · intro t ht hid v hv
      rw [hnew rfl ht hid]
      simp [show s.stopIdleTimer.car = some v from hv]
    · intro t ht hid v _ _ τ hτ
      rw [hnew rfl ht hid]
      exact Int.add_le_add_right (hs.past _ τ hτ) _
    · intro _ _
      exact ⟨_, .inl List.mem_cons_self, rfl⟩

/-! ## Completion and connecting -/

theorem Wound.complete {s : State} (h : s.Wound) : s.complete.Wound := by
  refine ⟨h.idle, h.calm, h.fresh, h.due, ?_⟩
  intro i τ hm
  rcases List.mem_append.1 hm with hm | hm
  · obtain ⟨v, -, hv⟩ := Option.map_eq_some_iff.1 (Option.mem_toList.1 hm)
    cases hv
    exact Int.le_refl _
  · exact h.past i τ hm

/-- It needs no timer in presence mode or without a connection. -/
theorem Timed.complete {s : State} (h : s.Timed) (hc : s.presenceCancel.isSome = true ∨ s.car = none) : s.complete.Timed ∧ s.complete.Released := by
  refine ⟨⟨h.toWound.complete, h.link, ?_⟩, ?_⟩
  · intro t ht hid v hv hp
    have hoff : s.presenceCancel = none := hp
    have hup : s.car = some v := hv
    rcases hc with hc | hc
    · rw [hoff] at hc
      cases hc
    · rw [hup] at hc
      cases hc
  · rcases hc with hc | hc
    · exact released_of_presence hc
    · exact released_of_down hc

theorem ensureAuthTap_quiet (s : State) : Quiet s s.ensureAuthTap := by
  unfold ensureAuthTap
  split
  · split
    · split <;> constructor <;> rfl
    · exact .refl s
  · exact .refl s

theorem startSession_quiet (s : State) : Quiet s s.startSession := by constructor <;> rfl

theorem ready_quiet (s : State) : Quiet s s.ready := by constructor <;> rfl

theorem ensureBluez_quiet (s : State) (r : Reply) : Quiet s (s.ensureBluez r) := by
  unfold ensureBluez
  split <;> constructor <;> rfl

theorem openTransport_quiet (s : State) (r : Reply) : Quiet s (s.openTransport r).1 := by
  have hb := ensureBluez_quiet s r
  unfold openTransport
  dsimp only
  split
  · split
    · exact hb.trans (by constructor <;> rfl)
    · exact hb
  · split
    · constructor <;> rfl
    · exact .refl s

/-- Open and up, or torn down again. -/
theorem openSession_opened {s : State} (hc : s.car = none) (hi : s.idleTimer = none) (cmd : Option Cmd) (conn : Connector) (r : Reply) :
    ((s.openSession cmd conn r).2 = true ∧ Opened s (s.openSession cmd conn r).1) ∨
      ((s.openSession cmd conn r).2 = false ∧ Quiet s (s.openSession cmd conn r).1) := by
  have hq : Quiet { s with car := some ⟨conn⟩ } { s with car := some ⟨conn⟩, conn := some conn } := by constructor <;> rfl
  have hopen : ∀ {t : State}, Quiet { s with car := some ⟨conn⟩, conn := some conn } t → Opened s t := by
    intro t ht
    have hcar : t.car = some ⟨conn⟩ := ht.car
    refine ⟨hc, by rw [hcar]; rfl, ?_⟩
    rw [hcar]
    exact hq.trans ht
  unfold openSession
  dsimp only
  split
  · exact .inl ⟨rfl, hopen (ready_quiet _)⟩
  · have ht := ensureAuthTap_quiet { s with car := some ⟨conn⟩, conn := some conn }
    split
    · exact .inl ⟨rfl, hopen ((ht.trans (startSession_quiet _)).trans (ready_quiet _))⟩
    · exact .inr ⟨rfl, (hopen ht).teardown hi⟩

theorem ensureConnected_quiet {s : State} (hi : s.car = none → s.idleTimer = none) (cmd : Option Cmd) (target : Option Session.Result)
    (since : Int) (r : Reply) :
    ((s.ensureConnected cmd target since r).2 = true ∧ (s.ensureConnected cmd target since r).1.car.isSome = true ∧
        (Quiet s (s.ensureConnected cmd target since r).1 ∨ Opened s (s.ensureConnected cmd target since r).1)) ∨
      ((s.ensureConnected cmd target since r).2 = false ∧ Quiet s (s.ensureConnected cmd target since r).1 ∧
        (s.car.isSome = true → s.restarts cmd = true ∧ r.session = false)) := by
  unfold ensureConnected
  split
  · next hup =>
    have ht := ensureAuthTap_quiet s
    have hup' : s.ensureAuthTap.car.isSome = true := by rw [ht.car]; exact hup
    split
    · exact .inl ⟨rfl, hup, .inl (.refl s)⟩
    · next hw =>
      split
      · exact .inl ⟨rfl, hup', .inl ht⟩
      · next hd =>
        split
        · exact .inl ⟨rfl, hup', .inl (ht.trans (startSession_quiet _))⟩
        · next hs => exact .inr ⟨rfl, ht, fun _ => ⟨by simp [restarts, hup, hw, hd], Bool.eq_false_iff.2 hs⟩⟩
  · next hup =>
    have hc : s.car = none := by simpa using hup
    have hno : s.car.isSome = true → s.restarts cmd = true ∧ r.session = false := fun h => (hup h).elim
    split
    · exact .inr ⟨rfl, .refl s, hno⟩
    · split
      · exact .inr ⟨rfl, .refl s, hno⟩
      · have ht := openTransport_quiet s r
        split
        · next t he =>
          rw [he] at ht
          exact .inr ⟨rfl, ht, hno⟩
        · next t conn he =>
          rw [he] at ht
          split
          · rcases openSession_opened (ht.car.trans hc) (ht.idleTimer.trans (hi hc)) cmd conn r with ⟨hok, ho⟩ | ⟨hok, hq⟩
            · exact .inl ⟨hok, ho.up, .inr (ho.after ht)⟩
            · exact .inr ⟨hok, ht.trans hq, hno⟩
          · exact .inr ⟨rfl, ht, hno⟩

/-! ## Each section -/

theorem teardown_done {s : State} (h : s.Wound) : s.teardown.Timed ∧ s.teardown.Released := ⟨h.teardown, released_of_down rfl⟩

theorem Wound.off {s : State} (h : s.Wound) : State.Wound { s with presenceCancel := none } := by
  refine ⟨h.idle, ?_, h.fresh, h.due, h.past⟩
  intro hon
  cases hon

theorem stopPresence_quiet (s : State) : Quiet { s with presenceCancel := none } s.stopPresence := by
  unfold stopPresence
  dsimp only
  split
  · next g _ =>
    have hq := stopAuthTap_quiet
      { s with presenceCancel := none, cancelled := g :: s.cancelled, presenceGeneration := s.presenceGeneration + 1 }
    exact ⟨hq.car, hq.idleTimer, hq.armed, hq.waiting, hq.timers, hq.completed, hq.now, hq.idleTimeout, hq.presenceCancel⟩
  · next hp =>
    have hq := stopAuthTap_quiet { s with presenceGeneration := s.presenceGeneration + 1 }
    exact ⟨hq.car, hq.idleTimer, hq.armed, hq.waiting, hq.timers, hq.completed, hq.now, hq.idleTimeout, hq.presenceCancel.trans hp⟩

theorem stop_done {s : State} (h : s.Wound) : s.stopPresence.teardown.Timed ∧ s.stopPresence.teardown.Released :=
  teardown_done (h.off.quiet (stopPresence_quiet s))

/-- A request that ends where connecting failed. -/
theorem failed_timed {s t : State} (h : s.Timed) {cmd : Option Cmd} {r : Reply} (hq : Quiet s t)
    (hlive : s.car.isSome = true → s.restarts cmd = true ∧ r.session = false)
    (ha : s.presenceCancel = none → s.restarts cmd = true → r.session = true) : t.complete.Timed ∧ t.complete.Released := by
  refine (h.quiet hq).complete ?_
  rw [hq.presenceCancel, hq.car]
  cases hp : s.presenceCancel with
  | some g => exact .inl rfl
  | none =>
    refine .inr (Option.not_isSome_iff_eq_none.1 fun hup => ?_)
    obtain ⟨hre, hno⟩ := hlive hup
    rw [ha hp hre] at hno
    cases hno

theorem dispatch_timed {s : State} (h : s.Timed) {cmd : Cmd} {since : Int} {r : Reply}
    (ha : s.presenceCancel = none → s.restarts (some cmd) = true → r.session = true) :
    (s.dispatch cmd since r).Timed ∧ (s.dispatch cmd since r).Released := by
  have hc := ensureConnected_quiet h.idle (some cmd) s.presenceBeaconTarget since r
  unfold dispatch
  split
  · next t he =>
    rw [he] at hc
    rcases hc with ⟨hok, -⟩ | ⟨-, hq, hlive⟩
    · cases hok
    · exact failed_timed h hq hlive ha
  · next t he =>
    rw [he] at hc
    rcases hc with ⟨-, hup, hq⟩ | ⟨hok, -⟩
    · have ht : t.Timed := hq.elim h.quiet h.opened
      split
      · exact teardown_done ht.toWound.complete
      · exact ht.toWound.complete.resetIdleTimer (.inl hup)
    · cases hok

theorem navigateConnect_timed {s : State} (h : s.Timed) {since : Int} {r : Reply}
    (ha : s.presenceCancel = none → s.restarts none = true → r.session = true) :
    (s.navigateConnect since r).1.Timed ∧ ((s.navigateConnect since r).2 = false → (s.navigateConnect since r).1.Released) := by
  have hc := ensureConnected_quiet h.idle none s.presenceBeaconTarget since r
  unfold navigateConnect
  split
  · next t he =>
    rw [he] at hc
    rcases hc with ⟨hok, -⟩ | ⟨-, hq, hlive⟩
    · cases hok
    · have ht := failed_timed h hq hlive ha
      exact ⟨ht.1, fun _ => ht.2⟩
  · next t he =>
    rw [he] at hc
    rcases hc with ⟨-, -, hq⟩ | ⟨hok, -⟩
    · exact ⟨hq.elim h.quiet h.opened, fun hno => by cases hno⟩
    · cases hok

theorem navigateSend_timed {s : State} (h : s.Timed) {r : Reply} (ha : s.presenceCancel = none → s.car.isSome = true → r.ok = true) :
    (s.navigateSend r).Timed ∧ (s.navigateSend r).Released := by
  unfold navigateSend
  split
  · next hc => exact ⟨h, released_of_down (by simpa using hc)⟩
  · next hc =>
    have hup : s.car.isSome = true := by simpa [Option.isSome_iff_ne_none] using hc
    split
    · exact h.toWound.complete.resetIdleTimer (.inl hup)
    · next hok =>
      refine h.complete (.inl (Option.isSome_iff_ne_none.2 fun hp => ?_))
      exact hok (ha hp hup)

theorem prime_quiet (s : State) {r : Reply} (hr : r.prime ≠ .failed true) : Quiet s (s.prime r) := by
  unfold prime
  split
  · exact .refl s
  · split
    · constructor <;> rfl
    · split
      · next dropped he hd =>
        rw [hd] at he
        exact (hr he).elim
      · constructor <;> rfl

theorem prime_presence (s : State) (r : Reply) : (s.prime r).presenceCancel = s.presenceCancel := by
  have ht : s.teardown.presenceCancel = s.presenceCancel := (stopAuthTap_quiet _).presenceCancel.trans (stopIdleTimer_quiet s).presenceCancel
  unfold prime
  split
  · rfl
  · split
    · rfl
    · split
      · exact ht
      · rfl

theorem Wound.prime {s : State} (h : s.Wound) (r : Reply) : (s.prime r).Wound := by
  unfold State.prime
  split
  · exact h
  · split
    · exact h.quiet (by constructor <;> rfl)
    · split
      · exact h.teardown.toWound
      · exact h.quiet (by constructor <;> rfl)

/-- A prime and the timer's reset: the connection is up still, or presence mode is on. -/
theorem primed_timed {s : State} (h : s.Wound) (hup : s.car.isSome = true) {r : Reply} (ha : s.presenceCancel = none → r.prime ≠ .failed true) :
    (s.prime r).resetIdleTimer.Timed ∧ (s.prime r).resetIdleTimer.Released := by
  refine (h.prime r).resetIdleTimer ?_
  cases hp : s.presenceCancel with
  | some g =>
    refine .inr ?_
    rw [prime_presence, hp]
    rfl
  | none =>
    refine .inl ?_
    rw [(prime_quiet s (ha hp)).car]
    exact hup

theorem emitInside_quiet (s : State) : Quiet s s.emitInside := by
  unfold emitInside
  split
  · exact .refl s
  · constructor <;> rfl

theorem refresh_timed {s : State} (h : s.Timed) {now : Int} {r : Reply} (ha : s.presenceCancel = none → r.prime ≠ .failed true) :
    (s.refresh now r).Timed ∧ (s.refresh now r).Released := by
  have hend : ∀ {t : State}, t.Timed ∧ t.Released → t.emitInside.Timed ∧ t.emitInside.Released :=
    fun ht => ⟨ht.1.quiet (emitInside_quiet _), ht.2.quiet (emitInside_quiet _)⟩
  unfold refresh
  refine hend ?_
  split
  · next hup =>
    split
    · exact primed_timed h.toWound hup ha
    · exact h.toWound.resetIdleTimer (.inl hup)
  · next hup => exact ⟨h, released_of_down (by simpa using hup)⟩

theorem presenceConnect_timed {s : State} (h : s.Timed) {target : Option Session.Result} {since : Int} {r : Reply}
    (ha : s.presenceCancel = none → r.prime ≠ .failed true) :
    (s.presenceConnect target since r).Timed ∧ (s.Released → (s.presenceConnect target since r).Released) := by
  have hc := ensureConnected_quiet h.idle none target since r
  unfold presenceConnect
  split
  · next t he =>
    rw [he] at hc
    rcases hc with ⟨hok, -⟩ | ⟨-, hq, -⟩
    · cases hok
    · exact ⟨h.quiet hq, fun hr => hr.quiet hq⟩
  · next t he =>
    rw [he] at hc
    rcases hc with ⟨-, hup, hq⟩ | ⟨hok, -⟩
    · have ht : t.Timed := hq.elim h.quiet h.opened
      have htap := ensureAuthTap_quiet t
      have hp : t.presenceCancel = s.presenceCancel := hq.elim Quiet.presenceCancel fun ho => ho.quiet.presenceCancel
      have hd := @primed_timed t.ensureAuthTap (ht.quiet htap).toWound (by rw [htap.car]; exact hup) r fun hoff => ha (by
        rw [← hp, ← htap.presenceCancel]
        exact hoff)
      exact ⟨hd.1, fun _ => hd.2⟩
    · cases hok

end State

namespace Proc

/-! ## All steps -/

/-- The timer speaks of the connection, and a connection no request is on has one. -/
structure Kept (p : Proc) : Prop where
  timed : p.session.Timed
  released : p.navigating = false → p.session.Released

namespace Kept

variable {p : Proc}

/-- A section that leaves the request loop where it is. -/
theorem aside (h : p.Kept) {q : Proc} (hn : q.navigating = p.navigating)
    (hs : q.session.Timed ∧ (p.session.Released → q.session.Released)) : q.Kept :=
  ⟨hs.1, fun hq => hs.2 (h.released (hn ▸ hq))⟩

theorem of_quiet (h : p.Kept) {q : Proc} (hn : q.navigating = p.navigating) (hq : State.Quiet p.session q.session) : q.Kept :=
  h.aside hn ⟨h.timed.quiet hq, fun hr => hr.quiet hq⟩

/-- Torn down, or left alone. -/
theorem torn (h : p.Kept) {q : Proc} (hn : q.navigating = p.navigating) (hs : q.session = p.session.teardown ∨ q.session = p.session) : q.Kept := by
  refine h.aside hn ?_
  rcases hs with hs | hs <;> rw [hs]
  · have ht := State.teardown_done h.timed.toWound
    exact ⟨ht.1, fun _ => ht.2⟩
  · exact ⟨h.timed, id⟩

theorem presenceStart (h : p.Kept) {cfg : Session.Config} {since : Int} {r : Reply}
    (ha : p.session.presenceCancel = none → p.session.bleBackend = .bluez → p.session.waiting = []) :
    (p.finish (.presenceStart cfg) since r).Kept := by
  refine h.aside rfl ?_
  show (p.session.startPresence cfg).Timed ∧ (_ → (p.session.startPresence cfg).Released)
  unfold State.startPresence
  split
  · next hc =>
    have ht := h.timed
    refine ⟨⟨⟨ht.idle, fun _ => ha hc.2 hc.1, ht.fresh, ht.due, ht.past⟩, ht.link, ?_⟩, fun _ => State.released_of_presence rfl⟩
    intro t _ _ v _ hp
    cases hp
  · exact ⟨h.timed, id⟩

theorem cleanup (h : p.Kept) (hl : p.Looped) {g : Nat} {since : Int} (hm : p.mu = some (.cleanup g, since)) (r : Reply) :
    (p.finish (.cleanup g) since r).Kept := by
  refine h.aside rfl ?_
  show (p.session.endPresence g).Timed ∧ (_ → (p.session.endPresence g).Released)
  unfold State.endPresence
  split
  · next hg =>
    have hdown := (hl.ends hm hg).1
    refine ⟨⟨h.timed.toWound.off, h.timed.link, ?_⟩, fun _ => State.released_of_down hdown⟩
    intro t _ _ v hv
    rw [show _ = none from hdown] at hv
    cases hv
  · exact ⟨h.timed, id⟩

theorem done (h : p.Kept) (hl : p.Looped) {j : Job} {since : Int} (hm : p.mu = some (j, since)) {r : Reply} (ha : p.Disciplined (.done r)) :
    (p.finish j since r).Kept := by
  unfold Disciplined at ha
  rw [hm] at ha
  cases j with
  | command cmd =>
    have ht := @State.dispatch_timed _ h.timed cmd since r ha
    exact ⟨ht.1, fun _ => ht.2⟩
  | keygen force =>
    by_cases hf : (force && r.ok) = true
    · have hs : (p.finish (.keygen force) since r).session = p.session.stopPresence.teardown := if_pos hf
      have ht := State.stop_done h.timed.toWound
      refine h.aside rfl ?_
      rw [hs]
      exact ⟨ht.1, fun _ => ht.2⟩
    · exact h.torn rfl (.inr (if_neg hf))
  | presenceStart cfg => exact h.presenceStart ha
  | presenceStop =>
    have ht := State.stop_done h.timed.toWound
    exact ⟨ht.1, fun _ => ht.2⟩
  | navigate =>
    have ht := @State.navigateConnect_timed _ h.timed since r ha
    exact ⟨ht.1, ht.2⟩
  | navigateSend =>
    have ht := State.navigateSend_timed h.timed ha
    exact ⟨ht.1, fun _ => ht.2⟩
  | responder inbox =>
    refine h.torn rfl ?_
    show p.session.respond inbox r = _ ∨ p.session.respond inbox r = _
    unfold State.respond
    split
    · exact .inr rfl
    · split
      · exact .inl rfl
      · exact .inr rfl
  | openBus g => exact h.of_quiet rfl (State.ensureBluez_quiet p.session r)
  | look g =>
    refine h.torn rfl ?_
    show p.session.look r = _ ∨ p.session.look r = _
    unfold State.look
    split
    · exact .inl rfl
    · exact .inr rfl
  | dropSeen g conn =>
    refine h.torn rfl ?_
    show p.session.dropSeen conn = _ ∨ p.session.dropSeen conn = _
    unfold State.dropSeen
    split
    · exact .inl rfl
    · exact .inr rfl
  | refresh g now =>
    have ht := @State.refresh_timed _ h.timed now r ha
    exact h.aside rfl ⟨ht.1, fun _ => ht.2⟩
  | hear g result => exact h.of_quiet rfl (by constructor <;> rfl)
  | connect g target => exact h.aside rfl (State.presenceConnect_timed h.timed ha)
  | depart g => exact h.torn rfl (.inl rfl)
  | cleanup g => exact h.cleanup hl hm r

theorem tick (h : p.Kept) (ms : Nat) : (p.step (.tick ms)).Kept := by
  have hle : p.session.now ≤ p.session.now + ms := by omega
  have ht := h.timed
  refine ⟨⟨⟨ht.idle, ht.calm, ht.fresh, ?_, ?_⟩, ht.link, ht.aged⟩, h.released⟩
  · intro t hm
    exact Int.le_trans (ht.due t hm) hle
  · intro i τ hm
    exact Int.le_trans (ht.past i τ hm) hle

theorem expire (h : p.Kept) {t : Timer} (ha : p.Disciplined (.expire t)) : (p.step (.expire t)).Kept := by
  show Kept (if _ then _ else _)
  split
  · next he =>
    have ht := h.timed
    have hback : ∀ {t' : Timer}, t' ∈ p.session.armed.erase t ∨ t' ∈ t :: p.session.waiting → t' ∈ p.session.armed ∨ t' ∈ p.session.waiting := by
      rintro t' (hm | hm)
      · exact .inl (List.mem_of_mem_erase hm)
      · rcases List.mem_cons.1 hm with rfl | hm
        · exact .inl he.1
        · exact .inr hm
    refine ⟨⟨⟨ht.idle, ?_, fun t' hm => ht.fresh t' (hback hm), ?_, ht.past⟩, fun t' hm => ht.link t' (hback hm),
      fun t' hm => ht.aged t' (hback hm)⟩, ?_⟩
    · intro hon
      rw [show _ = none from ha he.1 he.2] at hon
      cases hon
    · intro t' hm
      rcases List.mem_cons.1 hm with rfl | hm
      · exact he.2
      · exact ht.due t' hm
    · intro hn hoff hup
      obtain ⟨t', hm, hid⟩ := h.released hn hoff hup
      refine ⟨t', ?_, hid⟩
      by_cases heq : t' = t
      · exact .inr (heq ▸ List.mem_cons_self)
      · rcases hm with hm | hm
        · exact .inl ((List.mem_erase_of_ne heq).2 hm)
        · exact .inr (List.mem_cons_of_mem _ hm)
  · exact h

theorem callback (h : p.Kept) (t : Timer) : (p.step (.callback t)).Kept := by
  show Kept (if _ then _ else _)
  split
  · have ht := h.timed
    have hw : State.Wound { p.session with waiting := p.session.waiting.erase t } := by
      refine ⟨ht.idle, ?_, ?_, ?_, ht.past⟩
      · intro hon
        show p.session.waiting.erase t = []
        rw [ht.calm hon]
        rfl
      · intro t' hm
        exact ht.fresh t' (hm.imp_right List.mem_of_mem_erase)
      · intro t' hm
        exact ht.due t' (List.mem_of_mem_erase hm)
    have hd := State.teardown_done hw
    exact ⟨hd.1, fun _ => hd.2⟩
  · exact h

theorem step (h : p.Kept) (hl : p.Looped) {e : Event} (ha : p.Disciplined e) : (p.step e).Kept := by
  cases e with
  | tick ms => exact h.tick ms
  | expire t => exact h.expire ha
  | callback t => exact h.callback t
  | lock j =>
    show Kept (if _ then _ else _)
    split
    · exact ⟨h.timed, h.released⟩
    · exact h
  | done r =>
    unfold Proc.step
    dsimp only
    split
    · next j since hm => exact h.done hl hm ha
    · exact h
  | enter g =>
    show Kept (if _ then _ else _)
    split
    · exact ⟨h.timed, h.released⟩
    · exact h
  | exit g =>
    show Kept (if _ then _ else _)
    split
    · exact ⟨h.timed, h.released⟩
    · exact h

end Kept

theorem kept {p : Proc} (h : machine.Reach Disciplined p) : p.Kept := by
  refine Machine.Reach.inv_of (J := Looped) (I := Kept) (fun p hp => looped hp) ?_ (fun p e hl hp ha => hp.step hl ha) h
  rintro p ⟨b, t, rfl⟩
  refine ⟨⟨⟨fun _ => rfl, fun _ => rfl, ?_, ?_, ?_⟩, ?_, ?_⟩, fun _ => State.released_of_down rfl⟩
  · rintro t (ht | ht) <;> cases ht
  · intro t ht
    cases ht
  · intro i τ hm
    cases hm
  · intro t _ _ v hv
    cases hv
  · intro t _ _ v hv
    cases hv

theorem navigating_of_dispatching {p : Proc} (h : p.dispatching = false) : p.navigating = false := by
  unfold dispatching at h
  exact (Bool.or_eq_false_iff.1 h).1

end Proc

/-! ## All runs -/

theorem idle_timer_disciplined {p : Proc} (h : Proc.machine.Reach Proc.Disciplined p) :
    (p.dispatching = false → p.session.Released) ∧ ∀ t, p.Disciplined (.callback t) → p.Spared t := by
  have hk := Proc.kept h
  refine ⟨fun hd => hk.released (Proc.navigating_of_dispatching hd), fun t ha hm hw v hv => ?_⟩
  have hid : p.session.idleTimer = some t.id := ha hm hw (by rw [hv]; rfl)
  have hoff : p.session.presenceCancel = none := by
    rw [← Option.not_isSome_iff_eq_none]
    intro hon
    rw [hk.timed.calm hon] at hw
    cases hw
  refine ⟨hoff, fun τ hτ => ?_, hk.timed.link t (.inr hw) hid v hv⟩
  exact Int.le_trans (hk.timed.aged t (.inr hw) hid v hv hoff τ hτ) (hk.timed.due t hw)

/-- A command, and nothing for 90 s; the callback is about to take the lock. -/
theorem idle_timer_disciplined_after_a_command :
    let p := Proc.machine.run (Proc.start .bluez 90000)
      [.lock (.command (.vendor .lock)), .done {}, .tick 90000, .expire ⟨0, 90000, some 0⟩]
    p.session.Released ∧ p.session.presenceCancel = none ∧ (∀ τ, (0, τ) ∈ p.session.completed → τ + 90000 ≤ p.session.now) := by
  intro p
  have h0 : Proc.machine.Reach Proc.Disciplined (Proc.start .bluez 90000) := .init ⟨.bluez, 90000, rfl⟩
  have hr := h0.run [.lock (.command (.vendor .lock)), .done {}, .tick 90000, .expire ⟨0, 90000, some 0⟩] (by decide)
  have hd := idle_timer_disciplined hr
  have hs := hd.2 ⟨0, 90000, some 0⟩ (by decide) rfl (by decide) ⟨⟨0, true⟩⟩ rfl
  exact ⟨hd.1 rfl, hs.1, hs.2.1⟩

end ElectricEel.Guarded
