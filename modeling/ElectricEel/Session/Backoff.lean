/-
  ElectricEel.Session.Backoff — the quiet periods between presence connects (main.go
  `scheduleConnectBackoffLocked`, `clearConnectBackoffLocked`, `connectBackoffActive`, the
  connect round of `runPresenceWatcher`).

  A round that fails schedules a quiet period, twice the one before it, up to a minute; one
  that succeeds, a departure and presence-stop clear it. But a round clears it as soon as
  ensureConnectedLocked has succeeded, and the link may still be lost while VCSEC is primed:
  such a round starts the doubling over (`backoff_starts_over`).

  A row is the rounds that failed since the last one that succeeded, the last departure and
  the last presence-stop, of whichever loop; it is kept beside the process.

  Proved: what a step does to the backoff (`step_turn`), and that the quiet period after the
  k-th failure of a row is min(2^(k-1) s, 60 s), and no loop that set one connects before it
  is over, in exactly those runs in which only the first round of a row loses its link while
  priming (`backoff_escalates_iff`).
-/
import ElectricEel.Session.Loops
import Mathlib.Algebra.Order.Ring.Int

namespace ElectricEel.Session

open Lib Lib.Protowire Commands Wire Child

/-! ## What a row of failures is -/

/-- The loop in whose connect round `mu` is held. -/
def Locked.round : Locked → Option Nat
  | dial c _ | dialling c _ | handshake c _ _ => c.presence
  | prime g _ connecting => if connecting then some g else none
  | execute _ | send _ | watch _ => none

/-- `mu` is held to prime VCSEC after a connect. -/
def Locked.primes : Locked → Bool
  | prime _ _ connecting => connecting
  | _ => false

namespace Proc

/-- Whether connErr is nil, where the step from `p` to `q` ends loop `g`'s connect round. -/
def ended (p q : Proc) (g : Nat) : Option Bool :=
  if (p.loops g).pc.connects && !(q.loops g).pc.connects then
    match (q.loops g).pc with
    | .tell .presenceNear _ => some true
    | .tell .presenceError _ => some false
    | _ => none
  else none

/-- A departure's section, or presence-stop. -/
def clears (p : Proc) : Event → Bool
  | .loop g _ => (p.loops g).pc == .depart && p.mu.isNone
  | .stop => p.mu.isNone
  | _ => false

/-- A connect round primes VCSEC. -/
def priming (p : Proc) : Bool := p.mu.any Locked.primes

/-- The link is lost while a connect round primes VCSEC. -/
def losesLink (p : Proc) : Event → Bool
  | .locked (.failed true) => p.priming
  | _ => false

end Proc

/-- After the k-th failure of a row. -/
def quietPeriod (k : Nat) : Int := min (2 ^ (k - 1) * 1000) 60000

/-- The rounds failed in a row, and for each loop when its last one failed, and as which of the row. -/
structure Row where
  failures : Nat := 0
  last : Nat → Option (Int × Nat) := fun _ => none

def Row.fail (row : Row) (g : Nat) (now : Int) : Row :=
  { failures := row.failures + 1, last := upd row.last g (some (now, row.failures + 1)) }

variable (decoders : Decoders)

def Row.record (row : Row) (p : Proc) (e : Event) : Row :=
  let q := p.step decoders e
  if p.clears e then {}
  else
    match e.actor p with
    | some g =>
      match p.ended q g with
      | some true => {}
      | some false => row.fail g q.session.now
      | none => row
    | none => row

/-- Runs from the start of the process, with the row so far. -/
def rows : Machine (Proc × Row) Event := (Proc.machine decoders).withHistory (fun _ row => row = {}) (Row.record decoders)

/-- A failure sets the quiet period of its place in the row; a loop connects after the one it has set. -/
structure Escalates (x : Proc × Row) (e : Event) : Prop where
  quiet : ∀ g, e.actor x.1 = some g → x.1.ended (x.1.step decoders e) g = some false →
    (x.1.step decoders e).session.connectBackoffUntil = some ((x.1.step decoders e).session.now + quietPeriod (x.2.failures + 1))
  gate : ∀ g c t k, e = .loop g c → x.1.mu = none → (∃ target, (x.1.loops g).pc = .connect target) → x.2.last g = some (t, k) →
    t + quietPeriod k ≤ x.1.session.now

/-- Only the first round of a row loses its link while priming. -/
def FirstLoses (x : Proc × Row) (e : Event) : Prop := x.1.losesLink e = true → x.2.failures = 0

/-! ## What leaves the backoff alone -/

namespace State

/-- The backoff is the same; the clock may go on. -/
structure Paced (s t : State) : Prop where
  backoff : t.connectBackoff = s.connectBackoff
  deadline : t.connectBackoffUntil = s.connectBackoffUntil
  now : s.now ≤ t.now

namespace Paced

theorem of_eq {s t : State} (hb : t.connectBackoff = s.connectBackoff) (ho : t.connectBackoffUntil = s.connectBackoffUntil)
    (hn : t.now = s.now) : Paced s t :=
  ⟨hb, ho, Int.le_of_eq hn.symm⟩

theorem refl (s : State) : Paced s s := .of_eq rfl rfl rfl

theorem trans {r s t : State} (h : Paced r s) (h' : Paced s t) : Paced r t :=
  ⟨h'.backoff.trans h.backoff, h'.deadline.trans h.deadline, Int.le_trans h.now h'.now⟩

theorem note (s : State) (h : Happened) : Paced s (s.note h) := .of_eq rfl rfl rfl

end Paced

theorem teardown_paced (s : State) : Paced s s.teardown := by
  unfold teardown
  dsimp only
  split <;> exact .of_eq rfl rfl rfl

theorem dropLink_paced (s : State) : Paced s s.dropLink := by
  refine (teardown_paced s).trans ?_
  unfold dropLink emitPresenceDisconnected
  split
  · exact .note _ _
  · exact .refl _

theorem ensureAuthTap_paced (s : State) (parent : Option Nat) : Paced s (s.ensureAuthTap parent) := by
  unfold ensureAuthTap
  split
  · split <;> exact .of_eq rfl rfl rfl
  · exact .refl s

theorem primeEnd_paced (s : State) (link : Nat) (r : PrimeReply) : Paced s (s.primeEnd link r) := by
  cases r with
  | status presence => exact .of_eq rfl rfl rfl
  | failed dropped =>
    cases dropped with
    | true => exact (Paced.note s _).trans (dropLink_paced _)
    | false => exact .note s _

theorem emitInside_paced (s : State) : Paced s s.emitInside := by
  unfold emitInside
  split
  · split <;> exact .of_eq rfl rfl rfl
  · exact .refl s

theorem enterConnect_paced (s : State) (cmd : Option Cmd) (target : Option Result) (key : Bool) :
    Paced s (s.enterConnect cmd target key).1 := by
  unfold enterConnect
  split
  · split
    · exact .refl s
    · split
      · exact ensureAuthTap_paced s none
      · exact (ensureAuthTap_paced s none).trans (.note _ _)
  · split
    · exact .refl s
    · split <;> exact .refl s

theorem linkUp_paced (s : State) (cmd : Option Cmd) : Paced s (s.linkUp cmd).1 := by
  unfold linkUp
  dsimp only
  split
  · exact .of_eq rfl rfl rfl
  · refine .trans ?_ (.note _ _)
    have hup : Paced s ({ s with car := some s.links, links := s.links + 1 }.note (.connected s.links)) := .of_eq rfl rfl rfl
    exact hup.trans (ensureAuthTap_paced _ none)

end State

/-! ## What a step does to the backoff -/

/-- Whose connect round `mu` is held in, is in it. -/
def Proc.Engaged (p : Proc) : Prop := ∀ g, p.mu.bind Locked.round = some g → (p.loops g).pc.connects = true

/-- Where the clocks and the connect rounds go in a step: into one past the gate only. -/
structure Passes (p q : Proc) : Prop where
  now : p.session.now ≤ q.session.now
  clock : ∀ g, (q.loops g).now = (p.loops g).now ∨ (q.loops g).now = 0 ∨ (q.loops g).now = p.session.now
  connects : ∀ g, (q.loops g).pc.connects = true → (q.loops g).now = (p.loops g).now ∧
    ((p.loops g).pc.connects = true ∨ p.mu = none ∧ p.session.connectBackoffActive (p.loops g).now = false)
  engaged : q.Engaged

/-- What a step does to the backoff and to the row. -/
inductive Turn (p : Proc) (e : Event) : Proc → Prop
  | still {q : Proc} : p.session.Paced q.session → q.priming = p.priming → p.clears e = false → p.losesLink e = false →
      (∀ g, e.actor p = some g → p.ended q g = none) → Turn p e q
  | primes {q : Proc} : q.session.connectBackoffUntil = none → q.session.connectBackoff = 0 → p.priming = false → q.priming = true →
      p.clears e = false → (∀ g, e.actor p = some g → p.ended q g = none) → Turn p e q
  | fails {q : Proc} {g : Nat} {s : State} : p.session.Paced s → q.session = s.scheduleConnectBackoff → q.priming = false →
      p.clears e = false → p.losesLink e = p.priming → e.actor p = some g → p.ended q g = some false → Turn p e q
  | succeeds {q : Proc} {g : Nat} : p.session.Paced q.session → p.priming = true → q.priming = false → p.clears e = false →
      p.losesLink e = false → e.actor p = some g → p.ended q g = some true → Turn p e q
  | breaks {q : Proc} : q.session.connectBackoffUntil = none → q.session.connectBackoff = 0 → q.priming = false →
      p.clears e = true → p.losesLink e = false → (∀ g, e.actor p = some g → p.ended q g = none) → Turn p e q

namespace Passes

variable {p q : Proc} {g : Nat} {l : Loop}

theorem same (hl : q.loops = p.loops) (hn : p.session.now ≤ q.session.now)
    (hm : ∀ i, q.mu.bind Locked.round = some i → (p.loops i).pc.connects = true) : Passes p q := by
  refine ⟨hn, fun i => .inl (by rw [hl]), fun i hc => ?_, fun i hi => ?_⟩
  · rw [hl] at hc ⊢
    exact ⟨rfl, .inl hc⟩
  · rw [hl]
    exact hm i hi

theorem put (hl : q.loops = upd p.loops g l) (hn : p.session.now ≤ q.session.now)
    (hc : l.now = (p.loops g).now ∨ l.now = 0 ∨ l.now = p.session.now)
    (hpc : l.pc.connects = true → l.now = (p.loops g).now ∧
      ((p.loops g).pc.connects = true ∨ p.mu = none ∧ p.session.connectBackoffActive (p.loops g).now = false))
    (hm : ∀ i, q.mu.bind Locked.round = some i → (upd p.loops g l i).pc.connects = true) : Passes p q := by
  refine ⟨hn, fun i => ?_, fun i hi => ?_, fun i hi => ?_⟩
  all_goals rw [hl] at *
  · by_cases hg : i = g
    · subst hg
      rw [upd_same]
      exact hc
    · rw [upd_ne _ _ hg]
      exact .inl rfl
  · by_cases hg : i = g
    · subst hg
      rw [upd_same] at hi ⊢
      exact hpc hi
    · rw [upd_ne _ _ hg] at hi ⊢
      exact ⟨rfl, .inl hi⟩
  · exact hm i hi

/-- To a place outside the connect round; `mu` is in nobody's. -/
theorem out (hl : q.loops = upd p.loops g l) (hn : p.session.now ≤ q.session.now) (hc : l.now = (p.loops g).now)
    (hpc : l.pc.connects = false) (hm : q.mu = none) : Passes p q := by
  refine put hl hn (.inl hc) ?_ ?_
  · rw [hpc]
    intro h
    cases h
  · rw [hm]
    intro i h
    cases h

/-- As much in a connect round as before. -/
theorem keep (he : p.Engaged) (hl : q.loops = upd p.loops g l) (hn : p.session.now ≤ q.session.now)
    (hc : l.now = (p.loops g).now ∨ l.now = 0 ∨ l.now = p.session.now) (hpc : l.pc.connects = (p.loops g).pc.connects)
    (hcn : l.pc.connects = true → l.now = (p.loops g).now) (hm : q.mu = p.mu) : Passes p q := by
  refine put hl hn hc (fun h => ⟨hcn h, .inl (hpc.symm.trans h)⟩) ?_
  rw [hm]
  intro i hi
  by_cases hg : i = g
  · subst hg
    rw [upd_same, hpc]
    exact he i hi
  · rw [upd_ne _ _ hg]
    exact he i hi

end Passes

namespace Proc

@[simp] theorem setLoop_loops_self (p : Proc) (g : Nat) (l : Loop) : (p.setLoop g l).loops g = l := upd_same _ _ _

@[simp] theorem goto_pc (p : Proc) (g : Nat) (pc : Pc) : ((p.goto g pc).loops g).pc = pc := congrArg Loop.pc (setLoop_loops_self _ _ _)

theorem ended_same {p q : Proc} {g : Nat} (h : (q.loops g).pc.connects = (p.loops g).pc.connects) : p.ended q g = none := by
  unfold ended
  rw [h, Bool.and_not_self]
  rfl

theorem ended_of_not {p q : Proc} {g : Nat} (h : (p.loops g).pc.connects = false) : p.ended q g = none := by
  unfold ended
  rw [h, Bool.false_and]
  rfl

theorem ended_failed {p q : Proc} {g : Nat} (h : (p.loops g).pc.connects = true) (hq : (q.loops g).pc = .tell .presenceError .check) :
    p.ended q g = some false := by
  unfold ended
  rw [h, hq]
  rfl

theorem ended_near {p q : Proc} {g : Nat} (h : (p.loops g).pc.connects = true) (hq : (q.loops g).pc = .tell .presenceNear .settle) :
    p.ended q g = some true := by
  unfold ended
  rw [h, hq]
  rfl

theorem ended_untold {p q : Proc} {g : Nat} (h : ∀ kind next, (q.loops g).pc ≠ .tell kind next) : p.ended q g = none := by
  unfold ended
  split
  · split
    · next hpc => exact (h _ _ hpc).elim
    · next hpc => exact (h _ _ hpc).elim
    · rfl
  · rfl

theorem ended_out {p q : Proc} {g : Nat} {ok : Bool} (h : p.ended q g = some ok) : (q.loops g).pc.connects = false := by
  unfold ended at h
  split at h
  · next hin =>
    rw [Bool.and_eq_true] at hin
    simpa using hin.2
  · cases h

theorem losesLink_of_not {p : Proc} (h : p.priming = false) (e : Event) : p.losesLink e = false := by
  unfold losesLink
  split
  · exact h
  · rfl

theorem priming_free {p : Proc} (h : p.mu = none) : p.priming = false := by
  rw [priming, h]
  rfl

/-! ### The connect round -/

section

variable {p q : Proc} {e : Event}

/-- The loops stay where they are. -/
theorem rests_turn (hl : q.loops = p.loops) (hs : p.session.Paced q.session) (hp : q.priming = p.priming) (hc : p.clears e = false)
    (hlose : p.losesLink e = false) (hm : ∀ g, q.mu.bind Locked.round = some g → (p.loops g).pc.connects = true) :
    Passes p q ∧ Turn p e q := by
  refine ⟨.same hl hs.now hm, .still hs hp hc hlose fun g _ => ended_same ?_⟩
  rw [hl]

/-- The round fails where it stands. -/
theorem connectFailed_turn {g : Nat} (hg : (p.loops g).pc.connects = true) (hl : q.loops = p.loops) (hs : p.session.Paced q.session)
    (ha : e.actor p = some g) (hc : p.clears e = false) (hp : p.losesLink e = p.priming) :
    Passes p (q.unlock.connectFailed g) ∧ Turn p e (q.unlock.connectFailed g) := by
  have hat : (q.unlock.connectFailed g).loops g = { p.loops g with near := false, consecNear := 0, pc := .tell .presenceError .check } := by
    show upd q.loops g _ g = _
    rw [upd_same, ← hl]
    rfl
  constructor
  · refine .out (l := { p.loops g with near := false, consecNear := 0, pc := .tell .presenceError .check }) ?_ hs.now rfl rfl rfl
    show upd q.loops g _ = _
    rw [← hl]
    rfl
  · refine .fails hs rfl rfl hc hp ha (ended_failed hg ?_)
    rw [hat]

theorem connected_turn {c : Caller} (hr : ∀ g, c.presence = some g → (p.loops g).pc.connects = true) (hl : q.loops = p.loops)
    (hs : p.session.Paced q.session) (hp : p.priming = false) (ha : e.actor p = c.presence) (hc : p.clears e = false) (ok : Bool) :
    Passes p (q.connected c ok) ∧ Turn p e (q.connected c ok) := by
  have hlose := losesLink_of_not hp e
  unfold connected
  split
  · -- a command goes on to its exchange
    exact rests_turn hl (hs.trans (.note _ _)) hp.symm hc hlose fun _ hi => by cases hi
  · -- the round primes VCSEC
    next g link hcar =>
    constructor
    · refine .same hl (Int.le_trans hs.now (State.ensureAuthTap_paced _ _).now) fun i hi => ?_
      cases hi
      exact hr g rfl
    · have hback := State.ensureAuthTap_paced q.session.clearConnectBackoff (some g)
      refine .primes hback.deadline hback.backoff hp rfl hc fun i _ => ended_same ?_
      exact congrArg (fun loops => (loops i).pc.connects) hl
  · next g _ => exact connectFailed_turn (hr g rfl) hl hs ha hc (hlose.trans hp.symm)
  · exact rests_turn hl hs hp.symm hc hlose fun _ hi => by cases hi

theorem ensureConnected_turn {c : Caller} (hr : ∀ g, c.presence = some g → (p.loops g).pc.connects = true) (hm : p.mu = none)
    (ha : e.actor p = c.presence) (hc : p.clears e = false) (target : Option Result) (key : Bool) :
    Passes p (p.ensureConnected c target key) ∧ Turn p e (p.ensureConnected c target key) := by
  have hp := priming_free hm
  have hlose := losesLink_of_not hp e
  have henter := State.enterConnect_paced p.session c.cmd target key
  unfold ensureConnected
  split
  · next s ok heq =>
    rw [heq] at henter
    exact connected_turn (q := { p with session := s }) hr rfl henter hp ha hc _
  · next heq =>
    rw [heq] at henter
    exact rests_turn rfl henter hp.symm hc hlose hr
  · next heq =>
    rw [heq] at henter
    split
    · split
      · refine rests_turn rfl (.refl _) rfl hc hlose fun g hg => ?_
        rw [hm] at hg
        cases hg
      · exact rests_turn rfl (henter.trans (.of_eq rfl rfl rfl)) hp.symm hc hlose hr
    · exact rests_turn rfl henter hp.symm hc hlose hr

theorem primed_turn {g link : Nat} {connecting : Bool} (he : p.Engaged) (hm : p.mu = some (.prime g link connecting)) {r : State.PrimeReply}
    (ha : e.actor p = some g) (hc : p.clears e = false)
    (hlost : connecting = true → p.losesLink e = (p.session.primeEnd link r).car.isNone) :
    Passes p ((p.onSession (·.primeEnd link r)).primed g connecting) ∧
      Turn p e ((p.onSession (·.primeEnd link r)).primed g connecting) := by
  have hs := State.primeEnd_paced p.session link r
  have hpr : p.priming = connecting := by rw [priming, hm, Option.any_some, Locked.primes]
  unfold primed
  cases connecting with
  | true =>
    have hg : (p.loops g).pc.connects = true := he g (by rw [hm]; rfl)
    have hlost := hlost rfl
    rw [if_pos rfl]
    split
    · next hcar => exact connectFailed_turn hg rfl hs ha hc (hlost.trans (hcar.trans hpr.symm))
    · next hcar =>
      constructor
      · exact .out rfl hs.now rfl rfl rfl
      · refine .succeeds hs hpr rfl hc (hlost.trans (Bool.eq_false_iff.2 hcar)) ha (ended_near hg ?_)
        show (upd p.loops g _ g).pc = _
        rw [upd_same]
  | false =>
    have hs := hs.trans (State.emitInside_paced _)
    rw [if_neg Bool.false_ne_true]
    constructor
    · exact .out rfl hs.now rfl rfl rfl
    · refine .still hs hpr.symm hc (losesLink_of_not hpr e) fun i hi => ?_
      cases ha.symm.trans hi
      refine ended_untold fun kind next h => ?_
      rw [goto_pc] at h
      cases h
end

theorem priming_of {p : Proc} {k : Locked} (hk : p.mu = some k) (hn : k.primes = false) : p.priming = false := by
  rw [priming, hk]
  exact hn

/-- A loop that is not in a connect round. -/
theorem idle_turn {p q : Proc} {e : Event} {g : Nat} {l : Loop} (he : p.Engaged) (hn : (p.loops g).pc.connects = false)
    (hl : q.loops = upd p.loops g l) (hs : p.session.Paced q.session) (hm : q.mu = p.mu ∨ q.mu.bind Locked.round = none ∧ q.priming = p.priming)
    (hc : l.now = (p.loops g).now ∨ l.now = 0 ∨ l.now = p.session.now) (hpc : l.pc.connects = false)
    (ha : e.actor p = some g) (hcl : p.clears e = false) (hlose : p.losesLink e = false) : Passes p q ∧ Turn p e q := by
  have hq : q.priming = p.priming := by
    rcases hm with hm | ⟨_, hm⟩
    · rw [priming, hm, priming]
    · exact hm
  constructor
  · refine .put hl hs.now hc (fun h => ?_) fun i hi => ?_
    · rw [hpc] at h
      cases h
    · rcases hm with hm | ⟨hm, _⟩
      · rw [hm] at hi
        have hin := he i hi
        by_cases hg : i = g
        · subst hg
          rw [hn] at hin
          cases hin
        · rw [upd_ne _ _ hg]
          exact hin
      · rw [hm] at hi
        cases hi
  · refine .still hs hq hcl hlose fun i hi => ?_
    cases ha.symm.trans hi
    exact ended_of_not hn

theorem watched_turn {p : Proc} {g : Nat} {r : Reply} (he : p.Engaged) (hm : p.mu = some (.watch g)) (ok : Bool) :
    Passes p (p.watched g ok) ∧ Turn p (.locked r) (p.watched g ok) := by
  have hact : Event.actor p (.locked r) = some g := by
    rw [Event.actor, hm]
    rfl
  have hp := priming_of hm rfl
  have hidle : ∀ {q : Proc} {l : Loop}, (p.loops g).pc.connects = false → q.loops = upd p.loops g l → p.session.Paced q.session →
      q.mu = none → l.now = (p.loops g).now → l.pc.connects = false → Passes p q ∧ Turn p (.locked r) q := by
    intro q l hn hl hs hq hnow hpc
    refine idle_turn he hn hl hs (.inr ⟨?_, (priming_free hq).trans hp.symm⟩) (.inl hnow) hpc hact rfl (losesLink_of_not hp _)
    rw [hq]
    rfl
  unfold watched
  dsimp only
  split
  · next hpc => exact hidle (congrArg Pc.connects hpc) rfl (.of_eq rfl rfl rfl) rfl rfl rfl
  · next hpc => exact hidle (congrArg Pc.connects hpc) rfl (.refl _) rfl rfl rfl
  · next hpc => exact hidle (congrArg Pc.connects hpc) rfl (.of_eq rfl rfl rfl) rfl rfl rfl
  · next hpc => exact hidle (congrArg Pc.connects hpc) rfl (.refl _) rfl rfl rfl
  · refine rests_turn rfl (.refl _) hp.symm rfl (losesLink_of_not hp _) fun i hi => ?_
    cases hi

theorem stepLocked_turn {p : Proc} (hh : p.Held) (he : p.Engaged) (r : Reply) :
    Passes p (p.stepLocked r) ∧ Turn p (.locked r) (p.stepLocked r) := by
  have hrest : ∀ {k : Locked} {q : Proc}, p.mu = some k → k.primes = false → q.loops = p.loops → p.session.Paced q.session →
      q.priming = false → (∀ g, q.mu.bind Locked.round = some g → k.round = some g) → Passes p q ∧ Turn p (.locked r) q := by
    intro k q hk hn hl hs hq hm
    have hp := priming_of hk hn
    refine rests_turn hl hs (hq.trans hp.symm) rfl (losesLink_of_not hp _) fun g hg => he g ?_
    rw [hk]
    exact hm g hg
  have hconn : ∀ {k : Locked} {c : Caller} {q : Proc} {ok : Bool}, p.mu = some k → k.primes = false → k.presence = c.presence →
      k.round = c.presence → q.loops = p.loops → p.session.Paced q.session →
      Passes p (q.connected c ok) ∧ Turn p (.locked r) (q.connected c ok) := by
    intro k c q ok hk hn hpres hround hl hs
    refine connected_turn (fun g hg => he g ?_) hl hs (priming_of hk hn) ?_ rfl ok
    · rw [hk]
      exact hround.trans hg
    · rw [Event.actor, hk]
      exact hpres
  have hscan : ∀ {k : Locked}, p.mu = some k → k.primes = false →
      Passes p (p.onSession (·.note .startDiscovery)) ∧ Turn p (.locked r) (p.onSession (·.note .startDiscovery)) := by
    intro k hk hn
    refine hrest hk hn rfl (.note _ _) (priming_of hk hn) fun g hg => ?_
    rw [onSession_mu, hk] at hg
    exact hg
  have hactor : ∀ {k : Locked}, p.mu = some k → Event.actor p (.locked r) = k.presence := by
    intro k hk
    rw [Event.actor, hk]
    rfl
  unfold Held at hh
  unfold stepLocked
  split <;> first | (rename_i hm; rw [hm] at hh) | skip
  · exact hscan hm rfl
  · exact hrest hm rfl rfl (.note _ _) rfl fun g hg => hg
  · exact hconn hm rfl rfl rfl rfl (.refl _)
  · exact hrest hm rfl rfl (.note _ _) rfl fun g hg => hg
  · exact hconn hm rfl rfl rfl rfl (.note _ _)
  · -- the transport is up
    next c target =>
    have hup := State.linkUp_paced p.session c.cmd
    dsimp only
    split
    · next heq =>
      rw [heq] at hup
      exact hrest hm rfl rfl hup rfl fun g hg => hg
    · next heq =>
      rw [heq] at hup
      exact hconn (q := { p with session := _ }) hm rfl rfl rfl rfl hup
  · exact hconn hm rfl rfl rfl rfl (.of_eq rfl rfl rfl)
  · exact hconn hm rfl rfl rfl rfl (State.teardown_paced _)
  · exact hconn hm rfl rfl rfl rfl (.refl _)
  · exact hconn hm rfl rfl rfl rfl (.refl _)
  · split
    · exact hrest hm rfl rfl (State.teardown_paced _) rfl fun g hg => by cases hg
    · exact hrest hm rfl rfl (.refl _) rfl fun g hg => by cases hg
  · split
    · exact hrest hm rfl rfl (State.teardown_paced _) rfl fun g hg => by cases hg
    · exact hrest hm rfl rfl (.refl _) rfl fun g hg => by cases hg
  · -- the vehicle answers: the link is still there
    refine primed_turn he hm (hactor hm) rfl fun _ => ?_
    show false = p.session.car.isNone
    rw [hh.1]
    rfl
  · -- it is gone exactly where the error says so
    next dropped =>
    refine primed_turn he hm (hactor hm) rfl fun hc => ?_
    cases dropped with
    | true =>
      have hp : p.losesLink (.locked (.failed true)) = true := by
        show p.priming = true
        rw [priming, hm]
        exact hc
      exact hp.trans (congrArg Option.isNone (State.dropLink_car _)).symm
    | false =>
      show false = p.session.car.isNone
      rw [hh.1]
      rfl
  · exact hrest hm rfl rfl (.refl _) rfl fun g hg => by cases hg
  · split
    · exact hrest hm rfl rfl (State.dropLink_paced _) rfl fun g hg => by cases hg
    · exact hrest hm rfl rfl (.refl _) rfl fun g hg => by cases hg
  · exact hscan hm rfl
  · exact watched_turn he hm _
  · exact watched_turn he hm _
  · -- no such reply where the holder stands
    next hother _ _ _ _ _ =>
    refine rests_turn rfl (.refl _) rfl rfl ?_ he
    unfold losesLink
    split
    · next heq =>
      cases heq
      unfold priming
      cases hm : p.mu with
      | none => rfl
      | some k =>
        cases k with
        | prime g link connecting => exact (hother _ _ _ _ hm rfl).elim
        | _ => rfl
    · rfl

/-! ### A loop's own step -/

theorem clears_loop {p : Proc} {g : Nat} {c : Choice} (h : (p.loops g).pc ≠ .depart) : p.clears (.loop g c) = false := by
  show ((p.loops g).pc == .depart && p.mu.isNone) = false
  rw [beq_eq_false_iff_ne.2 h, Bool.false_and]

theorem loopSection_turn {p q : Proc} {g : Nat} {c : Choice} (hm : p.mu = none) (he : p.Engaged) (h : LoopSection p g c q) :
    Passes p q ∧ Turn p (.loop g c) q := by
  have hp := priming_free hm
  have hfree : p.mu.bind Locked.round = none := by rw [hm, Option.bind_none]
  have hidle : ∀ {pc : Pc} {q : Proc} {l : Loop}, (p.loops g).pc = pc → pc ≠ .depart → pc.connects = false → q.loops = upd p.loops g l →
      p.session.Paced q.session → q.mu.bind Locked.round = none → q.priming = false →
      l.now = (p.loops g).now ∨ l.now = 0 ∨ l.now = p.session.now → l.pc.connects = false →
      Passes p q ∧ Turn p (.loop g c) q := by
    intro pc q l hpc hd hn hl hs hmu hq hc hlpc
    exact idle_turn he (hpc ▸ hn) hl hs (.inr ⟨hmu, hq.trans hp.symm⟩) hc hlpc rfl (clears_loop (hpc ▸ hd)) rfl
  cases h with
  | watch hpc =>
    refine rests_turn rfl (.refl _) hp.symm (clears_loop ?_) rfl fun i hi => ?_
    · rcases hpc with hpc | hpc <;> rw [hpc] <;> decide
    · cases hi
  | entered hpc => exact hidle hpc (by decide) rfl rfl (.of_eq rfl rfl rfl) hfree hp (.inr (.inl rfl)) rfl
  | snapshot hpc =>
    unfold snapshot
    dsimp only
    split
    · exact hidle hpc (by decide) rfl rfl (State.dropLink_paced _) hfree hp (.inl rfl) rfl
    · exact hidle hpc (by decide) rfl rfl (.refl _) hfree hp (.inl rfl) rfl
    · exact hidle hpc (by decide) rfl rfl (.refl _) hfree hp (.inl rfl) rfl
  | dropSeen hpc =>
    have hpc : ∃ pc, (p.loops g).pc = pc ∧ pc ≠ .depart ∧ pc.connects = false := by
      rcases hpc with hpc | hpc
      · exact ⟨_, hpc, by decide, rfl⟩
      · exact ⟨_, hpc, by decide, rfl⟩
    obtain ⟨pc, hpc, hd, hc⟩ := hpc
    unfold dropSeen
    dsimp only
    split
    · exact hidle hpc hd hc rfl (State.dropLink_paced _) hfree hp (.inl rfl) rfl
    · exact hidle hpc hd hc rfl (.refl _) hfree hp (.inl rfl) rfl
  | refresh hpc =>
    unfold refresh
    split
    · split
      · refine rests_turn rfl (.of_eq rfl rfl rfl) hp.symm (clears_loop ?_) rfl fun i hi => ?_
        · rw [hpc]
          decide
        · cases hi
      · exact hidle hpc (by decide) rfl rfl (State.emitInside_paced _) hfree hp (.inl rfl) rfl
    · exact hidle hpc (by decide) rfl rfl (State.emitInside_paced _) hfree hp (.inl rfl) rfl
  | resume hpc _ _ hnow hl => exact hidle hpc (by decide) rfl rfl (.of_eq rfl rfl rfl) hfree hp (.inr (.inr hnow)) (by rw [hl]; rfl)
  | hear hpc =>
    refine hidle hpc (by decide) rfl rfl (.of_eq rfl rfl rfl) hfree hp (.inl rfl) ?_
    dsimp only
    split
    · split <;> rfl
    · split <;> rfl
    · rfl
    · rfl
  | aim hpc hgate =>
    constructor
    · refine .put rfl (Int.le_refl _) (.inl rfl) (fun _ => ⟨rfl, .inr ⟨hm, hgate⟩⟩) fun i hi => ?_
      rw [goto_mu, hm] at hi
      cases hi
    · refine .still (.refl _) rfl (clears_loop (by rw [hpc]; decide)) rfl fun i hi => ?_
      cases hi
      exact ended_of_not (by rw [hpc]; rfl)
  | connect hpc =>
    refine ensureConnected_turn (fun i hi => ?_) hm rfl (clears_loop (by rw [hpc]; nofun)) _ _
    cases hi
    rw [hpc]
    rfl
  | depart hpc =>
    have hclear := State.teardown_paced p.session.clearConnectBackoff
    constructor
    · exact .out rfl hclear.now rfl rfl hm
    · refine .breaks hclear.deadline hclear.backoff hp ?_ rfl fun i hi => ?_
      · show ((p.loops g).pc == .depart && p.mu.isNone) = true
        rw [hpc, hm]
        rfl
      · cases hi
        exact ended_of_not (by rw [hpc]; rfl)
  | leave hpc =>
    refine hidle hpc (by decide) rfl rfl ?_ hfree hp (.inl rfl) rfl
    show State.Paced p.session (p.session.forgetWatcher _)
    unfold State.forgetWatcher
    split <;> exact .of_eq rfl rfl rfl
  | cleanup hpc _ => exact hidle hpc (by decide) rfl rfl (.of_eq rfl rfl rfl) hfree hp (.inl rfl) rfl

theorem stepLoop_depart {p : Proc} {g : Nat} (hpc : (p.loops g).pc = .depart) (hm : p.mu = none) (c : Choice) :
    p.stepLoop g c = (p.onSession fun s => s.clearConnectBackoff.teardown).goto g (.tell .presenceFar .settle) := by
  unfold stepLoop
  dsimp only
  rw [hpc, hm, Option.isSome_none, Bool.and_false, if_neg Bool.false_ne_true]

theorem stepLoop_turn {p : Proc} (he : p.Engaged) (g : Nat) (c : Choice) :
    Passes p (p.stepLoop g c) ∧ Turn p (.loop g c) (p.stepLoop g c) := by
  cases hcl : p.clears (.loop g c) with
  | true =>
    have hdepart : (p.loops g).pc = .depart ∧ p.mu = none := by
      simpa [clears] using hcl
    rw [stepLoop_depart hdepart.1 hdepart.2]
    exact loopSection_turn hdepart.2 he (.depart hdepart.1)
  | false =>
    have hon : ∀ {q : Proc} {l : Loop}, Onward p.session.now (p.loops g) l → q.loops = upd p.loops g l →
        p.session.Paced q.session → q.mu = p.mu → Passes p q ∧ Turn p (.loop g c) q := by
      intro q l ho hl hs hm
      constructor
      · refine .keep he hl hs.now (ho.now.imp_right fun h => .inr h.2) ho.connects (fun hc => ?_) hm
        rcases ho.now with h | ⟨hn, _⟩
        · exact h
        · rw [hn] at hc
          cases hc
      · refine .still hs (by rw [priming, hm, priming]) hcl rfl fun i hi => ended_same ?_
        cases hi
        rw [hl, upd_same]
        exact ho.connects
    have hidle : ∀ {pc pc' : Pc} {q : Proc}, (p.loops g).pc = pc → pc.connects = false → pc'.connects = false →
        q.loops = upd p.loops g { p.loops g with pc := pc' } → p.session.Paced q.session → q.mu = p.mu →
        Passes p q ∧ Turn p (.loop g c) q :=
      fun hpc hn hn' hl hs hm => idle_turn he (hpc ▸ hn) hl hs (.inl hm) (.inl rfl) hn' rfl hcl rfl
    generalize hq : p.stepLoop g c = q
    have hstep := stepLoop_cases p g c
    rw [hq] at hstep
    cases hstep with
    | stay => exact rests_turn rfl (.refl _) rfl hcl rfl he
    | on ho => exact hon ho rfl (.refl _) rfl
    | tell ho => exact hon ho rfl (.note _ _) rfl
    | pause ho => exact hon ho rfl (.of_eq rfl rfl rfl) rfl
    | enter hpc _ _ => exact hidle hpc rfl (show Pc.connects .discovering = false from rfl) rfl (.of_eq rfl rfl rfl) rfl
    | exit hpc hto => rcases hto with rfl | rfl <;> exact hidle hpc rfl rfl rfl (.of_eq rfl rfl rfl) rfl
    | discover hpc hto => rcases hto with rfl | rfl <;> exact hidle hpc rfl rfl rfl (.of_eq rfl rfl rfl) rfl
    | locked _ hm hsec => exact loopSection_turn hm he hsec

/-! ### Everyone's step -/

/-- `mu` stays with its holder, or goes to one that connects nothing. -/
theorem beside_turn {p q : Proc} {e : Event} (he : p.Engaged) (hl : q.loops = p.loops) (hs : p.session.Paced q.session)
    (hm : q.mu = p.mu ∨ p.mu = none ∧ q.mu.bind Locked.round = none ∧ q.priming = false) (hc : p.clears e = false)
    (hlose : p.losesLink e = false) : Passes p q ∧ Turn p e q := by
  rcases hm with hm | ⟨hp, hround, hq⟩
  · refine rests_turn hl hs (by rw [priming, hm, priming]) hc hlose ?_
    rw [hm]
    exact he
  · refine rests_turn hl hs (hq.trans (priming_free hp).symm) hc hlose fun g hg => ?_
    rw [hround] at hg
    cases hg

theorem sectionNow_turn {p : Proc} {e : Event} {f : Proc → Proc} (he : p.Engaged) (hlose : p.losesLink e = false)
    (hc : p.mu ≠ none → p.clears e = false) (hf : p.mu = none → Passes p (f p) ∧ Turn p e (f p)) :
    Passes p (p.sectionNow f) ∧ Turn p e (p.sectionNow f) := by
  unfold sectionNow
  split
  · next hm => exact rests_turn rfl (.refl _) rfl (hc fun h => by rw [h] at hm; cases hm) hlose he
  · next hm => exact hf (by simpa using hm)

variable {decoders}

theorem step_turn {p : Proc} (hh : p.Held) (he : p.Engaged) (e : Event) : Passes p (p.step decoders e) ∧ Turn p e (p.step decoders e) := by
  unfold Proc.step
  cases e with
  | tick ms =>
    refine rests_turn rfl ⟨rfl, rfl, ?_⟩ rfl rfl rfl he
    show p.session.now ≤ p.session.now + ms
    omega
  | loop g c => exact stepLoop_turn he g c
  | locked r => exact stepLocked_turn hh he r
  | command cmd key =>
    refine sectionNow_turn he rfl (fun _ => rfl) fun hm => ?_
    refine ensureConnected_turn (c := .command cmd) (fun g hg => ?_) hm rfl rfl _ _
    cases hg
  | navigate key =>
    refine sectionNow_turn he rfl (fun _ => rfl) fun hm => ?_
    refine ensureConnected_turn (c := .navigate) (fun g hg => ?_) hm rfl rfl _ _
    cases hg
  | navigateSend =>
    refine sectionNow_turn he rfl (fun _ => rfl) fun hm => ?_
    unfold navigateSend
    split
    · exact beside_turn he rfl (.note _ _) (.inr ⟨hm, rfl, rfl⟩) rfl rfl
    · exact beside_turn he rfl (.refl _) (.inl rfl) rfl rfl
  | presenceStart cfg =>
    refine sectionNow_turn he rfl (fun _ => rfl) fun hm => ?_
    unfold startPresence
    split
    · constructor
      · refine .put rfl (Int.le_refl _) (.inr (.inl rfl)) (fun h => ?_) fun i hi => ?_
        · cases h
        · rw [setLoop_mu, onSession_mu, hm] at hi
          cases hi
      · refine .still (.of_eq rfl rfl rfl) rfl rfl rfl fun g hg => ?_
        cases hg
    · exact beside_turn he rfl (.refl _) (.inl rfl) rfl rfl
  | stop =>
    refine sectionNow_turn he rfl (fun h => ?_) fun hm => ?_
    · show p.mu.isNone = false
      cases hm : p.mu with
      | none => exact (h hm).elim
      | some k => rfl
    · have hclear : p.session.stopPresence.connectBackoffUntil = none ∧ p.session.stopPresence.connectBackoff = 0 ∧
          p.session.stopPresence.now = p.session.now := by
        unfold State.stopPresence
        cases p.session.presence <;> exact ⟨rfl, rfl, rfl⟩
      have hdown := State.teardown_paced p.session.stopPresence
      constructor
      · exact .same rfl (hclear.2.2 ▸ hdown.now) he
      · refine .breaks (hdown.deadline.trans hclear.1) (hdown.backoff.trans hclear.2.1) (priming_free hm) ?_ rfl fun g hg => ?_
        · rw [clears, hm]
          rfl
        · cases hg
  | idle =>
    refine sectionNow_turn he rfl (fun _ => rfl) fun hm => ?_
    exact beside_turn he rfl (State.teardown_paced _) (.inl rfl) rfl rfl
  | receive bytes =>
    unfold receive
    dsimp only
    split
    · split
      · exact beside_turn he rfl (.note _ _) (.inl rfl) rfl rfl
      · exact beside_turn he rfl (.refl _) (.inl rfl) rfl rfl
    · exact beside_turn he rfl (.refl _) (.inl rfl) rfl rfl
  | offer link =>
    unfold offer
    dsimp only
    split
    · split <;> exact beside_turn he rfl (.refl _) (.inl rfl) rfl rfl
    · exact beside_turn he rfl (.refl _) (.inl rfl) rfl rfl
  | evict link =>
    unfold evict
    dsimp only
    split <;> exact beside_turn he rfl (.refl _) (.inl rfl) rfl rfl
  | take inbox =>
    unfold take
    dsimp only
    split
    · split
      · split <;> exact beside_turn he rfl (.refl _) (.inl rfl) rfl rfl
      · exact beside_turn he rfl (.refl _) (.inl rfl) rfl rfl
    · exact beside_turn he rfl (.refl _) (.inl rfl) rfl rfl
  | quit inbox =>
    unfold quit
    dsimp only
    split <;> exact beside_turn he rfl (.refl _) (.inl rfl) rfl rfl
  | grab inbox =>
    unfold grab
    dsimp only
    split
    · next hm =>
      split
      · exact beside_turn he rfl (.refl _) (.inl rfl) rfl rfl
      · split
        · exact beside_turn he rfl (.note _ _) (.inr ⟨hm, rfl, rfl⟩) rfl rfl
        · exact beside_turn he rfl (.refl _) (.inl rfl) rfl rfl
    · exact beside_turn he rfl (.refl _) (.inl rfl) rfl rfl
  | tell inbox =>
    unfold tell
    dsimp only
    split
    · exact beside_turn he rfl (.note _ _) (.inl rfl) rfl rfl
    · exact beside_turn he rfl (.refl _) (.inl rfl) rfl rfl

end Proc

/-! ## The quiet periods -/

theorem quietPeriod_one : quietPeriod 1 = 1000 := by decide

theorem two_pow_pos (k : Nat) : (0 : Int) < 2 ^ k := pow_pos (by decide) k

theorem quietPeriod_mono {j k : Nat} (h : j ≤ k) : quietPeriod j ≤ quietPeriod k := by
  have hpow : (2 : Int) ^ (j - 1) ≤ 2 ^ (k - 1) := pow_le_pow_right₀ (by decide) (Nat.sub_le_sub_right h 1)
  unfold quietPeriod
  omega

/-- The doubling. -/
theorem quietPeriod_succ {k : Nat} (h : 0 < k) : quietPeriod (k + 1) = min (max (quietPeriod k * 2) 1000) 60000 := by
  obtain ⟨k, rfl⟩ := Nat.exists_eq_succ_of_ne_zero (Nat.ne_of_gt h)
  have hpos := two_pow_pos k
  unfold quietPeriod
  rw [Nat.add_sub_cancel, Nat.succ_sub_one, Nat.succ_eq_add_one, pow_succ]
  omega

theorem quietPeriod_pos {k : Nat} (h : 1 < k) : 1000 < quietPeriod k := by
  have hle := quietPeriod_mono (j := 2) h
  have htwo : quietPeriod 2 = 2000 := by decide
  omega

/-- `connectBackoff` after a row of failures. -/
def Row.backoff (row : Row) : Int := if row.failures = 0 then 0 else quietPeriod row.failures

theorem schedule_backoff {s : State} {row : Row} (h : s.connectBackoff = row.backoff) :
    s.scheduleConnectBackoff.connectBackoff = quietPeriod (row.failures + 1) ∧
      s.scheduleConnectBackoff.connectBackoffUntil = some (s.now + quietPeriod (row.failures + 1)) := by
  suffices hback : s.scheduleConnectBackoff.connectBackoff = quietPeriod (row.failures + 1) by
    refine ⟨hback, ?_⟩
    rw [← hback]
    rfl
  unfold State.scheduleConnectBackoff
  dsimp only
  rw [h, Row.backoff]
  split
  · next hz =>
    rw [hz]
    decide
  · next hz => exact (quietPeriod_succ (Nat.pos_of_ne_zero hz)).symm

/-! ## The row -/

variable {decoders}

namespace Row

variable {p q : Proc} {e : Event} {row : Row}

theorem record_none (hq : p.step decoders e = q) (hc : p.clears e = false) (hn : ∀ g, e.actor p = some g → p.ended q g = none) :
    row.record decoders p e = row := by
  unfold record
  rw [hq, if_neg (Bool.eq_false_iff.1 hc)]
  cases ha : e.actor p with
  | none => rfl
  | some g =>
    dsimp only
    rw [hn g ha]

theorem record_ended {g : Nat} {ok : Bool} (hq : p.step decoders e = q) (hc : p.clears e = false) (ha : e.actor p = some g)
    (hn : p.ended q g = some ok) : row.record decoders p e = if ok then {} else row.fail g q.session.now := by
  unfold record
  rw [hq, if_neg (Bool.eq_false_iff.1 hc), ha]
  dsimp only
  rw [hn]
  cases ok <;> rfl

theorem record_clears (hc : p.clears e = true) : row.record decoders p e = {} := by
  unfold record
  rw [if_pos hc]

end Row

/-- A loop's last failure of the row `row`, as which of the row, and what it waits for. -/
structure Waits (p : Proc) (row : Row) (g : Nat) (t : Int) (k : Nat) : Prop where
  rank : k ≤ row.failures
  past : t ≤ p.session.now
  quiet : p.priming = false → ∃ u, p.session.connectBackoffUntil = some u ∧ t + quietPeriod k ≤ u
  passed : (p.loops g).pc.connects = true → t + quietPeriod k ≤ (p.loops g).now

/-- While a connect round primes VCSEC the backoff is cleared; else it is the row's. -/
structure Paces (x : Proc × Row) : Prop where
  held : x.1.Held
  engaged : x.1.Engaged
  start : 0 ≤ x.1.session.now
  clock : ∀ g, (x.1.loops g).now ≤ x.1.session.now
  backoff : x.1.session.connectBackoff = if x.1.priming then 0 else x.2.backoff
  waits : ∀ g t k, x.2.last g = some (t, k) → Waits x.1 x.2 g t k

theorem Paces.init (b : Backend) : Paces (Proc.start b, {}) := by
  refine ⟨trivial, fun g hg => ?_, Int.le_refl 0, fun _ => Int.le_refl 0, rfl, fun g t k h => ?_⟩
  · cases hg
  · cases h

/-- A failed loop still waits after a step that keeps the backoff, or sets it to that of a longer row. -/
theorem Waits.step {p q : Proc} {row row' : Row} {g : Nat} {t : Int} {k : Nat} (h : Waits p row g t k) (hpass : Passes p q)
    (hrank : row.failures ≤ row'.failures)
    (hover : q.priming = false → q.session.connectBackoffUntil = p.session.connectBackoffUntil ∧ p.priming = false ∨
      q.session.connectBackoffUntil = some (q.session.now + quietPeriod row'.failures)) : Waits q row' g t k := by
  have hpast := Int.le_trans h.past hpass.now
  have hk := Nat.le_trans h.rank hrank
  refine ⟨hk, hpast, fun hq => ?_, fun hc => ?_⟩
  · rcases hover hq with ⟨hu, hp⟩ | hu
    · rw [hu]
      exact h.quiet hp
    · have hmono := quietPeriod_mono hk
      exact ⟨_, hu, by omega⟩
  · obtain ⟨hnow, hin | ⟨hm, hgate⟩⟩ := hpass.connects g hc
    · rw [hnow]
      exact h.passed hin
    · obtain ⟨u, hu, hle⟩ := h.quiet (Proc.priming_free hm)
      rw [State.connectBackoffActive, hu] at hgate
      have hge : u ≤ (p.loops g).now := by simpa using hgate
      omega

/-- Where a round fails, the backoff is the row's. -/
theorem Paces.level {x : Proc × Row} (h : Paces x) {e : Event} (hf : FirstLoses x e) (hp : x.1.losesLink e = x.1.priming) :
    x.1.session.connectBackoff = x.2.backoff := by
  rw [h.backoff]
  split
  · next hprim => rw [Row.backoff, if_pos (hf (hp.trans hprim))]
  · rfl

theorem Paces.step {x : Proc × Row} (h : Paces x) (e : Event) (hf : FirstLoses x e) : Paces ((rows decoders).step x e) := by
  obtain ⟨p, row⟩ := x
  obtain ⟨hpass, hturn⟩ : Passes p (p.step decoders e) ∧ Turn p e (p.step decoders e) := Proc.step_turn h.held h.engaged e
  have hheld : (p.step decoders e).Held := (Proc.step_moves h.held e).2
  show Paces (p.step decoders e, row.record decoders p e)
  generalize hq : p.step decoders e = q at *
  have hstart : 0 ≤ q.session.now := Int.le_trans h.start hpass.now
  have hclock : ∀ g, (q.loops g).now ≤ q.session.now := by
    intro g
    have hnow := hpass.now
    have hg : (p.loops g).now ≤ p.session.now := h.clock g
    have hzero : 0 ≤ p.session.now := h.start
    rcases hpass.clock g with hc | hc | hc <;> omega
  cases hturn with
  | still hs hp hc _ hn =>
    rw [Row.record_none hq hc hn]
    refine ⟨hheld, hpass.engaged, hstart, hclock, ?_, fun g t k hl => ?_⟩
    · dsimp only
      rw [hs.backoff, hp]
      exact h.backoff
    · exact (h.waits g t k hl).step hpass (Nat.le_refl _) fun hprim => .inl ⟨hs.deadline, hp.symm.trans hprim⟩
  | primes hu hb hp hprim hc hn =>
    rw [Row.record_none hq hc hn]
    refine ⟨hheld, hpass.engaged, hstart, hclock, ?_, fun g t k hl => ?_⟩
    · dsimp only
      rw [hb, hprim, if_pos rfl]
    · refine (h.waits g t k hl).step hpass (Nat.le_refl _) fun hnot => ?_
      rw [hprim] at hnot
      cases hnot
  | @fails g s hs hsession hprim hc hlose ha hn =>
    rw [Row.record_ended hq hc ha hn, if_neg Bool.false_ne_true]
    have hlevel : s.connectBackoff = row.backoff := hs.backoff.trans (h.level hf hlose)
    obtain ⟨hback, hover⟩ := schedule_backoff hlevel
    have hover : q.session.connectBackoffUntil = some (q.session.now + quietPeriod (row.failures + 1)) := by
      rw [hsession]
      exact hover
    refine ⟨hheld, hpass.engaged, hstart, hclock, ?_, fun i t k hl => ?_⟩
    · dsimp only
      rw [hprim, hsession, hback]
      rfl
    · by_cases hi : i = g
      · subst hi
        have hl : some (q.session.now, row.failures + 1) = some (t, k) := (upd_same _ _ _).symm.trans hl
        cases hl
        refine ⟨Nat.le_refl _, Int.le_refl _, fun _ => ⟨_, hover, Int.le_refl _⟩, fun hin => ?_⟩
        rw [Proc.ended_out hn] at hin
        cases hin
      · have hl : row.last i = some (t, k) := by
          rw [← hl]
          exact (upd_ne _ _ hi).symm
        exact (h.waits i t k hl).step hpass (Nat.le_succ _) fun _ => .inr hover
  | succeeds hs hp hprim hc _ ha hn =>
    rw [Row.record_ended hq hc ha hn, if_pos rfl]
    refine ⟨hheld, hpass.engaged, hstart, hclock, ?_, fun g t k hl => ?_⟩
    · dsimp only
      rw [hs.backoff, hprim, if_neg Bool.false_ne_true]
      have hb := h.backoff
      dsimp only at hb
      rw [hb, hp, if_pos rfl]
      rfl
    · cases hl
  | breaks hu hb hprim hc _ _ =>
    rw [Row.record_clears hc]
    refine ⟨hheld, hpass.engaged, hstart, hclock, ?_, fun g t k hl => ?_⟩
    · dsimp only
      rw [hb, hprim]
      rfl
    · cases hl

/-- A step sets and keeps the row's quiet periods exactly if no later round of it loses its link while priming. -/
theorem Paces.escalates_iff {x : Proc × Row} (h : Paces x) (e : Event) : Escalates decoders x e ↔ FirstLoses x e := by
  obtain ⟨p, row⟩ := x
  obtain ⟨_, hturn⟩ : Passes p (p.step decoders e) ∧ Turn p e (p.step decoders e) := Proc.step_turn h.held h.engaged e
  constructor
  · intro hesc hlose
    have hquiet := hesc.quiet
    dsimp only at hlose hquiet ⊢
    generalize p.step decoders e = q at *
    cases hturn with
    | still _ _ _ hnot _ => cases hlose.symm.trans hnot
    | primes _ _ hp _ _ _ => cases hlose.symm.trans (Proc.losesLink_of_not hp e)
    | @fails g s hs hsession _ _ hat ha hn =>
      -- it was cleared before the prime, so the row starts over
      have hzero : s.connectBackoff = Row.backoff {} := by
        rw [hs.backoff, h.backoff, if_pos (hat.symm.trans hlose)]
        rfl
      have hover := (schedule_backoff hzero).2
      rw [← hsession] at hover
      have heq := hover.symm.trans (hquiet g ha hn)
      rw [hsession] at heq
      have hone : quietPeriod 1 = quietPeriod (row.failures + 1) := Int.add_left_cancel (Option.some.inj heq)
      by_contra hrow
      have hlong := quietPeriod_pos (Nat.succ_lt_succ (Nat.pos_of_ne_zero hrow))
      rw [← hone, quietPeriod_one] at hlong
      exact Int.lt_irrefl _ hlong
    | succeeds _ _ _ _ hnot _ _ => cases hlose.symm.trans hnot
    | breaks _ _ _ _ hnot _ => cases hlose.symm.trans hnot
  · intro hf
    refine ⟨fun g ha hn => ?_, fun g c t k he hm htarget hl => ?_⟩
    · dsimp only at ha hn ⊢
      generalize p.step decoders e = q at *
      cases hturn with
      | still _ _ _ _ hnone => cases hn.symm.trans (hnone g ha)
      | primes _ _ _ _ _ hnone => cases hn.symm.trans (hnone g ha)
      | fails hs hsession _ _ hat _ _ =>
        rw [hsession]
        exact (schedule_backoff (hs.backoff.trans (h.level hf hat))).2
      | succeeds _ _ _ _ _ ha' hn' =>
        cases ha.symm.trans ha'
        cases hn.symm.trans hn'
      | breaks _ _ _ _ _ hnone => cases hn.symm.trans (hnone g ha)
    · obtain ⟨target, hpc⟩ := htarget
      have hpassed := (h.waits g t k hl).passed (by rw [hpc]; rfl)
      exact Int.le_trans hpassed (h.clock g)

/-- The quiet period after the k-th failure of a row is min(2^(k-1) s, 60 s), and a loop that set one connects no earlier than at
    its end, in exactly the runs in which no round of a row but its first loses its link while priming VCSEC. -/
theorem backoff_escalates_iff (b : Backend) (es : List Event) :
    (rows decoders).Allowed (Escalates decoders) (Proc.start b, {}) es ↔ (rows decoders).Allowed FirstLoses (Proc.start b, {}) es :=
  Machine.Allowed.congr (I := Paces) (fun _ e h => h.escalates_iff e) (fun _ e h hf => h.step e hf) (Paces.init b) es

/-- From the loop's context check: the vehicle is heard and connected, and the link is lost while VCSEC is primed. -/
def lostRound (g : Nat) : List Event :=
  List.replicate 5 (.loop g .go) ++ [.loop g (.result (some (some (-60))))] ++ List.replicate 3 (.loop g .go) ++
    [.locked .attempt, .locked .ok, .locked .ok, .locked (.failed true)]

/-- Two such rounds, the second once the first one's second is over. -/
def lostTwice : List Event :=
  [.presenceStart defaultPresenceConfig, .loop 1 .go, .loop 1 .go, .loop 1 .go, .locked .ok, .loop 1 .go] ++ lostRound 1 ++
    [.loop 1 .go, .tick 1000] ++ lostRound 1

/-- The second quiet period is a second, not two. -/
theorem backoff_starts_over : ¬ (rows plainDecoders).Allowed (Escalates plainDecoders) (Proc.start .bluez, {}) lostTwice := by
  intro h
  have hlast : lostTwice = lostTwice.dropLast ++ [.locked (.failed true)] := by decide
  rw [hlast] at h
  have hquiet := h.last.quiet 1 (by decide +kernel) (by decide +kernel)
  revert hquiet
  decide +kernel

end ElectricEel.Session
