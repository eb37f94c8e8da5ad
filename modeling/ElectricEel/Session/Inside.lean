/-
  ElectricEel.Session.Inside — when presence_inside is emitted (main.go
  `primeVCSECLocked`, `readyForInside`, `emitInsideLocked`).

  `connectedAt`, `lastVCSECPrime`, `lastUserPresence` and `insideEmitted` are four fields
  about one connection. That they never speak of an earlier one is the invariant: each is
  tied to the log's entries for the connection in `car`.

  t is the time emitInsideLocked is given; a reply is received when BodyControllerState
  returns.

  Proved: in every run, whatever the goroutines do, each presence_inside is justified by
  what the log says before it (`presence_inside_sound`): presence mode runs, the connection
  is live and has been ready for 45 s, its last prime answered PRESENT within 30 s, and the
  connection had no presence_inside before.
-/
import ElectricEel.Session.Moves

namespace ElectricEel.Session

open Lib Lib.Protowire Commands Wire Child

/-! ## What the log says -/

/-- The connection that is up. -/
def liveLink : List Happened → Option Nat
  | [] => none
  | .connected link :: _ => some link
  | .closed _ :: _ => none
  | _ :: rest => liveLink rest

def presenceRunning : List Happened → Bool
  | [] => false
  | .presenceOn _ :: _ => true
  | .presenceOff :: _ => false
  | _ :: rest => presenceRunning rest

/-- The outcome of the last prime on a connection: time and presence, or none for a failure. -/
def lastPrime (link : Nat) : List Happened → Option (Option (Int × UserPresence))
  | [] => none
  | .status l t presence :: rest => if l = link then some (some (t, presence)) else lastPrime link rest
  | .primeFailed l :: rest => if l = link then some none else lastPrime link rest
  | _ :: rest => lastPrime link rest

/-- What `before` must say for a presence_inside about `link` at `t`. -/
structure Justified (before : List Happened) (link : Nat) (t : Int) : Prop where
  running : presenceRunning before = true
  live : liveLink before = some link
  settled : ∃ t₀, .ready link t₀ ∈ before ∧ t₀ + 45000 ≤ t
  present : ∃ t₁, lastPrime link before = some (some (t₁, .present)) ∧ t₁ ≤ t ∧ t - t₁ ≤ 30000
  first : ∀ t', .inside link t' ∉ before

namespace State

/-- The four fields speak of the live connection. -/
structure Inside (s : State) : Prop where
  car : liveLink s.log = s.car
  running : presenceRunning s.log = s.presence.isSome
  new : ∀ link, s.links ≤ link → ∀ t, .inside link t ∉ s.log
  known : ∀ link, s.car = some link → link < s.links
  idle : s.car = none → s.connectedAt = none ∧ s.lastVCSECPrime = none ∧ s.insideEmitted = false
  ready : ∀ link t, s.car = some link → s.connectedAt = some t → .ready link t ∈ s.log
  primed : ∀ link t, s.car = some link → s.lastVCSECPrime = some t → s.lastUserPresence = .present →
    lastPrime link s.log = some (some (t, .present))
  once : ∀ link t, s.car = some link → s.insideEmitted = false → .inside link t ∉ s.log
  sound : ∀ after before link t, s.log = after ++ .inside link t :: before → Justified before link t

/-! ## Each move -/

/-- The log grows by an entry other than presence_inside. -/
theorem sound_cons {log : List Happened} (h : ∀ after before link t, log = after ++ .inside link t :: before → Justified before link t)
    {e : Happened} (he : ∀ link t, e ≠ .inside link t) (after before : List Happened) (link : Nat) (t : Int)
    (hl : e :: log = after ++ .inside link t :: before) : Justified before link t := by
  cases after with
  | nil =>
    injection hl with h1 _
    exact (he link t h1).elim
  | cons x after =>
    injection hl with _ h2
    exact h after before link t h2

/-- Fields and log's reading as they were. -/
theorem Inside.keep {s t : State} (h : s.Inside) {e : Happened} (hlog : t.log = e :: s.log) (hlinks : t.links = s.links)
    (hcar : t.car = s.car) (hc : t.connectedAt = s.connectedAt)
    (hprime : t.lastVCSECPrime = s.lastVCSECPrime) (hu : t.lastUserPresence = s.lastUserPresence ∨ t.lastUserPresence = .unknown)
    (hi : t.insideEmitted = s.insideEmitted) (hin : ∀ link t, e ≠ .inside link t) (hlive : liveLink (e :: s.log) = liveLink s.log)
    (hrun : presenceRunning (e :: s.log) = t.presence.isSome)
    (hlast : t.lastUserPresence = .present → ∀ link, lastPrime link (e :: s.log) = lastPrime link s.log) : t.Inside := by
  refine ⟨?_, ?_, ?_, ?_, ?_, ?_, ?_, ?_, ?_⟩
  · rw [hlog, hlive, hcar, h.car]
  · rw [hlog, hrun]
  · intro link hl t' hm
    rw [hlog] at hm
    rcases List.mem_cons.1 hm with hm | hm
    · exact hin _ _ hm.symm
    · exact h.new link (hlinks ▸ hl) t' hm
  · intro link hl
    rw [hlinks]
    exact h.known link (hcar ▸ hl)
  · rw [hcar, hc, hprime, hi]
    exact h.idle
  · intro link t' hl ht
    rw [hlog]
    exact List.mem_cons_of_mem _ (h.ready link t' (hcar ▸ hl) (hc ▸ ht))
  · intro link t' hl ht hpres
    rw [hlog, hlast hpres link]
    refine h.primed link t' (hcar ▸ hl) (hprime ▸ ht) ?_
    rcases hu with hu | hu
    · exact hu ▸ hpres
    · rw [hu] at hpres
      cases hpres
  · intro link t' hl he hm
    rw [hlog] at hm
    rcases List.mem_cons.1 hm with hm | hm
    · exact hin _ _ hm.symm
    · exact h.once link t' (hcar ▸ hl) (hi ▸ he) hm
  · rw [hlog]
    exact sound_cons h.sound hin

/-- The log and the fields as they were. -/
theorem Inside.congr {s t : State} (h : s.Inside) (hlog : t.log = s.log) (hlinks : t.links = s.links) (hcar : t.car = s.car)
    (hp : t.presence = s.presence) (hc : t.connectedAt = s.connectedAt) (hprime : t.lastVCSECPrime = s.lastVCSECPrime)
    (hu : t.lastUserPresence = s.lastUserPresence ∨ t.lastUserPresence = .unknown) (hi : t.insideEmitted = s.insideEmitted) :
    t.Inside := by
  refine ⟨?_, ?_, ?_, ?_, ?_, ?_, ?_, ?_, ?_⟩
  · rw [hlog, hcar, h.car]
  · rw [hlog, hp, h.running]
  · rw [hlog, hlinks]
    exact h.new
  · rw [hcar, hlinks]
    exact h.known
  · rw [hcar, hc, hprime, hi]
    exact h.idle
  · rw [hcar, hc, hlog]
    exact h.ready
  · intro link t' hl ht hpres
    rw [hlog]
    refine h.primed link t' (hcar ▸ hl) (hprime ▸ ht) ?_
    rcases hu with hu | hu
    · exact hu ▸ hpres
    · rw [hu] at hpres
      cases hpres
  · rw [hcar, hi, hlog]
    exact h.once
  · rw [hlog]
    exact h.sound

theorem Inside.beside {s t : State} (h : s.Inside) (hb : Beside s t) : t.Inside :=
  h.congr hb.log hb.links hb.car hb.presence hb.connectedAt hb.lastVCSECPrime (.inl hb.lastUserPresence) hb.insideEmitted

theorem Inside.ensureAuthTap {s : State} (h : s.Inside) (parent : Option Nat) : (s.ensureAuthTap parent).Inside := by
  unfold State.ensureAuthTap
  split
  · split
    · exact h.congr rfl rfl rfl rfl rfl rfl (.inl rfl) rfl
    · exact h.congr rfl rfl rfl rfl rfl rfl (.inl rfl) rfl
  · exact h

theorem Inside.note {s : State} (h : s.Inside) {e : Happened} (he : e.Plain) : (s.note e).Inside := by
  refine h.keep (e := e) rfl rfl rfl rfl rfl (.inl rfl) rfl ?_ ?_ ?_ ?_
  · rintro link t rfl
    exact he
  · cases e <;> first | rfl | exact he.elim
  · refine Eq.trans ?_ h.running
    cases e <;> first | rfl | exact he.elim
  · intro _ link
    cases e <;> first | rfl | exact he.elim

theorem Inside.connected {s : State} (h : s.Inside) (hc : s.car = none) :
    ({ s with car := some s.links, links := s.links + 1 }.note (.connected s.links)).Inside := by
  obtain ⟨h1, h2, h3⟩ := h.idle hc
  refine ⟨rfl, h.running, ?_, ?_, ?_, ?_, ?_, ?_, ?_⟩
  · intro link hl t hm
    rcases List.mem_cons.1 hm with hm | hm
    · cases hm
    · exact h.new link (by simp only [State.note] at hl; omega) t hm
  · intro link hl
    cases hl
    exact Nat.lt_succ_self _
  · intro hn
    cases hn
  · intro link t _ ht
    have : s.connectedAt = some t := ht
    rw [h1] at this
    cases this
  · intro link t _ ht _
    have : s.lastVCSECPrime = some t := ht
    rw [h2] at this
    cases this
  · intro link t hl _ hm
    cases hl
    rcases List.mem_cons.1 hm with hm | hm
    · cases hm
    · exact h.new _ (Nat.le_refl _) t hm
  · exact sound_cons h.sound (by simp)

theorem Inside.markReady {s : State} (h : s.Inside) {link : Nat} (hc : s.car = some link) : (s.markReady link).Inside := by
  refine ⟨h.car, h.running, ?_, h.known, ?_, ?_, ?_, ?_, ?_⟩
  · intro l hl t hm
    rcases List.mem_cons.1 hm with hm | hm
    · cases hm
    · exact h.new l hl t hm
  · intro hn
    have : s.car = none := hn
    rw [hc] at this
    cases this
  · intro l t hl ht
    have hll : l = link := Option.some.inj (hl.symm.trans hc)
    cases ht
    rw [hll]
    exact List.mem_cons_self
  · exact h.primed
  · intro l t hl he hm
    rcases List.mem_cons.1 hm with hm | hm
    · cases hm
    · exact h.once l t hl he hm
  · exact sound_cons h.sound (by simp)

/-- All four fields are reset. -/
theorem teardown_fields (s : State) : s.teardown.connectedAt = none ∧ s.teardown.lastVCSECPrime = none ∧
    s.teardown.lastUserPresence = .unknown ∧ s.teardown.insideEmitted = false := by
  unfold teardown
  dsimp only
  split <;> exact ⟨rfl, rfl, rfl, rfl⟩

theorem Inside.teardown {s : State} (h : s.Inside) : s.teardown.Inside := by
  obtain ⟨h1, h2, h3, h4⟩ := teardown_fields s
  have hlog : ∀ e, e ∈ s.teardown.log → e ∈ s.log ∨ ∃ link, e = .closed link := by
    intro e hm
    cases hc : s.car with
    | some link =>
      rw [teardown_some hc] at hm
      rcases List.mem_cons.1 hm with hm | hm
      · exact .inr ⟨link, hm⟩
      · exact .inl hm
    | none =>
      rw [teardown_none hc] at hm
      exact .inl hm
  refine ⟨?_, ?_, ?_, ?_, ?_, ?_, ?_, ?_, ?_⟩
  · rw [teardown_car]
    cases hc : s.car with
    | some link => rw [teardown_some hc, liveLink]
    | none => rw [teardown_none hc, h.car, hc]
  · rw [teardown_presence, ← h.running]
    cases hc : s.car with
    | some link =>
      rw [teardown_some hc, presenceRunning]
      all_goals simp
    | none => rw [teardown_none hc]
  · intro link hl t hm
    rcases hlog _ hm with hm | ⟨_, hm⟩
    · exact h.new link (by rwa [teardown_links] at hl) t hm
    · cases hm
  · intro link hl
    rw [teardown_car] at hl
    cases hl
  · exact fun _ => ⟨h1, h2, h4⟩
  · intro link t hl
    rw [teardown_car] at hl
    cases hl
  · intro link t hl
    rw [teardown_car] at hl
    cases hl
  · intro link t hl
    rw [teardown_car] at hl
    cases hl
  · cases hc : s.car with
    | some link =>
      rw [teardown_some hc]
      exact sound_cons h.sound (by simp)
    | none =>
      rw [teardown_none hc]
      exact h.sound

theorem Inside.startPresence {s : State} (h : s.Inside) (cfg : Config) : (s.startPresence cfg).Inside :=
  h.keep (e := .presenceOn (s.presenceGeneration + 1)) rfl rfl rfl rfl rfl (.inl rfl) rfl (by simp) rfl rfl fun _ _ => rfl

theorem Inside.endPresence {s : State} (h : s.Inside) : s.endPresence.Inside :=
  h.keep (e := .presenceOff) rfl rfl rfl rfl rfl (.inl rfl) rfl (by simp) rfl rfl fun _ _ => rfl

theorem Inside.stopPresence {s : State} (h : s.Inside) : s.stopPresence.Inside := by
  cases hp : s.presence with
  | none =>
    refine h.congr ?_ ?_ ?_ ?_ ?_ ?_ (.inl ?_) ?_
    all_goals simp [State.stopPresence, hp, State.stopAuthTap, State.clearConnectBackoff]
  | some g =>
    refine h.keep (e := .presenceOff) ?_ ?_ ?_ ?_ ?_ (.inl ?_) ?_ (by simp) rfl ?_ fun _ _ => rfl
    all_goals simp [State.stopPresence, hp, State.stopAuthTap, State.clearConnectBackoff, State.note, presenceRunning]

theorem Inside.status {s : State} (h : s.Inside) {link : Nat} (hc : s.car = some link) (presence : UserPresence) :
    (s.primeEnd link (.status presence)).Inside := by
  refine ⟨h.car, h.running, ?_, h.known, ?_, ?_, ?_, ?_, ?_⟩
  · intro l hl t hm
    rcases List.mem_cons.1 hm with hm | hm
    · cases hm
    · exact h.new l hl t hm
  · intro hn
    have : s.car = none := hn
    rw [hc] at this
    cases this
  · intro l t hl ht
    exact List.mem_cons_of_mem _ (h.ready l t hl ht)
  · intro l t hl ht hpres
    have hll : l = link := Option.some.inj (hl.symm.trans hc)
    cases ht
    have : presence = .present := hpres
    simp [State.primeEnd, lastPrime, hll, this]
  · intro l t hl he hm
    rcases List.mem_cons.1 hm with hm | hm
    · cases hm
    · exact h.once l t hl he hm
  · exact sound_cons h.sound (by simp)

theorem Inside.primeFailed {s : State} (h : s.Inside) (link : Nat) (hu : s.lastUserPresence = .unknown) :
    (s.note (.primeFailed link)).Inside := by
  refine h.keep (e := .primeFailed link) rfl rfl rfl rfl rfl (.inl rfl) rfl (by simp) rfl h.running ?_
  intro hp
  have : s.lastUserPresence = .present := hp
  rw [hu] at this
  cases this

theorem readyForInside_some {connectedAt statusAt : Option Int} {now : Int} {presence : UserPresence}
    (h : readyForInside connectedAt statusAt now presence = true) :
    presence = .present ∧ (∃ c, connectedAt = some c ∧ c + 45000 ≤ now) ∧ ∃ t, statusAt = some t ∧ t ≤ now ∧ now - t ≤ 30000 := by
  unfold readyForInside at h
  split at h
  · next c t =>
    simp only [Bool.and_eq_true, beq_iff_eq, decide_eq_true_eq] at h
    obtain ⟨⟨⟨hp, hc⟩, ht⟩, hn⟩ := h
    exact ⟨hp, ⟨c, rfl, hc⟩, t, rfl, ht, hn⟩
  · cases h

/-- The only move that emits presence_inside. -/
theorem Inside.emitInside {s : State} (h : s.Inside) : s.emitInside.Inside := by
  unfold State.emitInside
  split
  · next link hc =>
    split
    · exact h
    · next hg =>
      simp only [Bool.or_eq_true, Option.isNone_iff_eq_none, Bool.not_eq_true', not_or, Bool.not_eq_true, Bool.not_eq_false] at hg
      obtain ⟨⟨hp, hi⟩, hr⟩ := hg
      obtain ⟨hpres, ⟨c, hat, hset⟩, t, hst, hle, hrec⟩ := readyForInside_some hr
      have hj : Justified s.log link s.now := by
        refine ⟨?_, ?_, ⟨c, h.ready link c hc hat, hset⟩, ⟨t, h.primed link t hc hst hpres, hle, hrec⟩, ?_⟩
        · rw [h.running, Option.isSome_iff_ne_none]
          exact hp
        · rw [h.car, hc]
        · exact fun t' => h.once link t' hc hi
      refine ⟨h.car, h.running, ?_, h.known, ?_, ?_, ?_, ?_, ?_⟩
      · intro l hl t' hm
        rcases List.mem_cons.1 hm with hm | hm
        · cases hm
          have := h.known link hc
          have : s.links ≤ link := hl
          omega
        · exact h.new l hl t' hm
      · intro hn
        have : s.car = none := hn
        rw [hc] at this
        cases this
      · intro l t' hl ht
        exact List.mem_cons_of_mem _ (h.ready l t' hl ht)
      · exact h.primed
      · intro l t' _ he
        cases he
      · intro after before l t' hl
        cases after with
        | nil =>
          injection hl with h1 h2
          cases h1
          exact h2 ▸ hj
        | cons x after =>
          injection hl with _ h2
          exact h.sound after before l t' h2
  · exact h

theorem Inside.talk {s t : State} (ht : Talk s t) (h : s.Inside) : t.Inside := by
  cases ht with
  | @received d _ _ => exact h.keep (e := .received d) rfl rfl rfl rfl rfl (.inl rfl) rfl (by simp) rfl h.running fun _ _ => rfl
  | @answered link d payload _ _ =>
    exact h.keep (e := .answered link d payload) rfl rfl rfl rfl rfl (.inl rfl) rfl (by simp) rfl h.running fun _ _ => rfl

theorem Inside.move {s t : State} (hm : Move s t) (h : s.Inside) : t.Inside := by
  cases hm with
  | beside hb => exact h.beside hb
  | note he => exact h.note he
  | connected hc => exact h.connected hc
  | ready hc => exact h.markReady hc
  | teardown => exact h.teardown
  | tap parent => exact h.ensureAuthTap parent
  | startPresence cfg => exact h.startPresence cfg
  | endPresence => exact h.endPresence
  | priming => exact h.congr rfl rfl rfl rfl rfl rfl (.inr rfl) rfl
  | status presence hc => exact h.status hc presence
  | primeFailed hu => exact h.primeFailed _ hu
  | inside => exact h.emitInside

theorem inside_start (b : Backend) : (Proc.start b).session.Inside := by
  refine ⟨rfl, rfl, ?_, ?_, fun _ => ⟨rfl, rfl, rfl⟩, ?_, ?_, ?_, ?_⟩
  · intro link _ t hm
    cases hm
  · intro link hl
    cases hl
  · intro link t hl
    cases hl
  · intro link t hl
    cases hl
  · intro link t hl
    cases hl
  · intro after before link t hl
    cases after <;> cases hl

end State

/-! ## All runs -/

theorem presence_inside_sound {decoders : Decoders} {ok : Proc → Event → Prop} {p : Proc}
    (h : (Proc.machine decoders).Reach ok p) {after before : List Happened} {link : Nat} {t : Int}
    (hl : p.session.log = after ++ .inside link t :: before) :
    Justified before link t ∧ ∀ t', .inside link t' ∉ after := by
  have hi := Proc.session_inv State.inside_start (fun _ _ => State.Inside.move) (fun _ _ => State.Inside.talk)
    (fun _ => State.Inside.stopPresence) h
  refine ⟨hi.sound after before link t hl, ?_⟩
  intro t' hm
  -- the later of the two would have had this one before it
  obtain ⟨a, b, rfl⟩ := List.append_of_mem hm
  have hj := hi.sound a (b ++ .inside link t :: before) link t' (by rw [hl]; simp)
  exact hj.first t (by simp)

/-- Presence mode from its start until the vehicle is heard and connected. -/
def arrival (g : Nat) : List Event :=
  [.presenceStart defaultPresenceConfig, .loop g .go, .loop g .go, .loop g .go, .locked .ok] ++ List.replicate 6 (.loop g .go) ++
    [.loop g (.result (some (some (-60)))), .loop g .go, .loop g .go, .loop g .go, .locked .attempt, .locked .ok, .locked .ok,
      .locked (.status .present), .loop g .go, .loop g .timer]

/-- A turn of the loop with the link up, `ms` later. -/
def turn (g ms : Nat) : List Event :=
  [.loop g .go, .loop g .go, .loop g .go, .loop g .timer, .tick ms, .loop g (.connected (some true)), .loop g .go]

set_option maxRecDepth 8192 in
theorem presence_inside_sound_after_a_visit :
    let p := (Proc.machine plainDecoders).run (Proc.start .bluez) (arrival 1 ++ turn 1 46000 ++ [.locked (.status .present)])
    ∃ before, p.session.log = .inside 0 46000 :: before ∧ Justified before 0 46000 := by
  intro p
  have h0 : (Proc.machine plainDecoders).Reach (fun _ _ => True) (Proc.start .bluez) := .init ⟨.bluez, rfl⟩
  have hr := h0.run (arrival 1 ++ turn 1 46000 ++ [.locked (.status .present)]) (.of_forall (fun _ _ => trivial) _ _)
  have hl : p.session.log = [] ++ .inside 0 46000 :: p.session.log.tail := by decide +kernel
  exact ⟨_, hl, (presence_inside_sound hr hl).1⟩

end ElectricEel.Session
