/-
  ElectricEel.Session.Announced — whether a presence_inside is taken back (main.go
  `teardownLocked`, `emitPresenceDisconnectedLocked`, `dispatch`; docs/phone-key-events.md).

  An integration starts on presence_inside and is reset by presence_disconnected or
  presence_far. teardownLocked emits neither: each caller says so itself. Two do not,
  `dispatch` after add-key-request and the idle timer's callback, so a visit can begin
  twice (`visit_begins_twice`). A departure tears down under the lock and says so after it,
  which a loop left over from an earlier run can overtake.

  Proved: where none of this happens (`Announcing`), two presence_inside of one presence run
  have an announcement between them, and a link whose presence_inside stands is up or about
  to be announced (`inside_taken_back`).
-/
import ElectricEel.Session.Discovery
import ElectricEel.Session.Superseded

namespace ElectricEel.Session

open Lib Lib.Protowire Commands Wire Child

/-! ## What the log says -/

/-- The link of the presence run's last presence_inside, unless it has been taken back. -/
def standing : List Happened → Option Nat
  | [] => none
  | .inside link _ :: _ => some link
  | .event .presenceDisconnected :: _ | .event .presenceFar :: _ | .presenceOn _ :: _ => none
  | _ :: rest => standing rest

/-- Two presence_inside of one presence run have an announcement between them. -/
def Resettable (log : List Happened) : Prop :=
  ∀ after between before link₁ t₁ link₂ t₂, log = after ++ .inside link₂ t₂ :: (between ++ .inside link₁ t₁ :: before) →
    (∀ g, .presenceOn g ∉ between) → .event .presenceDisconnected ∈ between ∨ .event .presenceFar ∈ between

/-! ## The condition -/

/-- presence_far is still to be emitted. -/
def Pc.departing : Pc → Bool
  | tell .presenceFar _ => true
  | _ => false

namespace Proc

/-- A loop has torn down a link and not said so. -/
def Departing (p : Proc) : Prop := ∃ g, g ≤ p.session.presenceGeneration ∧ (p.loops g).pc.departing = true

/-- A link with a presence_inside is let go and nothing says so: add-key-request is done on it,
    or the idle timer's callback finds it. -/
def silences (p : Proc) : Event → Bool
  | .locked .ok | .locked (.failed _) =>
    match p.mu with
    | some (.execute cmd) => withoutSession (some cmd) && (p.session.presence.isSome && p.session.insideEmitted)
    | _ => false
  | .idle => p.mu.isNone && (p.session.presence.isSome && p.session.insideEmitted)
  | _ => false

/-- The step comes to emitInsideLocked, and presence_inside is due there. -/
def enters (p : Proc) : Event → Bool
  | .loop g _ =>
    (p.loops g).pc == .refresh && p.mu.isNone && p.session.car.isSome && !p.session.vcsecPrimeDue (p.loops g).now && p.session.insideDue
  | .locked (.status presence) =>
    match p.mu with
    | some (.prime _ _ false) => ({ p.session with lastVCSECPrime := some p.session.now, lastUserPresence := presence } : State).insideDue
    | _ => false
  | _ => false

/-- No link goes unannounced, and no presence_inside overtakes a departure. -/
def Announcing (p : Proc) (e : Event) : Prop := p.silences e = false ∧ (p.Departing → p.enters e = false)

instance (p : Proc) : Decidable p.Departing := inferInstanceAs (Decidable (∃ g, g ≤ _ ∧ _))

instance (p : Proc) (e : Event) : Decidable (p.Announcing e) := inferInstanceAs (Decidable (_ ∧ _))

end Proc

/-- A visit with presence_inside, cut short by `cmd`. -/
def cutShort (g : Nat) (cmd : Cmd) : List Event :=
  arrival g ++ turn g 46000 ++ [.locked (.status .present), .command cmd true, .locked .ok, .loop g .go, .loop g .go]

/-- From the section with Resume: the vehicle is heard again, and 46 s later it reports the user present. -/
def revisit (g : Nat) : List Event :=
  List.replicate 3 (.loop g .go) ++ [.loop g (.result (some (some (-60))))] ++ List.replicate 3 (.loop g .go) ++
    [.locked .attempt, .locked .ok, .locked .ok, .locked (.status .present), .loop g .go, .loop g .timer] ++ turn g 46000 ++
    [.locked (.status .present)]

set_option maxRecDepth 8192 in
theorem visit_begins_twice : ∃ p : Proc, (Proc.machine plainDecoders).Reach (fun _ _ => True) p ∧ ¬ Resettable p.session.log := by
  let es := cutShort 1 (.vendor .addKeyRequest) ++ revisit 1
  have h0 : (Proc.machine plainDecoders).Reach (fun _ _ => True) (Proc.start .bluez) := .init ⟨.bluez, rfl⟩
  have hr := h0.run es (.of_forall (fun _ _ => trivial) _ _)
  refine ⟨_, hr, fun hset => ?_⟩
  let log := ((Proc.machine plainDecoders).run (Proc.start .bluez) es).session.log
  have hl : log = [] ++ .inside 1 92000 :: (log.tail.takeWhile (· ≠ .inside 0 46000) ++ .inside 0 46000 ::
      (log.tail.dropWhile (· ≠ .inside 0 46000)).tail) := by decide +kernel
  have hno : ∀ e ∈ log.tail.takeWhile (· ≠ .inside 0 46000), standing (e :: [.inside 0 46000]) = some 0 := by decide +kernel
  rcases hset _ _ _ _ _ _ _ hl fun g hg => by simpa [standing] using hno _ hg with h | h
  · simpa [standing] using hno _ h
  · simpa [standing] using hno _ h

/-! ## What a section leaves -/

/-- Each presence_inside comes when none stands. -/
def Settled (log : List Happened) : Prop := ∀ after before link t, log = after ++ .inside link t :: before → standing before = none

theorem standing_cons {e : Happened} {log : List Happened} {link : Nat} (he : ∀ l t, e ≠ .inside l t)
    (h : standing (e :: log) = some link) : standing log = some link := by
  unfold standing at h
  split at h
  · next hl => cases hl
  · next l t _ hl => exact (he l t (List.cons.inj hl).1).elim
  · cases h
  · cases h
  · cases h
  · next hl => exact (List.cons.inj hl).2 ▸ h

theorem Settled.cons {log : List Happened} (h : Settled log) {e : Happened} (he : ∀ l t, e ≠ .inside l t) : Settled (e :: log) := by
  intro after before link t hl
  cases after with
  | nil => exact (he link t (List.cons.inj hl).1).elim
  | cons x after => exact h after before link t (List.cons.inj hl).2

theorem Settled.enter {log : List Happened} (h : Settled log) (hn : standing log = none) (link : Nat) (t : Int) :
    Settled (.inside link t :: log) := by
  intro after before l t' hl
  cases after with
  | nil => exact (List.cons.inj hl).2 ▸ hn
  | cons x after => exact h after before l t' (List.cons.inj hl).2

namespace State

/-- In presence mode, a presence_inside stands whose link is gone. -/
def Owing (s : State) : Prop :=
  s.presence.isSome = true ∧ ∃ link, standing s.log = some link ∧ ¬ (s.car = some link ∧ s.insideEmitted = true)

/-- A section that emits no presence_inside and lets no link go in silence. -/
structure Tells (s t : State) : Prop where
  owe : t.Owing → s.Owing
  settled : Settled s.log → Settled t.log
  emitted : t.insideEmitted = true → s.insideEmitted = true

namespace Tells

variable {r s t : State}

theorem trans (h : Tells r s) (h' : Tells s t) : Tells r t :=
  ⟨fun ho => h.owe (h'.owe ho), fun hs => h'.settled (h.settled hs), fun he => h.emitted (h'.emitted he)⟩

theorem same (hl : t.log = s.log) (hp : t.presence = s.presence) (hc : t.car = s.car) (hi : t.insideEmitted = s.insideEmitted) : Tells s t := by
  refine ⟨?_, ?_, ?_⟩
  · unfold Owing
    rw [hl, hp, hc, hi]
    exact id
  · rw [hl]
    exact id
  · rw [hi]
    exact id

theorem refl (s : State) : Tells s s := .same rfl rfl rfl rfl

theorem beside (h : Beside s t) : Tells s t := .same h.log h.presence h.car h.insideEmitted

/-- One more entry, presence mode and connection as they were. -/
theorem cons {e : Happened} (he : ∀ l t, e ≠ .inside l t) (hl : t.log = e :: s.log) (hp : t.presence = s.presence) (hc : t.car = s.car)
    (hi : t.insideEmitted = s.insideEmitted) : Tells s t := by
  refine ⟨?_, ?_, ?_⟩
  · rintro ⟨hon, link, hs, hn⟩
    rw [hl] at hs
    rw [hc, hi] at hn
    exact ⟨hp ▸ hon, link, standing_cons he hs, hn⟩
  · intro h
    rw [hl]
    exact h.cons he
  · rw [hi]
    exact id

theorem note {e : Happened} (he : ∀ l t, e ≠ .inside l t) : Tells s (s.note e) := .cons he rfl rfl rfl rfl

end Tells

/-! ## Each section -/

theorem standing_teardown (s : State) {link : Nat} (h : standing s.teardown.log = some link) : standing s.log = some link := by
  cases hc : s.car with
  | none => rwa [teardown_none hc] at h
  | some l =>
    rw [teardown_some hc] at h
    exact standing_cons (by simp) h

theorem settled_teardown {s : State} (h : Settled s.log) : Settled s.teardown.log := by
  cases hc : s.car with
  | none => rwa [teardown_none hc]
  | some l =>
    rw [teardown_some hc]
    exact h.cons (by simp)

/-- A link without presence_inside may go in silence. -/
theorem teardown_tells {s : State} (h : (s.presence.isSome && s.insideEmitted) = false) : Tells s s.teardown := by
  refine ⟨?_, settled_teardown, ?_⟩
  · rintro ⟨hon, link, hs, -⟩
    rw [teardown_presence] at hon
    refine ⟨hon, link, standing_teardown s hs, fun hn => ?_⟩
    rw [hon, hn.2] at h
    cases h
  · rw [(teardown_fields s).2.2.2]
    intro hf
    cases hf

/-- dropLink says so. -/
theorem dropLink_tells (s : State) : Tells s s.dropLink := by
  unfold dropLink emitPresenceDisconnected
  split
  · next hon =>
    refine ⟨?_, ?_, ?_⟩
    · rintro ⟨_, link, hs, -⟩
      cases hs
    · exact fun h => (settled_teardown h).cons (by simp)
    · intro he
      have : s.teardown.insideEmitted = true := he
      rw [(teardown_fields s).2.2.2] at this
      cases this
  · next hoff =>
    refine teardown_tells ?_
    rw [teardown_presence, Bool.not_eq_true] at hoff
    rw [hoff, Bool.false_and]

theorem ensureAuthTap_tells (s : State) (parent : Option Nat) : Tells s (s.ensureAuthTap parent) := by
  unfold ensureAuthTap
  split
  · split <;> exact .same rfl rfl rfl rfl
  · exact .refl s

theorem primeBegin_tells (s : State) (link : Nat) : Tells s (s.primeBegin link) := .cons (e := .used link) (by simp) rfl rfl rfl rfl

theorem primeEnd_tells (s : State) (link : Nat) (r : PrimeReply) : Tells s (s.primeEnd link r) := by
  cases r with
  | status presence => exact .cons (e := .status link s.now presence) (by simp) rfl rfl rfl rfl
  | failed dropped =>
    have hf : Tells s (s.note (.primeFailed link)) := .note (by simp)
    cases dropped with
    | true => exact hf.trans (dropLink_tells _)
    | false => exact hf

theorem enterConnect_tells (s : State) (cmd : Option Cmd) (target : Option Result) (key : Bool) : Tells s (s.enterConnect cmd target key).1 := by
  unfold enterConnect
  split
  · split
    · exact .refl s
    · split
      · exact ensureAuthTap_tells s none
      · exact (ensureAuthTap_tells s none).trans (.note (by simp))
  · split
    · exact .refl s
    · split <;> exact .refl s

theorem connected_tells {s : State} (h : s.car = none) (link : Nat) : Tells s ({ s with car := some link, links := link + 1 }.note (.connected link)) := by
  refine ⟨?_, fun hs => hs.cons (by simp), id⟩
  rintro ⟨hon, l, hs, -⟩
  refine ⟨hon, l, standing_cons (by simp) hs, fun hn => ?_⟩
  rw [h] at hn
  cases hn.1

theorem linkUp_tells {s : State} (h : s.car = none) (cmd : Option Cmd) : Tells s (s.linkUp cmd).1 := by
  have hc := connected_tells h s.links
  unfold linkUp
  dsimp only
  split
  · exact hc.trans (.cons (e := .ready s.links s.now) (by simp) rfl rfl rfl rfl)
  · exact (hc.trans (ensureAuthTap_tells _ none)).trans (.note (by simp))

/-- Presence mode is over. -/
theorem tells_off {s t : State} (hoff : t.presence = none) (hs : Settled s.log → Settled t.log)
    (hi : t.insideEmitted = true → s.insideEmitted = true) : Tells s t := by
  refine ⟨?_, hs, hi⟩
  rintro ⟨hon, -⟩
  rw [hoff] at hon
  cases hon

theorem stop_tells (s : State) : Tells s s.stopPresence.teardown := by
  refine tells_off ?_ ?_ ?_
  · rw [teardown_presence]
    cases hp : s.presence <;> simp [State.stopPresence, hp, State.stopAuthTap, State.clearConnectBackoff, State.note]
  · intro h
    refine settled_teardown ?_
    unfold stopPresence
    cases s.presence with
    | none => exact h
    | some g => exact Settled.cons h (by simp)
  · rw [(teardown_fields _).2.2.2]
    intro hf
    cases hf

theorem startPresence_tells (s : State) (cfg : Config) : Tells s (s.startPresence cfg) := by
  refine ⟨?_, fun h => h.cons (by simp), id⟩
  rintro ⟨_, link, hs, -⟩
  cases hs

theorem endPresence_tells (s : State) : Tells s s.endPresence := tells_off rfl (fun h => h.cons (by simp)) id

/-- presence_inside is emitted with no debt open, and opens none. -/
theorem emitInside_settles {s : State} (h : s.Owing → s.emitInside = s) :
    (Settled s.log → Settled s.emitInside.log) ∧ (s.emitInside.Owing → s.Owing) := by
  by_cases he : s.emitInside = s
  · rw [he]
    exact ⟨id, id⟩
  · have hno : ¬ s.Owing := fun ho => he (h ho)
    revert he
    unfold emitInside
    split
    · next link hc =>
      split
      · intro he
        exact (he rfl).elim
      · next hg =>
        intro _
        simp only [Bool.or_eq_true, Option.isNone_iff_eq_none, Bool.not_eq_true', not_or, Bool.not_eq_true] at hg
        obtain ⟨⟨hon, hi⟩, -⟩ := hg
        have hs : standing s.log = none := by
          cases hst : standing s.log with
          | none => rfl
          | some l =>
            refine (hno ⟨Option.isSome_iff_ne_none.2 hon, l, hst, fun hn => ?_⟩).elim
            rw [hi] at hn
            cases hn.2
        refine ⟨fun hset => hset.enter hs link s.now, ?_⟩
        rintro ⟨_, l, hst, hn⟩
        cases hst
        exact (hn ⟨hc, rfl⟩).elim
    · intro he
      exact (he rfl).elim

end State

/-! ## Each step -/

namespace Proc

open State

/-- What a step adds to the log is in order, and no link goes in silence. -/
structure Reckons (p q : Proc) : Prop where
  settled : Settled p.session.log → Settled q.session.log
  owe : q.session.Owing → p.session.Owing
  emitted : q.mu = none ∨ (q.session.insideEmitted = true → p.session.insideEmitted = true)

theorem Reckons.tells {p q : Proc} (h : Tells p.session q.session) : Reckons p q := ⟨h.settled, h.owe, .inr h.emitted⟩

/-- The section ends in emitInsideLocked. -/
theorem Reckons.enter {p q : Proc} {s : State} (h : Tells p.session s) (hm : q.mu = none) (hq : q.session = s.emitInside)
    (hn : p.session.Owing → s.emitInside = s) : Reckons p q := by
  have hs := emitInside_settles fun ho => hn (h.owe ho)
  refine ⟨fun hl => ?_, fun ho => ?_, .inl hm⟩
  · rw [hq]
    exact hs.1 (h.settled hl)
  · rw [hq] at ho
    exact h.owe (hs.2 ho)

theorem connected_tells (p : Proc) (c : Caller) (ok : Bool) : Tells p.session (p.connected c ok).session := by
  unfold connected
  split
  · exact .note (by simp)
  · have hb : Tells p.session p.session.clearConnectBackoff := .beside .clearConnectBackoff
    exact (hb.trans (ensureAuthTap_tells _ _)).trans (primeBegin_tells _ _)
  · exact .beside .scheduleConnectBackoff
  · exact .refl _

theorem ensureConnected_tells (p : Proc) (c : Caller) (target : Option Result) (key : Bool) :
    Tells p.session (p.ensureConnected c target key).session := by
  have ht := enterConnect_tells p.session c.cmd target key
  unfold ensureConnected
  split <;> rename_i he <;> rw [he] at ht
  · exact ht.trans (connected_tells { p with session := _ } c _)
  · exact ht
  · split
    · split
      · exact .refl _
      · exact ht.trans (.beside (.pauseWatcher _))
    · exact ht

theorem watched_tells (p : Proc) (g : Nat) (ok : Bool) : Tells p.session (p.watched g ok).session := by
  have hw : Tells p.session p.session.newWatcher := .cons (e := .startDiscovery) (by simp) rfl rfl rfl rfl
  unfold watched
  dsimp only
  split
  · exact hw
  · exact .refl _
  · exact hw
  · exact .refl _
  · exact .refl _

/-- A prime that failed leaves nothing to emit. -/
theorem primeEnd_failed_idle {s : State} (hu : s.lastUserPresence = .unknown) (link : Nat) (dropped : Bool) :
    (s.primeEnd link (.failed dropped)).emitInside = s.primeEnd link (.failed dropped) := by
  refine emitInside_idle fun hc => ?_
  cases dropped with
  | true =>
    have hcar : (s.primeEnd link (.failed true)).car = none := dropLink_car _
    rw [hcar] at hc
    cases hc
  | false =>
    have hp : (s.primeEnd link (.failed false)).lastUserPresence = .unknown := hu
    unfold insideDue readyForInside
    rw [hp]
    split <;> simp

/-- After a connect nothing is emitted under the lock; otherwise emitInsideLocked comes last. -/
theorem primed_reckons {p q : Proc} {g : Nat} {connecting : Bool} (h : Tells p.session q.session)
    (hn : connecting = false → p.session.Owing → q.session.emitInside = q.session) : Reckons p (q.primed g connecting) := by
  cases connecting with
  | true =>
    refine .tells (h.trans ?_)
    unfold primed
    rw [if_pos rfl]
    split
    · exact .beside .scheduleConnectBackoff
    · exact .refl _
  | false => exact .enter h (primed_mu q g false) rfl (hn rfl)

theorem stepLocked_reckons {p : Proc} (hh : p.Held)
    (hf : ∀ c link, p.mu = some (.handshake c link true) → p.session.insideEmitted = false) (ho : p.session.Owing → p.Departing)
    {r : Reply} (ha : p.Announcing (.locked r)) : Reckons p (p.stepLocked r) := by
  have hs := ha.1
  have he : p.session.Owing → p.enters (.locked r) = false := fun h => ha.2 (ho h)
  unfold Held at hh
  unfold silences at hs
  unfold enters at he
  unfold stepLocked
  split <;> rename_i hm <;> simp only [hm] at hh hs he
  · exact .tells (.note (by simp))
  · exact .tells (.note (by simp))
  · exact .tells (connected_tells p _ _)
  · exact .tells (.note (by simp))
  · refine .tells (Tells.trans ?_ (connected_tells _ _ _))
    exact .note (by simp)
  · next c target =>
    have hl := linkUp_tells hh c.cmd
    dsimp only
    split <;> rename_i hup <;> rw [hup] at hl
    · exact .tells hl
    · exact .tells (hl.trans (connected_tells { p with session := _ } _ _))
  · refine .tells (Tells.trans ?_ (connected_tells _ _ _))
    exact .cons (e := .ready _ p.session.now) (by simp) rfl rfl rfl rfl
  · -- the handshake on a new connection fails
    refine .tells (Tells.trans ?_ (connected_tells _ _ _))
    refine teardown_tells ?_
    rw [hf _ _ hm, Bool.and_false]
  · exact .tells (connected_tells p _ _)
  · exact .tells (connected_tells p _ _)
  · split
    · next hw => exact .tells (teardown_tells (by simpa [hw] using hs))
    · exact .tells (.refl _)
  · split
    · next hw => exact .tells (teardown_tells (by simpa [hw] using hs))
    · exact .tells (.refl _)
  · next g link connecting presence =>
    refine primed_reckons (primeEnd_tells p.session link (.status presence)) ?_
    rintro rfl how
    refine emitInside_idle fun _ => ?_
    exact he how
  · next g link connecting dropped =>
    refine primed_reckons (primeEnd_tells p.session link (.failed dropped)) ?_
    intro _ _
    exact primeEnd_failed_idle hh.2 link dropped
  · exact .tells (.refl _)
  · split
    · exact .tells (dropLink_tells p.session)
    · exact .tells (.refl _)
  · exact .tells (.note (by simp))
  · exact .tells (watched_tells p _ _)
  · exact .tells (watched_tells p _ _)
  · exact .tells (.refl _)

theorem dropSeen_tells (p : Proc) (g : Nat) : Tells p.session (p.dropSeen g).session := by
  unfold dropSeen
  dsimp only
  split
  · exact dropLink_tells p.session
  · exact .refl _

theorem refresh_reckons {p : Proc} (hm : p.mu = none) (g : Nat)
    (hn : p.session.car.isSome = true → p.session.vcsecPrimeDue (p.loops g).now = false → p.session.Owing → p.session.insideDue = false) :
    Reckons p (p.refresh g) := by
  unfold refresh
  split
  · next link hc =>
    split
    · exact .tells (primeBegin_tells p.session link)
    · next hd =>
      refine .enter (.refl p.session) hm rfl fun how => emitInside_idle fun hcar => ?_
      exact hn hcar (Bool.eq_false_iff.2 hd) how
  · next hc =>
    refine .enter (.refl p.session) hm rfl fun _ => emitInside_idle fun hcar => ?_
    rw [hc] at hcar
    cases hcar

/-- A presence loop's step, but for the departure. -/
theorem stepLoop_reckons {p : Proc} {g : Nat} {c : Choice} (hpc : (p.loops g).pc ≠ .depart) (ho : p.session.Owing → p.Departing)
    (ha : p.Announcing (.loop g c)) : Reckons p (p.stepLoop g c) := by
  have he : p.session.Owing → p.enters (.loop g c) = false := fun h => ha.2 (ho h)
  have hstep := stepLoop_cases p g c
  generalize p.stepLoop g c = q at hstep ⊢
  cases hstep with
  | stay | on _ => exact .tells (.refl _)
  | tell _ => exact .tells (.note (by simp))
  | pause _ => exact .tells (.beside (.pauseWatcher _))
  | enter _ _ _ | exit _ _ => exact .tells (.beside (.setBusy _ _))
  | discover _ _ =>
    have hb : Tells p.session (p.session.setBusy (p.loops g).watcher false) := .beside (.setBusy _ _)
    exact .tells (hb.trans (.note (by simp)))
  | locked _ hm hs =>
    cases hs with
    | watch _ => exact .tells (.refl _)
    | entered _ => exact .tells (.same rfl rfl rfl rfl)
    | snapshot _ =>
      unfold snapshot
      dsimp only
      split
      · exact .tells (dropLink_tells p.session)
      · exact .tells (.refl _)
      · exact .tells (.refl _)
    | dropSeen _ => exact .tells (dropSeen_tells p g)
    | refresh hat =>
      unfold enters at he
      refine refresh_reckons hm g fun hc hd how => ?_
      simpa [hat, hm, hc, hd] using he how
    | resume _ _ _ _ _ => exact .tells (.beside (.resumeWatcher _))
    | hear _ => exact .tells (.beside (.setLastBeacon _))
    | aim _ _ => exact .tells (.refl _)
    | connect _ => exact .tells (ensureConnected_tells p _ _ _)
    | depart hat => exact (hpc hat).elim
    | leave _ => exact .tells (.beside (.forgetWatcher _))
    | cleanup _ _ => exact .tells (endPresence_tells p.session)

/-! ## StartSession on a new connection -/

/-- Nobody goes on to StartSession on a new connection but with `car` unset before. -/
def Fresh (p q : Proc) : Prop := ∀ c link, q.mu = some (.handshake c link true) → p.mu = q.mu ∨ p.session.car = none

theorem Fresh.keep {p q : Proc} (h : q.mu = p.mu) : Fresh p q := fun _ _ _ => .inl h.symm

theorem Fresh.free {p q : Proc} (h : q.mu = none) : Fresh p q := by
  intro c link hq
  rw [h] at hq
  cases hq

theorem Fresh.other {p q : Proc} {k : Locked} (h : q.mu = some k) (hk : ∀ c link, k ≠ .handshake c link true) : Fresh p q := by
  intro c link hq
  rw [h] at hq
  cases hq
  exact (hk c link rfl).elim

theorem connected_fresh (p q : Proc) (c : Caller) (ok : Bool) : Fresh p (q.connected c ok) := by
  unfold connected
  split
  · exact .other rfl (by simp)
  · exact .other rfl (by simp)
  · exact .free rfl
  · exact .free rfl

theorem ensureConnected_fresh (p : Proc) (c : Caller) (target : Option Result) (key : Bool) : Fresh p (p.ensureConnected c target key) := by
  unfold ensureConnected
  split
  · exact connected_fresh p _ c _
  · exact .other rfl (by simp)
  · split
    · split
      · exact .keep rfl
      · exact .other rfl (by simp)
    · exact .other rfl (by simp)

theorem stepLocked_fresh {p : Proc} (hh : p.Held) (r : Reply) : Fresh p (p.stepLocked r) := by
  unfold Held at hh
  unfold stepLocked
  split <;> rename_i hm <;> simp only [hm] at hh
  · exact .keep rfl
  · exact .other rfl (by simp)
  · exact connected_fresh p _ _ _
  · exact .other rfl (by simp)
  · exact connected_fresh p _ _ _
  · dsimp only
    split
    · exact fun _ _ _ => .inr hh
    · exact connected_fresh p _ _ _
  · exact connected_fresh p _ _ _
  · exact connected_fresh p _ _ _
  · exact connected_fresh p _ _ _
  · exact connected_fresh p _ _ _
  · split <;> exact .free rfl
  · split <;> exact .free rfl
  · exact .free (primed_mu _ _ _)
  · exact .free (primed_mu _ _ _)
  · exact .free rfl
  · split <;> exact .free rfl
  · exact .keep rfl
  · exact .free (watched_mu _ _ _)
  · exact .free (watched_mu _ _ _)
  · exact .keep rfl

/-! ## The loops -/

/-- `mu` is free, or no loop has moved. -/
theorem connected_still (p : Proc) (c : Caller) (ok : Bool) : (p.connected c ok).mu = none ∨ (p.connected c ok).loops = p.loops := by
  unfold connected
  split
  · exact .inr rfl
  · exact .inr rfl
  · exact .inl rfl
  · exact .inl rfl

theorem ensureConnected_still (p : Proc) (c : Caller) (target : Option Result) (key : Bool) :
    (p.ensureConnected c target key).mu = none ∨ (p.ensureConnected c target key).loops = p.loops := by
  unfold ensureConnected
  split
  · exact connected_still _ c _
  · exact .inr rfl
  · split
    · split <;> exact .inr rfl
    · exact .inr rfl

theorem stepLocked_still (p : Proc) (r : Reply) : (p.stepLocked r).mu = none ∨ (p.stepLocked r).loops = p.loops := by
  unfold stepLocked
  split
  · exact .inr rfl
  · exact .inr rfl
  · exact connected_still p _ _
  · exact .inr rfl
  · exact connected_still _ _ _
  · dsimp only
    split
    · exact .inr rfl
    · exact connected_still _ _ _
  · exact connected_still _ _ _
  · exact connected_still _ _ _
  · exact connected_still p _ _
  · exact connected_still p _ _
  · split <;> exact .inr rfl
  · split <;> exact .inr rfl
  · exact .inl (primed_mu _ _ _)
  · exact .inl (primed_mu _ _ _)
  · exact .inr rfl
  · split <;> exact .inl rfl
  · exact .inr rfl
  · exact .inl (watched_mu _ _ _)
  · exact .inl (watched_mu _ _ _)
  · exact .inr rfl

theorem stepLoop_still {p : Proc} (hm : p.mu = none) (g : Nat) (c : Choice) : (p.stepLoop g c).mu = none ∨
    (p.loops g).pc.locks = true ∧ (p.stepLoop g c).loops = p.loops ∧ Fresh p (p.stepLoop g c) := by
  obtain hf | ⟨hl, -, hs⟩ := (stepLoop_cases p g c).free
  · exact .inl (hf.mu.trans hm)
  · generalize p.stepLoop g c = q at hs ⊢
    cases hs with
    | watch _ => exact .inr ⟨hl, rfl, .other rfl (by simp)⟩
    | snapshot _ =>
      unfold snapshot
      dsimp only
      split <;> exact .inl hm
    | dropSeen _ =>
      unfold dropSeen
      dsimp only
      split <;> exact .inl hm
    | refresh _ =>
      unfold refresh
      split
      · split
        · exact .inr ⟨hl, rfl, .other rfl (by simp)⟩
        · exact .inl hm
      · exact .inl hm
    | connect _ => exact (ensureConnected_still p _ _ _).imp_right fun h => ⟨hl, h, ensureConnected_fresh p _ _ _⟩
    | entered _ | resume _ _ _ _ _ | hear _ | aim _ _ | depart _ | leave _ | cleanup _ _ => exact .inl hm

theorem startPresence_mu (p : Proc) (cfg : Config) : (p.startPresence cfg).mu = p.mu := by
  unfold startPresence
  split <;> rfl

/-- A loop that holds `mu` stands at a section. -/
def Placed (p : Proc) : Prop := ∀ k g, p.mu = some k → k.presence = some g → (p.loops g).pc.locks = true

namespace Placed

variable {p : Proc} {decoders : Decoders}

theorem loop (h : p.Placed) (i : Nat) (c : Choice) : (p.stepLoop i c).Placed := by
  intro k g hk hkg
  cases hm : p.mu with
  | none =>
    rcases stepLoop_still hm i c with hn | ⟨hl, hs, -⟩
    · rw [hn] at hk
      cases hk
    · rw [hs]
      rcases (stepLoop_walks p i c).mu with he | ha
      · rw [he, hm] at hk
        cases hk
      · rcases ha k hk with ha | ha <;> rw [hkg] at ha <;> cases ha
        exact hl
  | some k' =>
    cases hl : (p.loops i).pc.locks with
    | true =>
      have hs : p.stepLoop i c = p := by
        unfold stepLoop
        simp [hl, hm]
      rw [hs] at hk ⊢
      exact h k g hk hkg
    | false =>
      rw [(stepLoop_free hl c).mu] at hk
      have hg := h k g hk hkg
      have hne : g ≠ i := by
        rintro rfl
        rw [hl] at hg
        cases hg
      rw [(stepLoop_walks p i c).loops g hne]
      exact hg

theorem locked (h : p.Placed) (r : Reply) : (p.stepLocked r).Placed := by
  intro k g hk hkg
  rcases stepLocked_still p r with hn | hs
  · rw [hn] at hk
    cases hk
  · rw [hs]
    rcases (stepLocked_stays p r).mu with he | ha
    · exact h k g (he ▸ hk) hkg
    · rcases ha k hk with ha | ha
      · obtain ⟨k', hk', hg'⟩ := Option.bind_eq_some_iff.1 (ha.symm.trans hkg)
        exact h k' g hk' hg'
      · rw [hkg] at ha
        cases ha

theorem step (h : p.Placed) (e : Event) : (p.step decoders e).Placed := by
  have hother : ∀ {e : Event}, (∀ g c, e ≠ .loop g c) → (∀ cfg, e ≠ .presenceStart cfg) → (e.actor p = none) → (p.step decoders e).Placed := by
    intro e hl hp ha k g hk hkg
    have hst : Stays (e.actor p) p (p.step decoders e) := step_stays p hl hp
    rw [hst.loops g (by rw [ha]; simp)]
    rcases hst.mu with he | hn
    · exact h k g (he ▸ hk) hkg
    · rcases hn k hk with hn | hn <;> rw [hkg] at hn
      · rw [ha] at hn
        cases hn
      · cases hn
  cases e with
  | loop g c => exact h.loop g c
  | locked r => exact h.locked r
  | presenceStart cfg =>
    intro k g hk hkg
    revert hk
    unfold Proc.step sectionNow
    dsimp only
    split
    · exact fun hk => h k g hk hkg
    · next hm =>
      intro hk
      rw [startPresence_mu, show p.mu = none by simpa using hm] at hk
      cases hk
  | _ => exact hother (by simp) (by simp) rfl

end Placed

/-! ## The invariant -/

variable {decoders : Decoders}

theorem stepLoop_fresh (p : Proc) (g : Nat) (c : Choice) : Fresh p (p.stepLoop g c) := by
  cases hm : p.mu with
  | none =>
    rcases stepLoop_still hm g c with hn | ⟨-, -, hf⟩
    · exact .free hn
    · exact hf
  | some k =>
    cases hl : (p.loops g).pc.locks with
    | true =>
      refine .keep ?_
      unfold stepLoop
      simp [hl, hm]
    | false => exact .keep (stepLoop_free hl c).mu

theorem sectionNow_fresh {p : Proc} {f : Proc → Proc} (h : Fresh p (f p)) : Fresh p (p.sectionNow f) := by
  unfold sectionNow
  split
  · exact .keep rfl
  · exact h

theorem step_fresh {p : Proc} (hh : p.Held) (e : Event) : Fresh p (p.step decoders e) := by
  cases e with
  | tick ms => exact .keep rfl
  | loop g c => exact stepLoop_fresh p g c
  | locked r => exact stepLocked_fresh hh r
  | command cmd key =>
    refine sectionNow_fresh ?_
    exact ensureConnected_fresh p (.command cmd) _ _
  | navigate key =>
    refine sectionNow_fresh ?_
    exact ensureConnected_fresh p .navigate _ _
  | navigateSend =>
    refine sectionNow_fresh ?_
    unfold navigateSend
    split
    · exact .other rfl (by simp)
    · exact .keep rfl
  | presenceStart cfg =>
    refine sectionNow_fresh ?_
    exact .keep (startPresence_mu p cfg)
  | stop =>
    refine sectionNow_fresh ?_
    exact .keep rfl
  | idle =>
    refine sectionNow_fresh ?_
    exact .keep rfl
  | receive bytes =>
    refine .keep ?_
    unfold Proc.step receive
    dsimp only
    split
    · split <;> rfl
    · rfl
  | offer link => exact .keep (offer_free p link).mu
  | evict link => exact .keep (evict_free p link).mu
  | take inbox => exact .keep (take_free p inbox).mu
  | quit inbox => exact .keep (quit_free p inbox).mu
  | grab inbox =>
    unfold Proc.step grab
    dsimp only
    split
    · split
      · exact .keep rfl
      · split
        · exact .other rfl (by simp)
        · exact .keep rfl
    · exact .keep rfl
  | tell inbox => exact .keep (tell_free p inbox).mu

theorem sectionNow_tells {p : Proc} {f : Proc → Proc} (h : p.mu = none → Tells p.session (f p).session) :
    Tells p.session (p.sectionNow f).session := by
  unfold sectionNow
  split
  · exact .refl _
  · next hm => exact h (by simpa using hm)

/-- Whoever takes it, but for the departure. -/
theorem step_reckons {p : Proc} (hh : p.Held)
    (hf : ∀ c link, p.mu = some (.handshake c link true) → p.session.insideEmitted = false) (ho : p.session.Owing → p.Departing)
    {e : Event} (ha : p.Announcing e) (hd : ∀ g c, e = .loop g c → (p.loops g).pc ≠ .depart) : Reckons p (p.step decoders e) := by
  cases e with
  | tick ms => exact .tells (.same rfl rfl rfl rfl)
  | loop g c => exact stepLoop_reckons (hd g c rfl) ho ha
  | locked r => exact stepLocked_reckons hh hf ho ha
  | command cmd key => exact .tells (sectionNow_tells fun _ => ensureConnected_tells p _ _ _)
  | navigate key => exact .tells (sectionNow_tells fun _ => ensureConnected_tells p _ _ _)
  | navigateSend =>
    refine .tells (sectionNow_tells fun _ => ?_)
    unfold navigateSend
    split
    · exact .note (by simp)
    · exact .refl _
  | presenceStart cfg =>
    refine .tells (sectionNow_tells fun _ => ?_)
    split
    · exact startPresence_tells p.session cfg
    · exact .refl _
  | stop => exact .tells (sectionNow_tells fun _ => stop_tells p.session)
  | idle =>
    refine .tells (sectionNow_tells fun hm => teardown_tells ?_)
    have hs : p.silences .idle = false := ha.1
    unfold silences at hs
    simpa [hm] using hs
  | receive bytes =>
    refine .tells ?_
    unfold Proc.step receive
    dsimp only
    split
    · split
      · exact .note (by simp)
      · exact .refl _
    · exact .refl _
  | offer link =>
    refine .tells ?_
    unfold Proc.step offer
    dsimp only
    split
    · split <;> exact .refl _
    · exact .refl _
  | evict link =>
    refine .tells ?_
    unfold Proc.step evict
    dsimp only
    split <;> exact .refl _
  | take inbox =>
    refine .tells ?_
    unfold Proc.step take
    dsimp only
    split
    · split
      · split <;> exact .refl _
      · exact .refl _
    · exact .refl _
  | quit inbox =>
    refine .tells ?_
    unfold Proc.step quit
    dsimp only
    split <;> exact .refl _
  | grab inbox =>
    refine .tells ?_
    unfold Proc.step grab
    dsimp only
    split
    · split
      · exact .refl _
      · split
        · exact .note (by simp)
        · exact .refl _
    · exact .refl _
  | tell inbox =>
    refine .tells ?_
    unfold Proc.step tell
    dsimp only
    split
    · exact .note (by simp)
    · exact .refl _

/-- A departure stays to be announced until its loop does it. -/
theorem departing_step {p : Proc} (hh : p.Held) (hp : p.Placed) {e : Event} (hd : p.Departing) :
    (p.step decoders e).Departing ∨ ∃ g c next, e = .loop g c ∧ (p.loops g).pc = .tell .presenceFar next := by
  obtain ⟨d, hle, hpc⟩ := hd
  have hgen : p.session.presenceGeneration ≤ (p.step decoders e).session.presenceGeneration := step_generation hh e
  have hstay : (p.step decoders e).loops d = p.loops d → (p.step decoders e).Departing := by
    intro he
    exact ⟨d, Nat.le_trans hle hgen, by rw [he]; exact hpc⟩
  obtain ⟨next, hnext⟩ : ∃ next, (p.loops d).pc = .tell .presenceFar next := by
    revert hpc
    unfold Pc.departing
    split
    · next next he => exact fun _ => ⟨next, he⟩
    · intro hf
      cases hf
  cases e with
  | loop g c =>
    by_cases hg : d = g
    · subst hg
      exact .inr ⟨d, c, next, rfl, hnext⟩
    · exact .inl (hstay ((stepLoop_walks p g c).loops d hg))
  | presenceStart cfg =>
    refine .inl (hstay ((presenceStart_walks p cfg).loops d ?_))
    omega
  | locked r =>
    refine .inl (hstay ((stepLocked_stays p r).loops d ?_))
    intro ha
    obtain ⟨k, hk, hkd⟩ := Option.bind_eq_some_iff.1 ha
    have hl := hp k d hk hkd
    rw [hnext] at hl
    cases hl
  | _ =>
    refine .inl (hstay ((step_stays p (by simp) (by simp)).loops d ?_))
    intro ha
    cases ha

/-- Every presence_inside came with none standing, and one that stands has its link or is about to be taken back. -/
structure Accounted (p : Proc) : Prop where
  settled : Settled p.session.log
  owe : p.session.Owing → p.Departing
  fresh : ∀ c link, p.mu = some (.handshake c link true) → p.session.insideEmitted = false

namespace Accounted

theorem start (b : Backend) : (Proc.start b).Accounted := by
  refine ⟨?_, ?_, ?_⟩
  · intro after before link t hl
    cases after <;> cases hl
  · rintro ⟨hon, -⟩
    cases hon
  · intro c link hm
    cases hm

/-- The departure's section: its presence_far is next. -/
theorem depart {p : Proc} (h : p.Accounted) (hs : p.Started) {g : Nat} {c : Choice} (hpc : (p.loops g).pc = .depart) :
    (p.stepLoop g c).Accounted := by
  unfold stepLoop
  simp only [hpc, Pc.locks, Bool.true_and]
  split
  · exact h
  · next hm =>
    refine ⟨settled_teardown h.settled, fun _ => ⟨g, ?_, ?_⟩, ?_⟩
    · have hg := hs.loop g (by rw [hpc]; simp)
      have ha := (teardown_ages p.session.clearConnectBackoff).generation
      exact Nat.le_trans hg ha
    · simp [goto, setLoop, Pc.departing]
    · intro _ _ hmu
      have hmu' : p.mu = some _ := hmu
      rw [hmu'] at hm
      exact (hm rfl).elim

theorem step {p : Proc} (h : p.Accounted) (hh : p.Held) (hi : p.session.Inside) (hs : p.Started) (hp : p.Placed) {e : Event}
    (ha : p.Announcing e) : (p.step decoders e).Accounted := by
  by_cases hd : ∃ g c, e = .loop g c ∧ (p.loops g).pc = .depart
  · obtain ⟨g, c, rfl, hpc⟩ := hd
    exact h.depart hs hpc
  · have hr : Reckons p (p.step decoders e) := step_reckons hh h.fresh h.owe ha fun g c he hpc => hd ⟨g, c, he, hpc⟩
    refine ⟨hr.settled h.settled, fun ho => ?_, fun c link hm => ?_⟩
    · rcases @departing_step decoders p hh hp e (h.owe (hr.owe ho)) with hq | ⟨g, c, next, rfl, hpc⟩
      · exact hq
      · -- presence_far is out, and nothing stands
        obtain ⟨-, link, hst, -⟩ := ho
        have hl : (p.step decoders (.loop g c)).session.log = .event .presenceFar :: p.session.log := by
          show (p.stepLoop g c).session.log = _
          unfold stepLoop
          simp [hpc, Pc.locks, State.emit]
        rw [hl] at hst
        cases hst
    · rcases hr.emitted with hn | he
      · rw [hn] at hm
        cases hm
      · have hno : p.session.insideEmitted = false := by
          rcases step_fresh hh e c link hm with heq | hcar
          · exact h.fresh c link (heq.trans hm)
          · exact (hi.idle hcar).2.2
        cases hq : (p.step decoders e).session.insideEmitted with
        | false => rfl
        | true =>
          rw [he hq] at hno
          cases hno

end Accounted

theorem placed {ok : Proc → Event → Prop} {p : Proc} (h : (machine decoders).Reach ok p) : p.Placed := by
  refine h.inv (I := Placed) ?_ fun p e hp _ => hp.step e
  rintro p ⟨b, rfl⟩ k g hk
  cases hk

theorem session_inside {ok : Proc → Event → Prop} {p : Proc} (h : (machine decoders).Reach ok p) : p.session.Inside :=
  session_inv State.inside_start (fun _ _ => State.Inside.move) (fun _ _ => State.Inside.talk) (fun _ => State.Inside.stopPresence) h

theorem accounted {p : Proc} (h : (machine decoders).Reach Announcing p) : p.Accounted := by
  refine Machine.Reach.inv_of (J := fun p => p.Held ∧ p.session.Inside ∧ p.Started ∧ p.Placed) (I := Accounted)
    (fun p hp => ⟨held hp, session_inside hp, started hp, placed hp⟩) ?_ (fun p e hj hp ha => hp.step hj.1 hj.2.1 hj.2.2.1 hj.2.2.2 ha) h
  rintro p ⟨b, rfl⟩
  exact .start b

end Proc

/-! ## All runs -/

theorem standing_append {between : List Happened} {link : Nat} {t : Int} {before : List Happened}
    (hn : standing (between ++ .inside link t :: before) = none) (hg : ∀ g, .presenceOn g ∉ between) :
    .event .presenceDisconnected ∈ between ∨ .event .presenceFar ∈ between := by
  induction between with
  | nil => cases hn
  | cons e rest ih =>
    rw [List.cons_append] at hn
    unfold standing at hn
    split at hn
    · next hl => cases hl
    · cases hn
    · next hl => exact .inl ((List.cons.inj hl).1 ▸ List.mem_cons_self)
    · next hl => exact .inr ((List.cons.inj hl).1 ▸ List.mem_cons_self)
    · next g _ hl => exact (hg g ((List.cons.inj hl).1 ▸ List.mem_cons_self)).elim
    · next hl =>
      have hrest := ih ((List.cons.inj hl).2 ▸ hn) fun g hm => hg g (List.mem_cons_of_mem _ hm)
      exact hrest.imp (List.mem_cons_of_mem _) (List.mem_cons_of_mem _)

theorem Settled.resettable {log : List Happened} (h : Settled log) : Resettable log := by
  intro after _ _ _ _ l₂ t₂ hl hg
  exact standing_append (h after _ l₂ t₂ hl) hg

theorem inside_taken_back {decoders : Decoders} {p : Proc} (h : (Proc.machine decoders).Reach Proc.Announcing p) :
    Resettable p.session.log ∧
      ∀ link, p.session.presence.isSome = true → standing p.session.log = some link → p.session.car = some link ∨ p.Departing := by
  have ha := Proc.accounted h
  refine ⟨ha.settled.resettable, fun link hon hst => ?_⟩
  by_cases hc : p.session.car = some link ∧ p.session.insideEmitted = true
  · exact .inl hc.1
  · exact .inr (ha.owe ⟨hon, link, hst, hc⟩)

set_option maxRecDepth 8192 in
/-- Two visits with a drop between them. -/
theorem inside_taken_back_after_a_drop :
    let es := arrival 1 ++ turn 1 46000 ++ [.locked (.status .present), .loop 1 .go, .loop 1 .dropped] ++ revisit 1
    let p := (Proc.machine plainDecoders).run (Proc.start .bluez) es
    ∃ between before, p.session.log = .inside 1 92000 :: (between ++ .inside 0 46000 :: before) ∧
      (.event .presenceDisconnected ∈ between ∨ .event .presenceFar ∈ between) := by
  intro es p
  have h0 : (Proc.machine plainDecoders).Reach Proc.Announcing (Proc.start .bluez) := .init ⟨.bluez, rfl⟩
  have hr := h0.run es (by decide +kernel)
  have hl : p.session.log = [] ++ .inside 1 92000 :: (p.session.log.tail.takeWhile (· ≠ .inside 0 46000) ++ .inside 0 46000 ::
      (p.session.log.tail.dropWhile (· ≠ .inside 0 46000)).tail) := by decide +kernel
  have hno : ∀ e ∈ p.session.log.tail.takeWhile (· ≠ .inside 0 46000), presenceRunning [e] = false := by decide +kernel
  refine ⟨_, _, hl, (inside_taken_back hr).1 _ _ _ _ _ _ _ hl fun g hg => ?_⟩
  cases hno _ hg

end ElectricEel.Session
