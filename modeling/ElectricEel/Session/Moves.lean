/-
  ElectricEel.Session.Moves — what a step can do to the session.

  `Move` lists the changes the locked sections make to the connection, to presence mode and
  to the responder's tap, each with what holds where it is made; anything else leaves all
  three alone (`Beside`, `Happened.Plain`).

  Proved: every step's effect on the session is a sequence of moves, what passive entry
  adds to the log, or presence-stop (`step_moves`), given what the holder of `mu` relies on
  while it blocks (`Held`), which every step keeps (`held`).
-/
import ElectricEel.Session.LoopSteps

namespace ElectricEel.Session

open Lib Lib.Protowire Commands Wire Child

/-- Everyone but the RX loops and the responders, and not presence-stop. -/
def Event.quiet : Event → Bool
  | .stop | .receive _ | .offer _ | .evict _ | .take _ | .quit _ | .grab _ | .tell _ => false
  | _ => true

/-- An entry of the log that says nothing of connection, presence or responses. -/
def Happened.Plain : Happened → Prop
  | startDiscovery | dial | hangUp | used _ | event _ => True
  | _ => False

namespace State

/-- Only watchers, beacon, backoff and the clock may differ. -/
structure Beside (s t : State) : Prop where
  car : t.car = s.car
  links : t.links = s.links
  presence : t.presence = s.presence
  presenceGeneration : t.presenceGeneration = s.presenceGeneration
  stopped : t.stopped = s.stopped
  authInbox : t.authInbox = s.authInbox
  taps : t.taps = s.taps
  observer : t.observer = s.observer
  lastVCSECPrime : t.lastVCSECPrime = s.lastVCSECPrime
  connectedAt : t.connectedAt = s.connectedAt
  lastUserPresence : t.lastUserPresence = s.lastUserPresence
  insideEmitted : t.insideEmitted = s.insideEmitted
  log : t.log = s.log

inductive Move : State → State → Prop
  | beside {s t : State} : Beside s t → Move s t
  | note {s : State} {h : Happened} : h.Plain → Move s (s.note h)
  | connected {s : State} : s.car = none → Move s ({ s with car := some s.links, links := s.links + 1 }.note (.connected s.links))
  | ready {s : State} {link : Nat} : s.car = some link → Move s (s.markReady link)
  | teardown {s : State} : Move s s.teardown
  | tap {s : State} (parent : Option Nat) : Move s (s.ensureAuthTap parent)
  | startPresence {s : State} (cfg : Config) : Move s (s.startPresence cfg)
  | endPresence {s : State} : Move s s.endPresence
  | priming {s : State} : Move s { s with lastUserPresence := .unknown }
  | status {s : State} {link : Nat} (presence : UserPresence) : s.car = some link → Move s (s.primeEnd link (.status presence))
  | primeFailed {s : State} {link : Nat} : s.lastUserPresence = .unknown → Move s (s.note (.primeFailed link))
  | inside {s : State} : Move s s.emitInside

/-- What passive entry adds. -/
inductive Talk (s : State) : State → Prop
  | received {d : Datagram} : s.car = some d.link → s.observer = some d.inbox → Talk s (s.note (.received d))
  | answered {link : Nat} {d : Datagram} {payload : Bytes} :
      s.car = some link → s.authInbox.isSome = true → Talk s (s.note (.answered link d payload))

abbrev Moves : State → State → Prop := Relation.ReflTransGen Move

theorem Move.one {s t : State} (h : Move s t) : Moves s t := .single h

theorem moves_inv {I : State → Prop} (hI : ∀ s t, Move s t → I s → I t) {s t : State} (h : Moves s t) (hs : I s) : I t := by
  induction h with
  | refl => exact hs
  | tail _ hst ih => exact hI _ _ hst ih

/-! ## Frames -/

variable {s : State}

theorem Beside.pauseWatcher (w : Nat) : Beside s (s.pauseWatcher w) := by constructor <;> rfl

theorem Beside.resumeWatcher (w : Nat) : Beside s (s.resumeWatcher w) := by constructor <;> rfl

theorem Beside.setBusy (w : Nat) (busy : Bool) : Beside s (s.setBusy w busy) := by constructor <;> rfl

theorem Beside.forgetWatcher (w : Nat) : Beside s (s.forgetWatcher w) := by
  unfold State.forgetWatcher
  split <;> constructor <;> rfl

theorem Beside.setLastBeacon (r : Option Result) : Beside s (s.setLastBeacon r) := by constructor <;> rfl

theorem Beside.clearConnectBackoff : Beside s s.clearConnectBackoff := by constructor <;> rfl

theorem Beside.scheduleConnectBackoff : Beside s s.scheduleConnectBackoff := by constructor <;> rfl

@[simp] theorem note_car (s : State) (h : Happened) : (s.note h).car = s.car := rfl
@[simp] theorem note_presence (s : State) (h : Happened) : (s.note h).presence = s.presence := rfl
@[simp] theorem note_lastUserPresence (s : State) (h : Happened) : (s.note h).lastUserPresence = s.lastUserPresence := rfl
@[simp] theorem note_log (s : State) (h : Happened) : (s.note h).log = h :: s.log := rfl
@[simp] theorem stopAuthTap_car (s : State) : s.stopAuthTap.car = s.car := rfl
@[simp] theorem stopAuthTap_log (s : State) : s.stopAuthTap.log = s.log := rfl
@[simp] theorem stopAuthTap_authInbox (s : State) : s.stopAuthTap.authInbox = none := rfl
@[simp] theorem stopAuthTap_observer (s : State) : s.stopAuthTap.observer = none := rfl

@[simp] theorem ensureAuthTap_car (s : State) (parent : Option Nat) : (s.ensureAuthTap parent).car = s.car := by
  unfold ensureAuthTap
  split
  · split <;> rfl
  · rfl

@[simp] theorem ensureAuthTap_log (s : State) (parent : Option Nat) : (s.ensureAuthTap parent).log = s.log := by
  unfold ensureAuthTap
  split
  · split <;> rfl
  · rfl

@[simp] theorem teardown_car (s : State) : s.teardown.car = none := by
  unfold teardown
  dsimp only
  split
  · rfl
  · next h => exact h

theorem teardown_some {s : State} {link : Nat} (hc : s.car = some link) :
    s.teardown.log = .closed link :: s.log := by
  unfold teardown
  simp [hc]

theorem teardown_none {s : State} (hc : s.car = none) : s.teardown.log = s.log := by
  unfold teardown
  simp [hc]

@[simp] theorem teardown_links (s : State) : s.teardown.links = s.links := by
  unfold teardown
  dsimp only
  split <;> rfl

@[simp] theorem teardown_presence (s : State) : s.teardown.presence = s.presence := by
  unfold teardown
  dsimp only
  split <;> rfl

@[simp] theorem emitPresenceDisconnected_car (s : State) : s.emitPresenceDisconnected.car = s.car := by
  unfold emitPresenceDisconnected
  split <;> rfl

@[simp] theorem dropLink_car (s : State) : s.dropLink.car = none := by simp [dropLink]

@[simp] theorem emitInside_car (s : State) : s.emitInside.car = s.car := by
  unfold emitInside
  split
  · split <;> rfl
  · rfl

/-! ## Composite moves -/

theorem plain_moves (s : State) (h : Happened) (hp : h.Plain) : Moves s (s.note h) := Move.one (.note hp)

theorem dropLink_moves (s : State) : Moves s s.dropLink := by
  refine (Move.one .teardown).trans ?_
  unfold dropLink emitPresenceDisconnected
  split
  · exact Move.one (.note trivial)
  · exact .refl

theorem primeBegin_moves (s : State) (link : Nat) : Moves s (s.primeBegin link) := (Move.one .priming).tail (.note trivial)

theorem primeEnd_moves {s : State} {link : Nat} (hc : s.car = some link) (hu : s.lastUserPresence = .unknown) (r : PrimeReply) :
    Moves s (s.primeEnd link r) := by
  cases r with
  | status presence => exact Move.one (.status presence hc)
  | failed dropped =>
    cases dropped with
    | true => exact (Move.one (.primeFailed hu)).trans (dropLink_moves _)
    | false => exact Move.one (.primeFailed hu)

theorem linkUp_moves {s : State} (hc : s.car = none) (cmd : Option Cmd) : Moves s (s.linkUp cmd).1 := by
  unfold linkUp
  dsimp only
  split
  · exact (Move.one (.connected hc)).tail (.ready rfl)
  · exact ((Move.one (.connected hc)).tail (.tap none)).tail (.note trivial)

theorem enterConnect_moves (s : State) (cmd : Option Cmd) (target : Option Result) (key : Bool) :
    Moves s (s.enterConnect cmd target key).1 := by
  unfold enterConnect
  split
  · split
    · exact .refl
    · split
      · exact Move.one (.tap none)
      · exact (Move.one (.tap none)).tail (.note trivial)
  · split
    · exact .refl
    · split <;> exact .refl

@[simp] theorem enterConnect_car (s : State) (cmd : Option Cmd) (target : Option Result) (key : Bool) :
    (s.enterConnect cmd target key).1.car = s.car := by
  unfold enterConnect
  split
  · split
    · rfl
    · split
      · exact ensureAuthTap_car _ _
      · exact ensureAuthTap_car _ _
  · split
    · rfl
    · split <;> rfl

/-- On to the transport only without a connection. -/
theorem enterConnect_dial {s : State} {cmd : Option Cmd} {target : Option Result} {key : Bool}
    (h : (s.enterConnect cmd target key).2 = .dial) : (s.enterConnect cmd target key).1 = s ∧ s.car = none := by
  unfold enterConnect at h ⊢
  cases hc : s.car with
  | some link =>
    simp only [hc] at h
    split at h
    · cases h
    · split at h <;> cases h
  | none =>
    simp only [hc] at h ⊢
    split at h
    · cases h
    · next hr =>
      rw [if_neg hr]
      split at h
      · next hk => exact ⟨by rw [if_pos hk], trivial⟩
      · cases h

end State

/-! ## The process -/

namespace Proc

open State

@[simp] theorem setLoop_session (p : Proc) (g : Nat) (l : Loop) : (p.setLoop g l).session = p.session := rfl
@[simp] theorem setLoop_mu (p : Proc) (g : Nat) (l : Loop) : (p.setLoop g l).mu = p.mu := rfl
@[simp] theorem goto_session (p : Proc) (g : Nat) (pc : Pc) : (p.goto g pc).session = p.session := rfl
@[simp] theorem goto_mu (p : Proc) (g : Nat) (pc : Pc) : (p.goto g pc).mu = p.mu := rfl
@[simp] theorem onSession_session (p : Proc) (f : State → State) : (p.onSession f).session = f p.session := rfl
@[simp] theorem onSession_mu (p : Proc) (f : State → State) : (p.onSession f).mu = p.mu := rfl
@[simp] theorem unlock_session (p : Proc) : p.unlock.session = p.session := rfl
@[simp] theorem unlock_mu (p : Proc) : p.unlock.mu = none := rfl

/-- What the holder of `mu` knows while it blocks. -/
def Held (p : Proc) : Prop :=
  match p.mu with
  | some (.dial _ _) | some (.dialling _ _) => p.session.car = none
  | some (.handshake _ link true) => p.session.car = some link
  | some (.prime _ link _) => p.session.car = some link ∧ p.session.lastUserPresence = .unknown
  | _ => True

theorem held_free {p : Proc} (h : p.mu = none) : p.Held := by
  unfold Held
  rw [h]
  trivial

/-- Without `mu` nobody changes what its holder relies on. -/
theorem Held.frame {p q : Proc} (h : p.Held) (hm : q.mu = p.mu) (hc : q.session.car = p.session.car)
    (hu : q.session.lastUserPresence = p.session.lastUserPresence) : q.Held := by
  unfold Held at h ⊢
  rw [hm, hc, hu]
  exact h

theorem connectFailed_moves (p : Proc) (g : Nat) : Moves p.session (p.connectFailed g).session :=
  Move.one (.beside .scheduleConnectBackoff)

theorem connected_moves (p : Proc) (c : Caller) (ok : Bool) : Moves p.session (p.connected c ok).session := by
  unfold connected
  split
  · exact Move.one (.note trivial)
  · exact ((Move.one (.beside .clearConnectBackoff)).tail (.tap _)).trans (primeBegin_moves _ _)
  · exact connectFailed_moves p.unlock _
  · exact .refl

theorem connected_held (p : Proc) (c : Caller) (ok : Bool) : (p.connected c ok).Held := by
  unfold connected
  split
  · trivial
  · next hc => simp [Held, onSession, primeBegin, clearConnectBackoff, hc]
  · exact held_free rfl
  · exact held_free rfl

theorem ensureConnected_moves (p : Proc) (c : Caller) (target : Option Result) (key : Bool) :
    Moves p.session (p.ensureConnected c target key).session := by
  have hm := enterConnect_moves p.session c.cmd target key
  unfold ensureConnected
  split
  · next s ok he =>
    rw [he] at hm
    exact hm.trans (connected_moves { p with session := s } c ok)
  · next s he =>
    rw [he] at hm
    exact hm
  · next s he =>
    rw [he] at hm
    split
    · split
      · exact .refl
      · exact hm.tail (.beside (.pauseWatcher _))
    · exact hm

theorem ensureConnected_held {p : Proc} (h : p.mu = none) (c : Caller) (target : Option Result) (key : Bool) :
    (p.ensureConnected c target key).Held := by
  unfold ensureConnected
  split
  · exact connected_held _ _ _
  · trivial
  · next s he =>
    have hk : (p.session.enterConnect c.cmd target key).2 = .dial := by rw [he]
    have hd := enterConnect_dial hk
    rw [he] at hd
    have hs : s = p.session := hd.1
    have hcar : s.car = none := hs ▸ hd.2
    split
    · split
      · exact held_free h
      · exact hcar
    · exact hcar

theorem primed_moves (p : Proc) (g : Nat) (connecting : Bool) : Moves p.session (p.primed g connecting).session := by
  unfold primed
  split
  · split
    · exact connectFailed_moves p.unlock g
    · exact .refl
  · exact Move.one .inside

theorem primed_mu (p : Proc) (g : Nat) (connecting : Bool) : (p.primed g connecting).mu = none := by
  unfold primed
  split
  · split <;> rfl
  · rfl

theorem newWatcher_moves (s : State) : Moves s s.newWatcher := by
  refine (Move.one (.beside ?_)).tail (.note trivial)
  constructor <;> rfl

theorem watched_moves (p : Proc) (g : Nat) (ok : Bool) : Moves p.session (p.watched g ok).session := by
  unfold watched
  dsimp only
  split
  · exact newWatcher_moves _
  · exact .refl
  · exact newWatcher_moves _
  · exact .refl
  · exact .refl

theorem watched_mu (p : Proc) (g : Nat) (ok : Bool) : (p.watched g ok).mu = none := by
  unfold watched
  dsimp only
  split <;> rfl

theorem stepLocked_moves {p : Proc} (h : p.Held) (r : Reply) : Moves p.session (p.stepLocked r).session := by
  unfold Held at h
  unfold stepLocked
  split <;> rename_i hm <;> simp only [hm] at h
  · exact plain_moves p.session .startDiscovery trivial
  · exact plain_moves p.session .dial trivial
  · exact connected_moves p _ _
  · exact plain_moves p.session .hangUp trivial
  · refine Relation.ReflTransGen.trans ?_ (connected_moves _ _ _)
    exact plain_moves p.session .hangUp trivial
  · next c target =>
    have hl := linkUp_moves h c.cmd
    dsimp only
    split
    · next s he =>
      rw [he] at hl
      exact hl
    · next s he =>
      rw [he] at hl
      exact hl.trans (connected_moves { p with session := s } _ _)
  · refine Relation.ReflTransGen.trans ?_ (connected_moves _ _ _)
    exact Move.one (.ready h)
  · refine Relation.ReflTransGen.trans ?_ (connected_moves _ _ _)
    exact Move.one .teardown
  · exact connected_moves p _ _
  · exact connected_moves p _ _
  · split
    · exact Move.one .teardown
    · exact .refl
  · split
    · exact Move.one .teardown
    · exact .refl
  · refine Relation.ReflTransGen.trans ?_ (primed_moves _ _ _)
    simp only [onSession_session]
    exact primeEnd_moves h.1 h.2 _
  · refine Relation.ReflTransGen.trans ?_ (primed_moves _ _ _)
    simp only [onSession_session]
    exact primeEnd_moves h.1 h.2 _
  · exact .refl
  · next dropped =>
    cases dropped with
    | false => exact .refl
    | true => exact dropLink_moves p.session
  · exact plain_moves p.session .startDiscovery trivial
  · exact watched_moves p _ _
  · exact watched_moves p _ _
  · exact .refl

theorem stepLocked_held {p : Proc} (h : p.Held) (r : Reply) : (p.stepLocked r).Held := by
  have h' := h
  unfold Held at h
  unfold stepLocked
  split <;> rename_i hm <;> simp only [hm] at h
  · exact h'.frame rfl rfl rfl
  · exact h
  · exact connected_held p _ _
  · exact h
  · exact connected_held _ _ _
  · next c target =>
    dsimp only
    split
    · next s he =>
      have hc : (p.session.linkUp c.cmd).1.car = some p.session.links := by
        unfold State.linkUp
        dsimp only
        split
        · rfl
        · simp
      rw [he] at hc
      exact hc
    · exact connected_held _ _ _
  · exact connected_held _ _ _
  · exact connected_held _ _ _
  · exact connected_held p _ _
  · exact connected_held p _ _
  · split <;> exact held_free rfl
  · split <;> exact held_free rfl
  · exact held_free (primed_mu _ _ _)
  · exact held_free (primed_mu _ _ _)
  · exact held_free rfl
  · exact held_free rfl
  · exact h'.frame rfl rfl rfl
  · exact held_free (watched_mu _ _ _)
  · exact held_free (watched_mu _ _ _)
  · exact h'

/-! ## Steps without `mu` -/

/-- A step beside the holder of `mu`. -/
structure Free (p q : Proc) : Prop where
  moves : Moves p.session q.session
  mu : q.mu = p.mu
  car : q.session.car = p.session.car
  lastUserPresence : q.session.lastUserPresence = p.session.lastUserPresence

namespace Free

variable {p q : Proc}

theorem same (hs : q.session = p.session) (hm : q.mu = p.mu) : Free p q := by
  refine ⟨?_, hm, by rw [hs], by rw [hs]⟩
  rw [hs]

theorem beside (hb : Beside p.session q.session) (hm : q.mu = p.mu) : Free p q :=
  ⟨Move.one (.beside hb), hm, hb.car, hb.lastUserPresence⟩

theorem note {h : Happened} (hp : h.Plain) (hs : q.session = p.session.note h) (hm : q.mu = p.mu) : Free p q := by
  refine ⟨?_, hm, by rw [hs]; rfl, by rw [hs]; rfl⟩
  rw [hs]
  exact plain_moves _ _ hp

theorem trans {r : Proc} (h : Free p q) (h' : Free q r) : Free p r :=
  ⟨h.moves.trans h'.moves, h'.mu.trans h.mu, h'.car.trans h.car, h'.lastUserPresence.trans h.lastUserPresence⟩

end Free

theorem LoopStep.free {p q : Proc} {g : Nat} {c : Choice} (h : LoopStep p g c q) :
    Free p q ∨ (p.loops g).pc.locks = true ∧ p.mu = none ∧ LoopSection p g c q := by
  cases h with
  | stay | on _ => exact .inl (.same rfl rfl)
  | tell _ => exact .inl (.note (h := .event _) trivial rfl rfl)
  | pause _ => exact .inl (.beside (.pauseWatcher _) rfl)
  | enter _ _ _ | exit _ _ => exact .inl (.beside (.setBusy _ _) rfl)
  | discover _ _ =>
    have hb : Free p (p.onSession (·.setBusy (p.loops g).watcher false)) := .beside (.setBusy _ _) rfl
    exact .inl (hb.trans (.note (h := .startDiscovery) trivial rfl rfl))
  | locked hl hm hs => exact .inr ⟨hl, hm, hs⟩

/-- A presence loop where it does not take `mu`. -/
theorem stepLoop_free {p : Proc} {g : Nat} (h : (p.loops g).pc.locks = false) (c : Choice) : Free p (p.stepLoop g c) := by
  obtain hf | ⟨hl, -⟩ := (stepLoop_cases p g c).free
  · exact hf
  · rw [h] at hl
    cases hl

theorem dropSeen_moves (p : Proc) (g : Nat) : Moves p.session (p.dropSeen g).session := by
  unfold dropSeen
  dsimp only
  split
  · exact dropLink_moves p.session
  · exact .refl

theorem hear_moves (p : Proc) (g : Nat) : Moves p.session (p.hear g).session := Move.one (.beside (.setLastBeacon _))

theorem snapshot_moves (p : Proc) (g : Nat) (c : Choice) : Moves p.session (p.snapshot g c).session := by
  unfold snapshot
  dsimp only
  split
  · exact dropLink_moves p.session
  · exact .refl
  · exact .refl

theorem refresh_moves (p : Proc) (g : Nat) : Moves p.session (p.refresh g).session := by
  unfold refresh
  split
  · split
    · exact primeBegin_moves p.session _
    · exact Move.one .inside
  · exact Move.one .inside

theorem refresh_held {p : Proc} (h : p.mu = none) (g : Nat) : (p.refresh g).Held := by
  unfold refresh
  split
  · next hc =>
    split
    · exact ⟨hc, rfl⟩
    · exact held_free h
  · exact held_free h

theorem depart_moves (s : State) : Moves s s.clearConnectBackoff.teardown := (Move.one (.beside .clearConnectBackoff)).tail .teardown

/-- A presence loop's section. -/
theorem LoopSection.moves {p q : Proc} {g : Nat} {c : Choice} (h : LoopSection p g c q) (hm : p.mu = none) :
    Moves p.session q.session ∧ q.Held := by
  cases h with
  | watch _ => exact ⟨.refl, trivial⟩
  | entered _ =>
    refine ⟨Move.one (.beside ?_), held_free hm⟩
    constructor <;> rfl
  | snapshot _ =>
    refine ⟨snapshot_moves p g c, held_free ?_⟩
    unfold Proc.snapshot
    dsimp only
    split <;> exact hm
  | dropSeen _ =>
    refine ⟨dropSeen_moves p g, held_free ?_⟩
    unfold Proc.dropSeen
    dsimp only
    split <;> exact hm
  | refresh _ => exact ⟨refresh_moves p g, refresh_held hm g⟩
  | resume _ _ _ _ _ => exact ⟨Move.one (.beside (.resumeWatcher _)), held_free hm⟩
  | hear _ => exact ⟨hear_moves p g, held_free hm⟩
  | aim _ _ => exact ⟨.refl, held_free hm⟩
  | connect _ => exact ⟨ensureConnected_moves p _ _ _, ensureConnected_held hm _ _ _⟩
  | depart _ => exact ⟨depart_moves p.session, held_free hm⟩
  | leave _ => exact ⟨Move.one (.beside (.forgetWatcher _)), held_free hm⟩
  | cleanup _ _ => exact ⟨Move.one .endPresence, held_free hm⟩

theorem stepLoop_moves {p : Proc} (h : p.Held) (g : Nat) (c : Choice) :
    Moves p.session (p.stepLoop g c).session ∧ (p.stepLoop g c).Held := by
  obtain hf | ⟨-, hm, hs⟩ := (stepLoop_cases p g c).free
  · exact ⟨hf.moves, h.frame hf.mu hf.car hf.lastUserPresence⟩
  · exact hs.moves hm

/-! ## Passive entry -/

theorem receive_talk (p : Proc) (bytes : Bytes) :
    (p.receive bytes).session = p.session ∨ Talk p.session (p.receive bytes).session := by
  unfold receive
  split
  · next hc ho =>
    split
    · exact .inr (.received hc ho)
    · exact .inl rfl
  · exact .inl rfl

theorem receive_held {p : Proc} (h : p.Held) (bytes : Bytes) : (p.receive bytes).Held := by
  unfold receive
  split
  · split
    · exact h.frame rfl rfl rfl
    · exact h
  · exact h

theorem offer_free (p : Proc) (link : Nat) : Free p (p.offer link) := by
  unfold offer
  split
  · split <;> exact .same rfl rfl
  · exact .same rfl rfl

theorem evict_free (p : Proc) (link : Nat) : Free p (p.evict link) := by
  unfold evict
  split <;> exact .same rfl rfl

variable {decoders : Decoders}

theorem take_free (p : Proc) (inbox : Nat) : Free p (p.take decoders inbox) := by
  unfold take
  split
  · dsimp only
    split
    · split <;> exact .same rfl rfl
    · exact .same rfl rfl
  · exact .same rfl rfl

theorem quit_free (p : Proc) (inbox : Nat) : Free p (p.quit inbox) := by
  unfold quit
  split <;> exact .same rfl rfl

theorem tell_free (p : Proc) (inbox : Nat) : Free p (p.tell inbox) := by
  unfold tell
  split
  · exact .note (h := .event _) trivial rfl rfl
  · exact .same rfl rfl

theorem grab_talk (p : Proc) (inbox : Nat) :
    (p.grab decoders inbox).session = p.session ∨ Talk p.session (p.grab decoders inbox).session := by
  unfold grab
  split
  · split
    · exact .inl rfl
    · next hin =>
      split
      · next hc _ =>
        refine .inr (.answered hc ?_)
        rw [not_or, not_not] at hin
        simp [hin.2]
      · exact .inl rfl
  · exact .inl rfl

theorem grab_held {p : Proc} (h : p.Held) (inbox : Nat) : (p.grab decoders inbox).Held := by
  unfold grab
  split
  · split
    · exact h.frame rfl rfl rfl
    · split
      · trivial
      · exact h.frame rfl rfl rfl
  · exact h

/-! ## All steps -/

theorem sectionNow_moves {p : Proc} (h : p.Held) {f : Proc → Proc}
    (hf : p.mu = none → Moves p.session (f p).session ∧ (f p).Held) :
    Moves p.session (p.sectionNow f).session ∧ (p.sectionNow f).Held := by
  unfold sectionNow
  by_cases hm : p.mu.isSome = true
  · rw [if_pos hm]
    exact ⟨.refl, h⟩
  · rw [if_neg hm]
    exact hf (by simpa using hm)

theorem quiet_moves {p : Proc} (h : p.Held) {e : Event} (hq : e.quiet = true) :
    Moves p.session (p.step decoders e).session ∧ (p.step decoders e).Held := by
  cases e with
  | tick ms =>
    have hb : Beside p.session (p.step decoders (.tick ms)).session := by constructor <;> rfl
    exact ⟨Move.one (.beside hb), h.frame rfl rfl rfl⟩
  | loop g c => exact stepLoop_moves h g c
  | locked r => exact ⟨stepLocked_moves h r, stepLocked_held h r⟩
  | command cmd key => exact sectionNow_moves h fun hm => ⟨ensureConnected_moves p _ _ _, ensureConnected_held hm _ _ _⟩
  | navigate key => exact sectionNow_moves h fun hm => ⟨ensureConnected_moves p _ _ _, ensureConnected_held hm _ _ _⟩
  | navigateSend =>
    refine sectionNow_moves h fun hm => ?_
    unfold navigateSend
    split
    · exact ⟨plain_moves p.session _ trivial, trivial⟩
    · exact ⟨.refl, h⟩
  | presenceStart cfg =>
    refine sectionNow_moves h fun hm => ?_
    split
    · exact ⟨Move.one (.startPresence cfg), held_free hm⟩
    · exact ⟨.refl, h⟩
  | idle => exact sectionNow_moves h fun hm => ⟨Move.one .teardown, held_free hm⟩
  | stop | receive | offer | evict | take | quit | grab | tell => cases hq

/-- What a step makes of the session. -/
def Effect (s t : State) : Prop := Moves s t ∨ Talk s t ∨ t = s.stopPresence.teardown

theorem step_moves {p : Proc} (h : p.Held) (e : Event) :
    Effect p.session (p.step decoders e).session ∧ (p.step decoders e).Held := by
  have hfree : ∀ {q : Proc}, Free p q → Effect p.session q.session ∧ q.Held :=
    fun hf => ⟨.inl hf.moves, h.frame hf.mu hf.car hf.lastUserPresence⟩
  have hsame : ∀ {s : State}, s = p.session ∨ Talk p.session s → Effect p.session s := by
    rintro s (rfl | ht)
    · exact .inl .refl
    · exact .inr (.inl ht)
  cases hq : e.quiet with
  | true => exact ⟨.inl (quiet_moves h hq).1, (quiet_moves h hq).2⟩
  | false =>
    cases e with
    | stop =>
      by_cases hm : p.mu.isSome = true
      · rw [show p.step decoders .stop = p from if_pos hm]
        exact ⟨.inl .refl, h⟩
      · rw [show p.step decoders .stop = p.onSession (fun s => s.stopPresence.teardown) from if_neg hm]
        exact ⟨.inr (.inr rfl), held_free (by simpa using hm)⟩
    | receive bytes => exact ⟨hsame (receive_talk p bytes), receive_held h bytes⟩
    | offer link => exact hfree (offer_free p link)
    | evict link => exact hfree (evict_free p link)
    | take inbox => exact hfree (take_free p inbox)
    | quit inbox => exact hfree (quit_free p inbox)
    | grab inbox => exact ⟨hsame (grab_talk p inbox), grab_held h inbox⟩
    | tell inbox => exact hfree (tell_free p inbox)
    | _ => cases hq

theorem held {ok : Proc → Event → Prop} {p : Proc} (h : (machine decoders).Reach ok p) : p.Held := by
  refine h.inv (I := Held) ?_ ?_
  · rintro p ⟨b, rfl⟩
    exact held_free rfl
  · intro p e hp _
    exact (step_moves hp e).2

/-- What every move keeps holds of the session in every run. -/
theorem session_inv {I : State → Prop} (h0 : ∀ b, I (start b).session) (hI : ∀ s t, Move s t → I s → I t)
    (hT : ∀ s t, Talk s t → I s → I t) (hS : ∀ s, I s → I s.stopPresence) {ok : Proc → Event → Prop} {p : Proc} (h : (machine decoders).Reach ok p) : I p.session := by
  refine Machine.Reach.inv_of (J := Held) (I := fun p => I p.session) (fun p hp => held hp) ?_ ?_ h
  · rintro p ⟨b, rfl⟩
    exact h0 b
  · intro p e hheld hi _
    rcases (step_moves hheld e).1 with hm | ht | hs
    · exact moves_inv hI hm hi
    · exact hT _ _ ht hi
    · rw [machine, hs]
      exact hI _ _ .teardown (hS _ hi)

end Proc

end ElectricEel.Session
