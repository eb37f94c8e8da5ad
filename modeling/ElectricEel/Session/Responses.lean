/-
  ElectricEel.Session.Responses — passive entry answers on its own connection (main.go
  `ensureAuthTapLocked`, `stopAuthTapLocked`, `authResponderLoop`; auth.go
  `sendAuthenticationResponse`; bluez/connection.go `flush`).

  A datagram goes from the RX loop of its connection through one inbox to one responder.
  The responder may wait for `mu` while the connection is replaced; what stops it then is
  that the session's inbox is another one, or none: an inbox is `authInbox` only while its
  own connection is `car` (`Linked`).

  A response is one call of Vehicle.Send (which may transmit it again while the vehicle
  refuses it for now); it counts as sent when the call is made.

  Proved: in every run each response answers a request received before on the connection
  that is live, at the level it asked for, UNLOCK or DRIVE, and no datagram is answered
  twice (`responses_on_their_link`).
-/
import ElectricEel.Session.Inside
import Mathlib.Data.List.Nodup

namespace ElectricEel.Session

open Lib Lib.Protowire Commands Wire Child

/-! ## What a response should be -/

/-- The datagrams answered, newest first. -/
def answers : List Happened → List Datagram
  | [] => []
  | .answered _ d _ :: rest => d :: answers rest
  | _ :: rest => answers rest

structure Answer (decoders : Decoders) (before : List Happened) (link : Nat) (d : Datagram) (payload : Bytes) : Prop where
  received : .received d ∈ before
  own : d.link = link
  live : liveLink before = some link
  level : ∃ req, parseAuthenticationRequest decoders d.bytes = some req ∧
    (req.requestedLevel = authLevelUnlock ∨ req.requestedLevel = authLevelDrive) ∧ responseLevel payload = some req.requestedLevel

theorem responsePayload_level {W : Codec} {level : Int} {payload : Bytes} (h : responsePayload W level = some payload) :
    (level = authLevelUnlock ∨ level = authLevelDrive) ∧ responseLevel payload = some level := by
  unfold responsePayload at h
  split at h
  · next hl =>
    cases h
    refine ⟨hl, ?_⟩
    rcases hl with rfl | rfl
    · have h1 : responseLevel (encodeAuthenticationResponse W (1 : Nat)) = some ((1 : Nat) : Int) := responseLevel_encode W (by decide)
      exact h1
    · have h2 : responseLevel (encodeAuthenticationResponse W (2 : Nat)) = some ((2 : Nat) : Int) := responseLevel_encode W (by decide)
      exact h2
  · cases h

/-! ## The session's tap -/

namespace State

/-- The inbox in use is of the connection in use. -/
structure Linked (s : State) : Prop where
  tapped : ∀ inbox, s.authInbox = some inbox → ∃ tap, s.taps[inbox]? = some tap ∧ s.car = some tap.link
  observed : ∀ inbox, s.observer = some inbox → s.authInbox = some inbox

theorem Linked.congr {s t : State} (h : s.Linked) (ha : t.authInbox = s.authInbox) (ht : t.taps = s.taps) (hc : t.car = s.car)
    (ho : t.observer = s.observer) : t.Linked := by
  refine ⟨?_, ?_⟩
  · rw [ha, ht, hc]
    exact h.tapped
  · rw [ha, ho]
    exact h.observed

theorem Linked.of_none {t : State} (ha : t.authInbox = none) (ho : t.observer = none) : t.Linked := by
  refine ⟨?_, ?_⟩
  · intro inbox hi
    rw [ha] at hi
    cases hi
  · intro inbox hi
    rw [ho] at hi
    cases hi

theorem Linked.ensureAuthTap {s : State} (h : s.Linked) (parent : Option Nat) : (s.ensureAuthTap parent).Linked := by
  unfold State.ensureAuthTap
  split
  · next link hc _ =>
    split
    · next inbox ha =>
      refine ⟨h.tapped, ?_⟩
      intro i hi
      cases hi
      exact ha
    · refine ⟨?_, ?_⟩
      · intro i hi
        cases hi
        exact ⟨{ link, parent }, by simp, hc⟩
      · intro i hi
        exact hi
  · exact h

theorem Linked.connected {s : State} (h : s.Linked) (hc : s.car = none) :
    ({ s with car := some s.links, links := s.links + 1 }.note (.connected s.links)).Linked := by
  have hn : s.authInbox = none := by
    cases ha : s.authInbox with
    | none => rfl
    | some inbox =>
      obtain ⟨tap, _, ht⟩ := h.tapped inbox ha
      rw [hc] at ht
      cases ht
  refine .of_none hn ?_
  show s.observer = none
  cases ho : s.observer with
  | none => rfl
  | some inbox =>
    have := h.observed inbox ho
    rw [hn] at this
    cases this

theorem teardown_tap (s : State) : s.teardown.authInbox = none ∧ s.teardown.observer = none := by
  unfold teardown
  dsimp only
  split <;> exact ⟨rfl, rfl⟩

theorem emitInside_tap (s : State) : s.emitInside.authInbox = s.authInbox ∧ s.emitInside.taps = s.taps ∧ s.emitInside.observer = s.observer := by
  unfold emitInside
  split
  · split <;> exact ⟨rfl, rfl, rfl⟩
  · exact ⟨rfl, rfl, rfl⟩

theorem Linked.move {s t : State} (hm : Move s t) (h : s.Linked) : t.Linked := by
  cases hm with
  | beside hb => exact h.congr hb.authInbox hb.taps hb.car hb.observer
  | note _ => exact h.congr rfl rfl rfl rfl
  | connected hc => exact h.connected hc
  | ready _ => exact h.congr rfl rfl rfl rfl
  | teardown => exact .of_none (teardown_tap s).1 (teardown_tap s).2
  | tap parent => exact h.ensureAuthTap parent
  | startPresence cfg => exact h.congr rfl rfl rfl rfl
  | endPresence => exact h.congr rfl rfl rfl rfl
  | priming => exact h.congr rfl rfl rfl rfl
  | status presence _ => exact h.congr rfl rfl rfl rfl
  | primeFailed _ => exact h.congr rfl rfl rfl rfl
  | inside => exact h.congr (emitInside_tap s).1 (emitInside_tap s).2.1 (emitInside_car s) (emitInside_tap s).2.2

theorem Linked.talk {s t : State} (ht : Talk s t) (h : s.Linked) : t.Linked := by
  cases ht with
  | received _ _ => exact h.congr rfl rfl rfl rfl
  | answered _ _ => exact h.congr rfl rfl rfl rfl

/-! ## What the others add to the log -/

/-- No response, and no tap goes away. -/
structure Grows (s t : State) : Prop where
  log : ∃ new, t.log = new ++ s.log ∧ ∀ e ∈ new, ∀ link d payload, e ≠ .answered link d payload
  taps : s.taps <+: t.taps

theorem Grows.same {s t : State} (hl : t.log = s.log) (ht : t.taps = s.taps) : Grows s t :=
  ⟨⟨[], hl, by simp⟩, ht ▸ List.prefix_refl _⟩

theorem Grows.cons {s t : State} {e : Happened} (hl : t.log = e :: s.log) (he : ∀ link d payload, e ≠ .answered link d payload)
    (ht : t.taps = s.taps) : Grows s t :=
  ⟨⟨[e], hl, by simpa using he⟩, ht ▸ List.prefix_refl _⟩

theorem Grows.trans {r s t : State} (h : Grows r s) (h' : Grows s t) : Grows r t := by
  obtain ⟨new, hl, he⟩ := h.log
  obtain ⟨new', hl', he'⟩ := h'.log
  refine ⟨⟨new' ++ new, by rw [hl', hl, List.append_assoc], ?_⟩, h.taps.trans h'.taps⟩
  intro e hm
  rcases List.mem_append.1 hm with hm | hm
  · exact he' e hm
  · exact he e hm

theorem teardown_grows (s : State) : Grows s s.teardown := by
  have ht : s.teardown.taps = s.taps := by
    unfold teardown
    dsimp only
    split <;> rfl
  cases hc : s.car with
  | none => exact .same (teardown_none hc) ht
  | some link => exact .cons (teardown_some hc) (by simp) ht

theorem ensureAuthTap_grows (s : State) (parent : Option Nat) : Grows s (s.ensureAuthTap parent) := by
  refine ⟨⟨[], ensureAuthTap_log s parent, by simp⟩, ?_⟩
  unfold ensureAuthTap
  split
  · split
    · exact List.prefix_refl _
    · exact List.prefix_append _ _
  · exact List.prefix_refl _

theorem stopPresence_grows (s : State) : Grows s s.stopPresence := by
  cases hp : s.presence with
  | none => exact .same (by simp [stopPresence, hp, clearConnectBackoff]) (by simp [stopPresence, hp, clearConnectBackoff, stopAuthTap])
  | some g =>
    exact .cons (e := .presenceOff) (by simp [stopPresence, hp, clearConnectBackoff]) (by simp)
      (by simp [stopPresence, hp, clearConnectBackoff, stopAuthTap, note])

theorem emitInside_grows (s : State) : Grows s s.emitInside := by
  unfold emitInside
  split
  · split
    · exact .same rfl rfl
    · exact .cons rfl (by simp) rfl
  · exact .same rfl rfl

theorem Move.grows {s t : State} (hm : Move s t) : Grows s t := by
  cases hm with
  | beside hb => exact .same hb.log hb.taps
  | @note h hp =>
    refine .cons rfl ?_ rfl
    rintro link d payload rfl
    exact hp
  | connected _ => exact .cons rfl (by simp) rfl
  | ready _ => exact .cons rfl (by simp) rfl
  | teardown => exact teardown_grows s
  | tap parent => exact ensureAuthTap_grows s parent
  | startPresence cfg => exact .cons rfl (by simp) rfl
  | endPresence => exact .cons rfl (by simp) rfl
  | priming => exact .same rfl rfl
  | status presence _ => exact .cons rfl (by simp) rfl
  | primeFailed _ => exact .cons rfl (by simp) rfl
  | inside => exact emitInside_grows s

theorem Moves.grows {s t : State} (h : Moves s t) : Grows s t := by
  induction h with
  | refl => exact .same rfl rfl
  | tail _ hst ih => exact ih.trans hst.grows

theorem answers_append {new log : List Happened} (h : ∀ e ∈ new, ∀ link d payload, e ≠ .answered link d payload) :
    answers (new ++ log) = answers log := by
  induction new with
  | nil => rfl
  | cons e new ih =>
    have hrest := ih fun x hx => h x (List.mem_cons_of_mem _ hx)
    have he := h e List.mem_cons_self
    cases e
    case answered link d payload => exact (he link d payload rfl).elim
    all_goals exact hrest

theorem Grows.answers {s t : State} (h : Grows s t) : answers t.log = answers s.log := by
  obtain ⟨new, hl, he⟩ := h.log
  rw [hl, answers_append he]

/-- A response of the longer log is one of the shorter. -/
theorem Grows.answered {s t : State} (h : Grows s t) {after before : List Happened} {link : Nat} {d : Datagram} {payload : Bytes}
    (hl : t.log = after ++ .answered link d payload :: before) : ∃ after', s.log = after' ++ .answered link d payload :: before := by
  obtain ⟨new, hnew, he⟩ := h.log
  rw [hnew] at hl
  rcases List.append_eq_append_iff.1 hl with ⟨a, ha, hs⟩ | ⟨c, hc, hs⟩
  · exact ⟨a, hs⟩
  · cases c with
    | nil => exact ⟨[], hs.symm⟩
    | cons x c =>
      injection hs with h1 _
      have hm : x ∈ new := by rw [hc]; simp
      exact (he x hm link d payload h1.symm).elim

end State

/-! ## The goroutines of passive entry -/

def Rx.datagram : Rx → Option Datagram
  | .offering d _ => some d
  | .full d => some d
  | .idle => none

def Responder.held : Responder → Option (Datagram × Int)
  | .holding d level => some (d, level)
  | _ => none

namespace Proc

open State

/-- A step of someone else: the channels are untouched, and no responder gets a datagram. -/
structure Aside (p q : Proc) : Prop where
  rx : q.rx = p.rx
  inbox : q.inbox = p.inbox
  datagrams : q.datagrams = p.datagrams
  responder : ∀ i, q.responder i = p.responder i ∨ (q.responder i).held = none

namespace Aside

theorem refl (p : Proc) : Aside p p := ⟨rfl, rfl, rfl, fun _ => .inl rfl⟩

theorem trans {p q r : Proc} (h : Aside p q) (h' : Aside q r) : Aside p r := by
  refine ⟨h'.rx.trans h.rx, h'.inbox.trans h.inbox, h'.datagrams.trans h.datagrams, ?_⟩
  intro i
  rcases h'.responder i with he | hn
  · rcases h.responder i with he' | hn'
    · exact .inl (he.trans he')
    · exact .inr (by rw [he, hn'])
  · exact .inr hn

theorem of_eq {p q : Proc} (hr : q.rx = p.rx) (hi : q.inbox = p.inbox) (hd : q.datagrams = p.datagrams)
    (hs : q.responder = p.responder) : Aside p q := ⟨hr, hi, hd, fun i => .inl (by rw [hs])⟩

end Aside

theorem onSession_aside (p : Proc) (f : State → State) : Aside p (p.onSession f) := .of_eq rfl rfl rfl rfl

theorem connected_aside (p : Proc) (c : Caller) (ok : Bool) : Aside p (p.connected c ok) := by
  unfold connected
  split <;> exact .of_eq rfl rfl rfl rfl

theorem ensureConnected_aside (p : Proc) (c : Caller) (target : Option Result) (key : Bool) :
    Aside p (p.ensureConnected c target key) := by
  unfold ensureConnected
  split
  · next s ok _ => exact Aside.trans (q := { p with session := s }) (.of_eq rfl rfl rfl rfl) (connected_aside _ _ _)
  · exact .of_eq rfl rfl rfl rfl
  · split
    · split
      · exact .refl p
      · exact .of_eq rfl rfl rfl rfl
    · exact .of_eq rfl rfl rfl rfl

theorem primed_aside (p : Proc) (g : Nat) (connecting : Bool) : Aside p (p.primed g connecting) := by
  unfold primed
  split
  · split <;> exact .of_eq rfl rfl rfl rfl
  · exact .of_eq rfl rfl rfl rfl

theorem watched_aside (p : Proc) (g : Nat) (ok : Bool) : Aside p (p.watched g ok) := by
  unfold watched
  dsimp only
  split <;> exact .of_eq rfl rfl rfl rfl

/-- The holder's responder has its answer. -/
theorem telling_aside {p q : Proc} {i : Nat} {ok : Bool} (hr : q.rx = p.rx) (hi : q.inbox = p.inbox) (hd : q.datagrams = p.datagrams)
    (hs : q.responder = upd p.responder i (.telling ok)) : Aside p q := by
  refine ⟨hr, hi, hd, fun j => ?_⟩
  rw [hs]
  by_cases hj : j = i
  · subst hj
    exact .inr (by simp [Responder.held])
  · exact .inl (upd_ne _ _ hj)

theorem stepLocked_aside (p : Proc) (r : Reply) : Aside p (p.stepLocked r) := by
  unfold stepLocked
  split
  · exact onSession_aside p _
  · exact .of_eq rfl rfl rfl rfl
  · exact connected_aside p _ _
  · exact .of_eq rfl rfl rfl rfl
  · exact (onSession_aside p _).trans (connected_aside _ _ _)
  · dsimp only
    split
    · exact .of_eq rfl rfl rfl rfl
    · next s _ => exact Aside.trans (q := { p with session := s }) (.of_eq rfl rfl rfl rfl) (connected_aside _ _ _)
  · exact (onSession_aside p _).trans (connected_aside _ _ _)
  · exact (onSession_aside p _).trans (connected_aside _ _ _)
  · exact connected_aside p _ _
  · exact connected_aside p _ _
  · split <;> exact .of_eq rfl rfl rfl rfl
  · split <;> exact .of_eq rfl rfl rfl rfl
  · exact (onSession_aside p _).trans (primed_aside _ _ _)
  · exact (onSession_aside p _).trans (primed_aside _ _ _)
  · exact telling_aside rfl rfl rfl rfl
  · split <;> exact telling_aside rfl rfl rfl rfl
  · exact onSession_aside p _
  · exact watched_aside p _ _
  · exact watched_aside p _ _
  · exact .refl p

theorem dropSeen_aside (p : Proc) (g : Nat) : Aside p (p.dropSeen g) := by
  unfold dropSeen
  dsimp only
  split <;> exact .of_eq rfl rfl rfl rfl

theorem snapshot_aside (p : Proc) (g : Nat) (c : Choice) : Aside p (p.snapshot g c) := by
  unfold snapshot
  dsimp only
  split <;> exact .of_eq rfl rfl rfl rfl

theorem refresh_aside (p : Proc) (g : Nat) : Aside p (p.refresh g) := by
  unfold refresh
  split
  · split <;> exact .of_eq rfl rfl rfl rfl
  · exact .of_eq rfl rfl rfl rfl

theorem stepLoop_aside (p : Proc) (g : Nat) (c : Choice) : Aside p (p.stepLoop g c) := by
  have hstep := stepLoop_cases p g c
  generalize p.stepLoop g c = q at hstep ⊢
  cases hstep with
  | stay | on _ | tell _ | pause _ | enter _ _ _ | exit _ _ | discover _ _ => exact .of_eq rfl rfl rfl rfl
  | locked _ _ hs =>
    cases hs with
    | snapshot _ => exact snapshot_aside p g c
    | dropSeen _ => exact dropSeen_aside p g
    | refresh _ => exact refresh_aside p g
    | connect _ => exact ensureConnected_aside p _ _ _
    | watch _ | entered _ | resume _ _ _ _ _ | hear _ | aim _ _ | depart _ | leave _ | cleanup _ _ => exact .of_eq rfl rfl rfl rfl

theorem sectionNow_aside {p : Proc} {f : Proc → Proc} (hf : Aside p (f p)) : Aside p (p.sectionNow f) := by
  unfold sectionNow
  split
  · exact .refl p
  · exact hf

variable {decoders : Decoders}

theorem quiet_aside (p : Proc) {e : Event} (hq : e.quiet = true) : Aside p (p.step decoders e) := by
  cases e with
  | tick ms => exact .of_eq rfl rfl rfl rfl
  | loop g c => exact stepLoop_aside p g c
  | locked r => exact stepLocked_aside p r
  | command cmd key =>
    simp only [step]
    refine sectionNow_aside ?_
    exact ensureConnected_aside p _ _ _
  | navigate key =>
    simp only [step]
    refine sectionNow_aside ?_
    exact ensureConnected_aside p _ _ _
  | navigateSend =>
    refine sectionNow_aside ?_
    unfold navigateSend
    split
    · exact .of_eq rfl rfl rfl rfl
    · exact .refl p
  | presenceStart cfg =>
    refine sectionNow_aside ?_
    split
    · exact .of_eq rfl rfl rfl rfl
    · exact .refl p
  | idle =>
    simp only [step]
    refine sectionNow_aside ?_
    exact .of_eq rfl rfl rfl rfl
  | stop | receive | offer | evict | take | quit | grab | tell => cases hq

/-! ## Where a datagram is -/

/-- The way of an inbox's datagrams: answered, held by the responder, queued. -/
def line (p : Proc) (i : Nat) : List Datagram :=
  (answers p.session.log).reverse.filter (·.inbox = i) ++ (((p.responder i).held.map Prod.fst).toList ++ p.inbox i)

def Has (p : Proc) (d : Datagram) : Prop := (∃ link, (p.rx link).datagram = some d) ∨ ∃ i, d ∈ p.line i

/-- Received on the connection its inbox was made for. -/
def Known (s : State) (d : Datagram) : Prop := .received d ∈ s.log ∧ ∃ tap, s.taps[d.inbox]? = some tap ∧ tap.link = d.link

theorem Known.grows {s t : State} {d : Datagram} (h : Known s d) (hg : Grows s t) : Known t d := by
  obtain ⟨hr, tap, ht, hl⟩ := h
  obtain ⟨new, hlog, _⟩ := hg.log
  refine ⟨?_, tap, ?_, hl⟩
  · rw [hlog]
    exact List.mem_append_right _ hr
  · obtain ⟨rest, hrest⟩ := hg.taps
    rw [← hrest, List.getElem?_append_left (List.getElem?_eq_some_iff.1 ht).1, ht]

variable (decoders) in
structure Traced (p : Proc) : Prop where
  known : ∀ d, p.Has d → Known p.session d ∧ d.ref < p.datagrams
  same : ∀ d e, p.Has d → p.Has e → d.ref = e.ref → d = e
  rxOnce : ∀ link link' d, (p.rx link).datagram = some d → (p.rx link').datagram = some d → link = link'
  rxNew : ∀ link d i, (p.rx link).datagram = some d → d ∉ p.line i
  once : ∀ i, (p.line i).Nodup
  inbox : ∀ i d, d ∈ p.inbox i → d.inbox = i
  held : ∀ i d level, (p.responder i).held = some (d, level) →
    d.inbox = i ∧ ∃ req, parseAuthenticationRequest decoders d.bytes = some req ∧ req.requestedLevel = level
  answered : ∀ after before link d payload, p.session.log = after ++ .answered link d payload :: before →
    Answer decoders before link d payload

namespace Traced

variable {p q : Proc}

/-- The lines only shrink; the rest is given. -/
theorem of_line (h : p.Traced decoders) (hk : ∀ d, Known p.session d → Known q.session d) (hd : q.datagrams = p.datagrams)
    (hrx : ∀ link d, (q.rx link).datagram = some d → (p.rx link).datagram = some d) (hline : ∀ i, (q.line i).Sublist (p.line i))
    (hinbox : ∀ i d, d ∈ q.inbox i → d.inbox = i)
    (hheld : ∀ i d level, (q.responder i).held = some (d, level) →
      d.inbox = i ∧ ∃ req, parseAuthenticationRequest decoders d.bytes = some req ∧ req.requestedLevel = level)
    (hans : ∀ after before link d payload, q.session.log = after ++ .answered link d payload :: before →
      Answer decoders before link d payload) : q.Traced decoders := by
  have hhas : ∀ d, q.Has d → p.Has d := by
    rintro d (⟨link, hl⟩ | ⟨i, hi⟩)
    · exact .inl ⟨link, hrx link d hl⟩
    · exact .inr ⟨i, (hline i).subset hi⟩
  refine ⟨?_, ?_, ?_, ?_, ?_, hinbox, hheld, hans⟩
  · intro d hq
    obtain ⟨h1, h2⟩ := h.known d (hhas d hq)
    exact ⟨hk d h1, hd ▸ h2⟩
  · exact fun d e hq he => h.same d e (hhas d hq) (hhas e he)
  · exact fun link link' d hl hl' => h.rxOnce link link' d (hrx _ _ hl) (hrx _ _ hl')
  · exact fun link d i hl hi => h.rxNew link d i (hrx _ _ hl) ((hline i).subset hi)
  · exact fun i => (h.once i).sublist (hline i)

/-- Datagrams may go, and none comes. -/
theorem shrink (h : p.Traced decoders) (hg : Grows p.session q.session) (hd : q.datagrams = p.datagrams)
    (hrx : ∀ link d, (q.rx link).datagram = some d → (p.rx link).datagram = some d)
    (hin : ∀ i, (q.inbox i).Sublist (p.inbox i))
    (hs : ∀ i, (q.responder i).held = (p.responder i).held ∨ (q.responder i).held = none) : q.Traced decoders := by
  refine h.of_line (fun d hk => hk.grows hg) hd hrx ?_ ?_ ?_ ?_
  · intro i
    unfold line
    rw [hg.answers]
    refine (List.Sublist.refl _).append (List.Sublist.append ?_ (hin i))
    rcases hs i with he | hn
    · rw [he]
    · rw [hn]
      exact List.nil_sublist _
  · exact fun i d hm => h.inbox i d ((hin i).subset hm)
  · intro i d level hl
    rcases hs i with he | hn
    · exact h.held i d level (he ▸ hl)
    · rw [hn] at hl
      cases hl
  · intro after before link d payload hl
    obtain ⟨after', hl'⟩ := hg.answered hl
    exact h.answered after' before link d payload hl'

theorem aside (h : p.Traced decoders) (hg : Grows p.session q.session) (ha : Aside p q) : q.Traced decoders := by
  refine h.shrink hg ha.datagrams (fun link d hl => ha.rx ▸ hl) (fun i => ?_) (fun i => ?_)
  · rw [ha.inbox]
  · rcases ha.responder i with he | hn
    · exact .inl (by rw [he])
    · exact .inr hn

theorem stop (h : p.Traced decoders) : (p.step decoders .stop).Traced decoders := by
  unfold Proc.step sectionNow
  dsimp only
  split
  · exact h
  · exact h.aside ((stopPresence_grows _).trans (teardown_grows _)) (onSession_aside p _)

theorem receive (h : p.Traced decoders) (hl : p.session.Linked) (bytes : Bytes) : (p.receive bytes).Traced decoders := by
  unfold Proc.receive
  split
  · next link inbox hc ho =>
    split
    · next hidle =>
      obtain ⟨tap, ht, hcar⟩ := hl.tapped inbox (hl.observed inbox ho)
      have hlink : tap.link = link := Option.some.inj (hcar.symm.trans hc)
      let d : Datagram := { ref := p.datagrams, link, inbox, bytes }
      let q := { p with datagrams := p.datagrams + 1, rx := upd p.rx link (.offering d false) }.onSession (·.note (.received d))
      have hline : ∀ i, q.line i = p.line i := fun _ => rfl
      have hrx : ∀ l e, (q.rx l).datagram = some e → (l = link ∧ e = d) ∨ (p.rx l).datagram = some e := by
        intro l e he
        by_cases hll : l = link
        · subst hll
          refine .inl ⟨rfl, ?_⟩
          have : (upd p.rx l (.offering d false) l).datagram = some e := he
          rw [upd_same] at this
          exact (Option.some.inj this).symm
        · refine .inr ?_
          have : (upd p.rx link (.offering d false) l).datagram = some e := he
          rwa [upd_ne _ _ hll] at this
      have hhas : ∀ e, q.Has e → e = d ∨ p.Has e := by
        rintro e (⟨l, hr⟩ | hi)
        · rcases hrx l e hr with ⟨_, rfl⟩ | hp
          · exact .inl rfl
          · exact .inr (.inl ⟨l, hp⟩)
        · exact .inr (.inr hi)
      -- d's reference is new
      have hnew : ¬ p.Has d := fun hp => Nat.lt_irrefl _ (h.known d hp).2
      have href : ∀ e, p.Has e → e.ref ≠ d.ref := fun e hp => Nat.ne_of_lt (h.known e hp).2
      have hg : Grows p.session q.session := .cons (e := .received d) rfl (by simp) rfl
      refine ⟨?_, ?_, ?_, ?_, h.once, h.inbox, h.held, ?_⟩
      · intro e he
        rcases hhas e he with rfl | hp
        · exact ⟨⟨List.mem_cons_self, tap, ht, hlink⟩, Nat.lt_succ_self _⟩
        · exact ⟨(h.known e hp).1.grows hg, Nat.lt_succ_of_lt (h.known e hp).2⟩
      · intro e f he hf hef
        rcases hhas e he with rfl | hp <;> rcases hhas f hf with rfl | hp'
        · rfl
        · exact (href f hp' hef.symm).elim
        · exact (href e hp hef).elim
        · exact h.same e f hp hp' hef
      · intro l l' e he he'
        rcases hrx l e he with ⟨h1, h2⟩ | hp <;> rcases hrx l' e he' with ⟨h3, h4⟩ | hp'
        · exact h1.trans h3.symm
        · exact (hnew (.inl ⟨l', h2 ▸ hp'⟩)).elim
        · exact (hnew (.inl ⟨l, h4 ▸ hp⟩)).elim
        · exact h.rxOnce l l' e hp hp'
      · intro l e i he hi
        rcases hrx l e he with ⟨_, rfl⟩ | hp
        · exact hnew (.inr ⟨i, hi⟩)
        · exact h.rxNew l e i hp hi
      · intro after before l e payload hlog
        obtain ⟨after', hl'⟩ := hg.answered hlog
        exact h.answered after' before l e payload hl'
    · exact h
  · exact h

/-- Into the queue, out of the RX loop's hands. -/
theorem offer (h : p.Traced decoders) (link : Nat) : (p.offer link).Traced decoders := by
  unfold Proc.offer
  split
  · next d again hr =>
    have hd : (p.rx link).datagram = some d := by rw [hr, Rx.datagram]
    split
    · let q : Proc := { p with inbox := upd p.inbox d.inbox (p.inbox d.inbox ++ [d]), rx := upd p.rx link .idle }
      have hrx : ∀ l e, (q.rx l).datagram = some e → l ≠ link ∧ (p.rx l).datagram = some e := by
        intro l e he
        have he' : (upd p.rx link .idle l).datagram = some e := he
        by_cases hl : l = link
        · subst hl
          rw [upd_same] at he'
          cases he'
        · rw [upd_ne _ _ hl] at he'
          exact ⟨hl, he'⟩
      have hself : q.line d.inbox = p.line d.inbox ++ [d] := by
        have hi : q.inbox d.inbox = p.inbox d.inbox ++ [d] := upd_same _ _ _
        simp only [line, hi, ← List.append_assoc]
        rfl
      have hother : ∀ i, i ≠ d.inbox → q.line i = p.line i := by
        intro i hne
        have hi : q.inbox i = p.inbox i := upd_ne _ _ hne
        simp only [line, hi]
        rfl
      have hmem : ∀ i e, e ∈ q.line i → e = d ∨ e ∈ p.line i := by
        intro i e he
        by_cases hi : i = d.inbox
        · subst hi
          rw [hself] at he
          rcases List.mem_append.1 he with he | he
          · exact .inr he
          · exact .inl (List.mem_singleton.1 he)
        · rw [hother i hi] at he
          exact .inr he
      have hhas : ∀ e, q.Has e → p.Has e := by
        rintro e (⟨l, hl⟩ | ⟨i, hi⟩)
        · exact .inl ⟨l, (hrx l e hl).2⟩
        · rcases hmem i e hi with rfl | hp
          · exact .inl ⟨link, hd⟩
          · exact .inr ⟨i, hp⟩
      refine ⟨fun e he => h.known e (hhas e he), fun e f he hf => h.same e f (hhas e he) (hhas f hf), ?_, ?_, ?_, ?_, h.held, h.answered⟩
      · exact fun l l' e he he' => h.rxOnce l l' e (hrx l e he).2 (hrx l' e he').2
      · intro l e i he hi
        rcases hmem i e hi with rfl | hp
        · exact (hrx l e he).1 (h.rxOnce l link e (hrx l e he).2 hd)
        · exact h.rxNew l e i (hrx l e he).2 hp
      · intro i
        by_cases hi : i = d.inbox
        · subst hi
          rw [hself]
          refine List.nodup_append.2 ⟨h.once _, by simp, ?_⟩
          intro a ha b hb hab
          rw [hab, List.mem_singleton.1 hb] at ha
          exact h.rxNew link d _ hd ha
        · rw [hother i hi]
          exact h.once i
      · intro i e he
        by_cases hi : i = d.inbox
        · subst hi
          have he' : e ∈ upd p.inbox d.inbox (p.inbox d.inbox ++ [d]) d.inbox := he
          rw [upd_same] at he'
          rcases List.mem_append.1 he' with he' | he'
          · exact h.inbox _ e he'
          · rw [List.mem_singleton.1 he']
        · have he' : e ∈ upd p.inbox d.inbox (p.inbox d.inbox ++ [d]) i := he
          rw [upd_ne _ _ hi] at he'
          exact h.inbox i e he'
    · -- the queue is full: dropped at the second try
      refine h.shrink (.same rfl rfl) rfl ?_ (fun i => .refl _) (fun i => .inl rfl)
      intro l e he
      have he' : (upd p.rx link (if again then .idle else .full d) l).datagram = some e := he
      by_cases hl : l = link
      · subst hl
        rw [upd_same] at he'
        cases again with
        | true => cases he'
        | false =>
          rw [hd]
          exact he'
      · rwa [upd_ne _ _ hl] at he'
  · exact h

theorem evict (h : p.Traced decoders) (link : Nat) : (p.evict link).Traced decoders := by
  unfold Proc.evict
  split
  · next d hr =>
    refine h.shrink (.same rfl rfl) rfl ?_ ?_ (fun i => .inl rfl)
    · intro l e he
      have he' : (upd p.rx link (.offering d true) l).datagram = some e := he
      by_cases hl : l = link
      · subst hl
        rw [upd_same] at he'
        rw [hr]
        exact he'
      · rwa [upd_ne _ _ hl] at he'
    · intro i
      show (upd p.inbox d.inbox (p.inbox d.inbox).tail i).Sublist (p.inbox i)
      by_cases hi : i = d.inbox
      · subst hi
        rw [upd_same]
        exact List.tail_sublist _
      · rw [upd_ne _ _ hi]
  · exact h

theorem upd_held {r : Nat → Responder} {inbox i : Nat} {v : Responder} (hv : v.held = none) :
    (upd r inbox v i).held = (r i).held ∨ (upd r inbox v i).held = none := by
  by_cases hi : i = inbox
  · subst hi
    exact .inr (by rw [upd_same, hv])
  · exact .inl (by rw [upd_ne _ _ hi])

theorem quit (h : p.Traced decoders) (inbox : Nat) : (p.quit inbox).Traced decoders := by
  unfold Proc.quit
  split
  · exact h.shrink (.same rfl rfl) rfl (fun _ _ he => he) (fun _ => .refl _) fun _ => upd_held rfl
  · exact h

theorem tell (h : p.Traced decoders) (inbox : Nat) : (p.tell inbox).Traced decoders := by
  unfold Proc.tell
  split
  · next ok _ =>
    exact h.shrink (.cons (e := .event _) rfl (by simp) rfl) rfl (fun _ _ he => he) (fun _ => .refl _) fun _ => upd_held rfl
  · exact h

/-- From the queue to the responder. -/
theorem take (h : p.Traced decoders) (inbox : Nat) : (p.take decoders inbox).Traced decoders := by
  unfold Proc.take
  split
  · next d rest hw hi =>
    have htail : ∀ i, (upd p.inbox inbox rest i).Sublist (p.inbox i) := by
      intro i
      by_cases hne : i = inbox
      · subst hne
        rw [upd_same, hi]
        exact List.sublist_cons_self d rest
      · rw [upd_ne _ _ hne]
    have hdrop : ({ p with inbox := upd p.inbox inbox rest } : Proc).Traced decoders :=
      h.shrink (.same rfl rfl) rfl (fun _ _ he => he) htail fun _ => .inl rfl
    dsimp only
    split
    · next req hreq =>
      split
      · exact hdrop
      · refine h.of_line (fun _ hk => hk) rfl (fun _ _ he => he) ?_ ?_ ?_ h.answered
        · intro i
          by_cases hne : i = inbox
          · subst hne
            simp [line, hi, hw, Responder.held]
          · simp [line, upd_ne _ _ hne]
        · exact fun i e he => h.inbox i e ((htail i).subset he)
        · intro i e level he
          have he' : (upd p.responder inbox (.holding d req.requestedLevel) i).held = some (e, level) := he
          by_cases hne : i = inbox
          · subst hne
            rw [upd_same] at he'
            cases he'
            exact ⟨h.inbox i d (by rw [hi]; exact List.mem_cons_self), req, hreq, rfl⟩
          · rw [upd_ne _ _ hne] at he'
            exact h.held i e level he'
    · exact hdrop
  · exact h

/-- The responder has `mu`: only its own inbox's turn, on its own connection. -/
theorem grab (h : p.Traced decoders) (hl : p.session.Linked) (hin : p.session.Inside) (inbox : Nat) : (p.grab decoders inbox).Traced decoders := by
  have hdrop : ∀ v : Responder, v.held = none → ({ p with responder := upd p.responder inbox v } : Proc).Traced decoders :=
    fun v hv => h.shrink (.same rfl rfl) rfl (fun _ _ he => he) (fun _ => .refl _) fun _ => upd_held hv
  unfold Proc.grab
  split
  · next d level hr hm =>
    split
    · exact hdrop .gone rfl
    · next hmine =>
      rw [not_or, not_not] at hmine
      split
      · next link payload hc hp =>
        have hheld : (p.responder inbox).held = some (d, level) := by rw [hr, Responder.held]
        obtain ⟨rfl, req, hreq, rfl⟩ := h.held inbox d level hheld
        have hhas : p.Has d := .inr ⟨d.inbox, by simp [line, hheld]⟩
        obtain ⟨⟨hrec, tap, ht, hlink⟩, _⟩ := h.known d hhas
        have hown : d.link = link := by
          obtain ⟨tap', ht', hc'⟩ := hl.tapped d.inbox hmine.2
          rw [ht] at ht'
          cases ht'
          exact hlink.symm.trans (Option.some.inj (hc'.symm.trans hc))
        have hanswer : Answer decoders p.session.log link d payload := by
          refine ⟨hrec, hown, hin.car.trans hc, req, hreq, ?_⟩
          exact responsePayload_level hp
        refine h.of_line (fun e hk => ⟨List.mem_cons_of_mem _ hk.1, hk.2⟩) rfl (fun _ _ he => he) ?_ h.inbox ?_ ?_
        · intro i
          by_cases hi : i = d.inbox
          · subst hi
            simp [line, onSession, answers, hr, Responder.held]
          · have hne : d.inbox ≠ i := fun he => hi he.symm
            simp [line, onSession, answers, upd_ne _ _ hi, hne]
        · intro i e l he
          have he' : (upd p.responder d.inbox .sending i).held = some (e, l) := he
          rcases upd_held (r := p.responder) (i := i) (v := .sending) rfl with hs | hn
          · exact h.held i e l (hs ▸ he')
          · rw [hn] at he'
            cases he'
        · intro after before l e pl hlog
          cases after with
          | nil =>
            injection hlog with h1 h2
            cases h1
            exact h2 ▸ hanswer
          | cons x after =>
            injection hlog with _ h2
            exact h.answered after before l e pl h2
      · exact hdrop (.telling false) rfl
  · exact h

theorem step (h : p.Traced decoders) (hh : p.Held) (hl : p.session.Linked) (hin : p.session.Inside) (e : Event) :
    (p.step decoders e).Traced decoders := by
  cases hq : e.quiet with
  | true => exact h.aside (quiet_moves hh hq).1.grows (quiet_aside p hq)
  | false =>
    cases e with
    | stop => exact h.stop
    | receive bytes => exact h.receive hl bytes
    | offer link => exact h.offer link
    | evict link => exact h.evict link
    | take inbox => exact h.take inbox
    | quit inbox => exact h.quit inbox
    | grab inbox => exact h.grab hl hin inbox
    | tell inbox => exact h.tell inbox
    | _ => cases hq

theorem start (b : Backend) : (Proc.start b).Traced decoders := by
  have hline : ∀ i, (Proc.start b).line i = [] := fun _ => rfl
  have hhas : ∀ d, ¬ (Proc.start b).Has d := by
    rintro d (⟨link, hl⟩ | ⟨i, hi⟩)
    · cases hl
    · rw [hline] at hi
      cases hi
  refine ⟨fun d hd => (hhas d hd).elim, fun d _ hd => (hhas d hd).elim, fun link _ d hl => (hhas d (.inl ⟨link, hl⟩)).elim, ?_, ?_, ?_, ?_, ?_⟩
  · exact fun link d i hl => (hhas d (.inl ⟨link, hl⟩)).elim
  · intro i
    rw [hline]
    exact List.nodup_nil
  · intro i d hd
    cases hd
  · intro i d level hl
    cases hl
  · intro after before link d payload hl
    cases after <;> cases hl

end Traced

/-! ## All runs -/

variable {ok : Proc → Event → Prop}

theorem linked {p : Proc} (h : (machine decoders).Reach ok p) : p.session.Linked :=
  session_inv (fun _ => .of_none rfl rfl) (fun _ _ => Linked.move) (fun _ _ => Linked.talk) (fun _ _ => .of_none rfl rfl) h

theorem traced {p : Proc} (h : (machine decoders).Reach ok p) : p.Traced decoders := by
  have hin : ∀ q, (machine decoders).Reach ok q → q.session.Inside :=
    fun _ hq => session_inv inside_start (fun _ _ => Inside.move) (fun _ _ => Inside.talk) (fun _ => Inside.stopPresence) hq
  refine Machine.Reach.inv_of (J := fun q => q.Held ∧ q.session.Linked ∧ q.session.Inside) (I := (·.Traced decoders))
    (fun q hq => ⟨held hq, linked hq, hin q hq⟩) ?_ ?_ h
  · rintro q ⟨b, rfl⟩
    exact .start b
  · intro q e hJ hq _
    exact hq.step hJ.1 hJ.2.1 hJ.2.2 e

end Proc

theorem responses_on_their_link {decoders : Decoders} {ok : Proc → Event → Prop} {p : Proc}
    (h : (Proc.machine decoders).Reach ok p) :
    (∀ after before link d payload, p.session.log = after ++ .answered link d payload :: before →
      Answer decoders before link d payload) ∧ ((answers p.session.log).map (·.ref)).Nodup := by
  have ht := Proc.traced h
  refine ⟨ht.answered, ?_⟩
  have hmem : ∀ d ∈ answers p.session.log, d ∈ p.line d.inbox := by
    intro d hd
    exact List.mem_append_left _ (List.mem_filter.2 ⟨List.mem_reverse.2 hd, by simp⟩)
  refine List.Nodup.map_on ?_ ?_
  · intro d hd e he hde
    exact ht.same d e (.inr ⟨_, hmem d hd⟩) (.inr ⟨_, hmem e he⟩) hde
  · -- two answers to d would both stand in the line of its inbox
    refine List.nodup_iff_count_le_one.2 fun d => ?_
    have hline : ((answers p.session.log).reverse.filter (·.inbox = d.inbox)).Nodup :=
      (ht.once d.inbox).sublist (List.sublist_append_left _ _)
    have hcount := List.nodup_iff_count_le_one.1 hline d
    rwa [List.count_filter (by simp), List.count_reverse] at hcount

/-- Presence mode connects, the vehicle asks for UNLOCK, the responder answers. -/
def unlocking : List Event :=
  [.receive [26, 2, 24, 1], .offer 0, .take 0, .grab 0]

set_option maxRecDepth 8192 in
theorem responses_on_their_link_unlock :
    let p := (Proc.machine plainDecoders).run (Proc.start .bluez) (arrival 1 ++ unlocking)
    ∃ before d payload, p.session.log = .answered 0 d payload :: before ∧ Answer plainDecoders before 0 d payload := by
  intro p
  have h0 : (Proc.machine plainDecoders).Reach (fun _ _ => True) (Proc.start .bluez) := .init ⟨.bluez, rfl⟩
  have hr := h0.run (arrival 1 ++ unlocking) (.of_forall (fun _ _ => trivial) _ _)
  have hl : p.session.log = [] ++ .answered 0 ⟨0, 0, 0, [26, 2, 24, 1]⟩ (encodeAuthenticationResponse wire 1) :: p.session.log.tail := by
    decide +kernel
  exact ⟨_, _, _, hl, (responses_on_their_link hr).1 _ _ _ _ _ hl⟩

end ElectricEel.Session
