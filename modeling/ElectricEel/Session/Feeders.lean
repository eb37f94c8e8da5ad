/-
  ElectricEel.Session.Feeders — the inboxes of the running child (main.go
  `ensureAuthTapLocked`, `enqueueAuthDatagram`).

  An inbox is made with a connection's tap and only that connection's observer sends to it,
  so it has one producer, the RX loop, and one consumer, its responder.

  Proved: no two RX loops feed one inbox (`one_feeder`); an RX loop and its inbox are the
  producer and the channel of a run of `AuthInbox` (`inbox_simulated`); so the second offer
  always finds room and no datagram is lost but to a newer one (`offer_finds_room`).
-/
import ElectricEel.Session.AuthInbox
import ElectricEel.Session.Responses

namespace ElectricEel.Session

open Lib Lib.Protowire Child

/-! ## Steps on the inboxes -/

/-- What a step does to the RX loops and the inboxes. -/
inductive Hands (p q : Proc) : Prop
  | same : q.rx = p.rx → q.inbox = p.inbox → Hands p q
  | received {link : Nat} {d : Datagram} : p.rx link = .idle → d.link = link → q.rx = upd p.rx link (.offering d false) →
      q.inbox = p.inbox → Hands p q
  | queued {link : Nat} {d : Datagram} {again : Bool} : p.rx link = .offering d again → (p.inbox d.inbox).length < Proc.inboxSize →
      q.rx = upd p.rx link .idle → q.inbox = upd p.inbox d.inbox (p.inbox d.inbox ++ [d]) → Hands p q
  | refused {link : Nat} {d : Datagram} {again : Bool} : p.rx link = .offering d again → ¬(p.inbox d.inbox).length < Proc.inboxSize →
      q.rx = upd p.rx link (if again then .idle else .full d) → q.inbox = p.inbox → Hands p q
  | evicted {link : Nat} {d : Datagram} : p.rx link = .full d → q.rx = upd p.rx link (.offering d true) →
      q.inbox = upd p.inbox d.inbox (p.inbox d.inbox).tail → Hands p q
  | taken {i : Nat} {d : Datagram} {rest : List Datagram} : p.inbox i = d :: rest → q.rx = p.rx → q.inbox = upd p.inbox i rest → Hands p q

/-- Where an RX loop is with respect to an inbox. -/
def Rx.enqueue (i : Nat) : Rx → Enqueue Datagram
  | .offering d again => if d.inbox = i then (if again then .again d else .offer d) else .idle
  | .full d => if d.inbox = i then .drain d else .idle
  | .idle => .idle

theorem Rx.enqueue_offering (d : Datagram) (again : Bool) :
    (Rx.offering d again).enqueue d.inbox = if again then .again d else .offer d := if_pos rfl

theorem Rx.enqueue_full (d : Datagram) : (Rx.full d).enqueue d.inbox = .drain d := if_pos rfl

theorem Rx.enqueue_datagram {v : Rx} {i : Nat} (h : v.enqueue i ≠ .idle) : ∃ d, v.datagram = some d ∧ d.inbox = i := by
  cases v with
  | idle => exact absurd rfl h
  | offering d again =>
    refine ⟨d, rfl, ?_⟩
    by_contra hn
    exact h (if_neg hn)
  | full d =>
    refine ⟨d, rfl, ?_⟩
    by_contra hn
    exact h (if_neg hn)

namespace Proc

variable {decoders : Decoders} {ok : Proc → Event → Prop} {p : Proc}

theorem step_hands (p : Proc) (e : Event) : Hands p (p.step decoders e) := by
  cases hq : e.quiet with
  | true => exact .same (quiet_aside p hq).rx (quiet_aside p hq).inbox
  | false =>
    cases e with
    | stop =>
      unfold Proc.step
      dsimp only
      unfold sectionNow
      split <;> exact .same rfl rfl
    | receive bytes =>
      unfold Proc.step receive
      dsimp only
      split
      · split
        · next hidle => exact .received hidle rfl rfl rfl
        · exact .same rfl rfl
      · exact .same rfl rfl
    | offer link =>
      unfold Proc.step offer
      dsimp only
      split
      · next hr =>
        split
        · next hroom => exact .queued hr hroom rfl rfl
        · next hfull => exact .refused hr hfull rfl rfl
      · exact .same rfl rfl
    | evict link =>
      unfold Proc.step evict
      dsimp only
      split
      · next hr => exact .evicted hr rfl rfl
      · exact .same rfl rfl
    | take inbox =>
      unfold Proc.step take
      dsimp only
      split
      · next hi =>
        split
        · split <;> exact .taken hi rfl rfl
        · exact .taken hi rfl rfl
      · exact .same rfl rfl
    | quit inbox =>
      unfold Proc.step quit
      dsimp only
      split <;> exact .same rfl rfl
    | grab inbox =>
      unfold Proc.step grab
      dsimp only
      split
      · split
        · exact .same rfl rfl
        · split <;> exact .same rfl rfl
      · exact .same rfl rfl
    | tell inbox =>
      unfold Proc.step tell
      dsimp only
      split <;> exact .same rfl rfl
    | _ => cases hq

/-! ## One RX loop an inbox -/

/-- An RX loop has only datagrams of its own connection. -/
def Carries (p : Proc) : Prop := ∀ link d, (p.rx link).datagram = some d → d.link = link

theorem Carries.of_upd {q : Proc} (h : p.Carries) {link : Nat} {v : Rx} (hrx : q.rx = upd p.rx link v)
    (hv : ∀ d, v.datagram = some d → d.link = link) : q.Carries := by
  intro l d hd
  rw [hrx] at hd
  by_cases hl : l = link
  · subst hl
    rw [upd_same] at hd
    exact hv d hd
  · rw [upd_ne _ _ hl] at hd
    exact h l d hd

theorem Carries.step (h : p.Carries) {q : Proc} (hs : Hands p q) : q.Carries := by
  cases hs with
  | same hrx _ =>
    intro link d hd
    exact h link d (hrx ▸ hd)
  | received _ hd hrx _ =>
    refine h.of_upd hrx ?_
    intro e he
    cases he
    exact hd
  | queued _ _ hrx _ =>
    refine h.of_upd hrx ?_
    intro e he
    cases he
  | @refused link d again hr _ hrx _ =>
    have hd : d.link = link := h link d (by rw [hr, Rx.datagram])
    refine h.of_upd hrx ?_
    intro e he
    cases again with
    | true => cases he
    | false =>
      cases he
      exact hd
  | @evicted link d hr hrx _ =>
    have hd : d.link = link := h link d (by rw [hr, Rx.datagram])
    refine h.of_upd hrx ?_
    intro e he
    cases he
    exact hd
  | taken _ hrx _ =>
    intro link d hd
    exact h link d (hrx ▸ hd)

theorem carries (h : (machine decoders).Reach ok p) : p.Carries := by
  refine h.inv (I := Carries) ?_ fun p e hp _ => hp.step (step_hands p e)
  rintro p ⟨b, rfl⟩ link d hd
  cases hd

/-- Two RX loops never feed one inbox. -/
theorem one_feeder (h : (machine decoders).Reach ok p) {link link' : Nat} {d d' : Datagram} (hd : (p.rx link).datagram = some d)
    (hd' : (p.rx link').datagram = some d') (hi : d.inbox = d'.inbox) : link = link' := by
  obtain ⟨_, tap, ht, hl⟩ := ((traced h).known d (.inl ⟨link, hd⟩)).1
  obtain ⟨_, tap', ht', hl'⟩ := ((traced h).known d' (.inl ⟨link', hd'⟩)).1
  rw [hi, ht', Option.some.injEq] at ht
  rw [← carries h link d hd, ← carries h link' d' hd', ← hl, ← hl', ht]

/-! ## The RX loop and the responder as producer and consumer -/

/-- An RX loop stands at `pc` with respect to the inbox, and no other is at it. -/
structure Feeds (p : Proc) (i : Nat) (pc : Enqueue Datagram) : Prop where
  loop : ∃ link, (p.rx link).enqueue i = pc
  others : ∀ link, (p.rx link).enqueue i = pc ∨ (p.rx link).enqueue i = .idle

def OneFeeder (p : Proc) : Prop :=
  ∀ link link' d d', (p.rx link).datagram = some d → (p.rx link').datagram = some d' → d.inbox = d'.inbox → link = link'

theorem OneFeeder.others (h : p.OneFeeder) {link : Nat} {d : Datagram} (hd : (p.rx link).datagram = some d) {l : Nat} (hl : l ≠ link) :
    (p.rx l).enqueue d.inbox = .idle := by
  by_contra hn
  obtain ⟨e, he, hi⟩ := Rx.enqueue_datagram hn
  exact hl (h l link e d he hd hi)

namespace Feeds

variable {q : Proc} {i : Nat} {pc : Enqueue Datagram}

/-- The inbox's own loop moves. -/
theorem own {link : Nat} {v : Rx} (h : ∀ l, l ≠ link → (p.rx l).enqueue i = .idle) (hrx : q.rx = upd p.rx link v)
    (hv : v.enqueue i = pc) : q.Feeds i pc := by
  refine ⟨⟨link, ?_⟩, ?_⟩
  · rw [hrx, upd_same, hv]
  · intro l
    rw [hrx]
    by_cases hl : l = link
    · subst hl
      rw [upd_same]
      exact .inl hv
    · rw [upd_ne _ _ hl]
      exact .inr (h l hl)

/-- A loop moves that is idle for the inbox, before and after. -/
theorem other (h : p.Feeds i pc) {link : Nat} {v : Rx} (hrx : q.rx = upd p.rx link v) (hb : (p.rx link).enqueue i = .idle)
    (hv : v.enqueue i = .idle) : q.Feeds i pc := by
  have hsame : ∀ l, (q.rx l).enqueue i = (p.rx l).enqueue i := by
    intro l
    rw [hrx]
    by_cases hl : l = link
    · subst hl
      rw [upd_same, hv, hb]
    · rw [upd_ne _ _ hl]
  obtain ⟨l, hl⟩ := h.loop
  refine ⟨⟨l, (hsame l).trans hl⟩, ?_⟩
  intro l
  rw [hsame]
  exact h.others l

/-- The loop that has a datagram for the inbox is where the producer is. -/
theorem at_loop (h : p.Feeds i pc) (link : Nat) (hne : (p.rx link).enqueue i ≠ .idle) : pc = (p.rx link).enqueue i :=
  ((h.others link).resolve_right hne).symm

end Feeds

/-- The channel and the producer of `y` are an inbox of `p` and its RX loop. -/
structure Simulated (i : Nat) (y : AuthInbox Datagram inboxSize) (p : Proc) : Prop where
  buffer : y.chan.buffer = p.inbox i
  waiting : y.chan.waiting = false
  feeds : p.Feeds i y.pc

namespace Simulated

variable {q : Proc} {i : Nat} {y : AuthInbox Datagram inboxSize} {link : Nat} {d : Datagram} {again : Bool}

theorem receive (h : Simulated i y p) (hq : q.OneFeeder) (hidle : p.rx link = .idle) (hrx : q.rx = upd p.rx link (.offering d false))
    (hin : q.inbox = p.inbox) : ∃ es, Simulated i ((AuthInbox.machine Datagram inboxSize).run y es) q := by
  have hbuffer : y.chan.buffer = q.inbox i := by
    rw [hin]
    exact h.buffer
  by_cases hi : d.inbox = i
  · subst hi
    have hothers : ∀ l, l ≠ link → (p.rx l).enqueue d.inbox = .idle := by
      intro l hl
      have hd : (q.rx link).datagram = some d := by rw [hrx, upd_same, Rx.datagram]
      have hother := hq.others hd hl
      rwa [hrx, upd_ne _ _ hl] at hother
    have hpc : y.pc = .idle := by
      obtain ⟨l, hl⟩ := h.feeds.loop
      by_cases he : l = link
      · rw [← hl, he, hidle, Rx.enqueue]
      · rw [← hl, hothers l he]
    refine ⟨[.call d], ?_⟩
    show Simulated _ (y.step (.call d)) q
    unfold AuthInbox.step
    rw [hpc]
    exact ⟨hbuffer, h.waiting, .own hothers hrx (if_pos rfl)⟩
  · exact ⟨[], hbuffer, h.waiting, h.feeds.other hrx (by rw [hidle, Rx.enqueue]) (if_neg hi)⟩

/-- The producer is at one of its two offers. -/
theorem offering (h : Simulated d.inbox y p) (hr : p.rx link = .offering d again) : y.pc = if again then .again d else .offer d := by
  have hpc := h.feeds.at_loop link
  rw [hr, Rx.enqueue_offering] at hpc
  apply hpc
  split
  · intro he
    cases he
  · intro he
    cases he

/-- A loop at another inbox. -/
theorem elsewhere (h : Simulated i y p) (hbuffer : q.inbox i = p.inbox i) {v : Rx} (hrx : q.rx = upd p.rx link v)
    (hb : (p.rx link).enqueue i = .idle) (hv : v.enqueue i = .idle) :
    ∃ es, Simulated i ((AuthInbox.machine Datagram inboxSize).run y es) q :=
  ⟨[], h.buffer.trans hbuffer.symm, h.waiting, h.feeds.other hrx hb hv⟩

theorem queue (h : Simulated i y p) (hp : p.OneFeeder) (hr : p.rx link = .offering d again)
    (hroom : (p.inbox d.inbox).length < inboxSize) (hrx : q.rx = upd p.rx link .idle)
    (hin : q.inbox = upd p.inbox d.inbox (p.inbox d.inbox ++ [d])) :
    ∃ es, Simulated i ((AuthInbox.machine Datagram inboxSize).run y es) q := by
  by_cases hi : d.inbox = i
  · subst hi
    have hd : (p.rx link).datagram = some d := by rw [hr, Rx.datagram]
    have hpc := h.offering hr
    obtain ⟨⟨c, got⟩, hs⟩ : ∃ s, y.chan.trySend d = some s := by
      refine Option.ne_none_iff_exists'.1 fun hn => ?_
      have hfull := ((Chan.trySend_none_iff _ _).1 hn).2
      rw [h.buffer] at hfull
      omega
    obtain ⟨hlast, hw, hgot⟩ := Chan.trySend_some hs
    rw [hgot h.waiting] at hlast
    have hsel : y.select = y.sent d (c, got) := by
      unfold AuthInbox.select
      rw [hpc]
      cases again with
      | true => simp only [if_true, hs]
      | false => simp only [Bool.false_eq_true, if_false, hs]
    refine ⟨[.select], ?_⟩
    show Simulated _ y.select q
    rw [hsel]
    refine ⟨?_, hw, .own (fun l hl => hp.others hd hl) hrx rfl⟩
    rw [hin, upd_same, ← h.buffer]
    exact hlast
  · refine h.elsewhere ?_ hrx ?_ rfl
    · rw [hin, upd_ne _ _ (Ne.symm hi)]
    · rw [hr]
      exact if_neg hi

theorem refuse (h : Simulated i y p) (hp : p.OneFeeder) (hr : p.rx link = .offering d again)
    (hfull : ¬(p.inbox d.inbox).length < inboxSize) (hrx : q.rx = upd p.rx link (if again then .idle else .full d))
    (hin : q.inbox = p.inbox) : ∃ es, Simulated i ((AuthInbox.machine Datagram inboxSize).run y es) q := by
  by_cases hi : d.inbox = i
  · subst hi
    have hd : (p.rx link).datagram = some d := by rw [hr, Rx.datagram]
    have hpc := h.offering hr
    have hs : y.chan.trySend d = none := by
      have hbound := y.chan.bound
      refine (Chan.trySend_none_iff _ _).2 ⟨h.waiting, ?_⟩
      rw [h.buffer] at hbound ⊢
      omega
    refine ⟨[.select], ?_⟩
    show Simulated _ y.select q
    unfold AuthInbox.select
    rw [hpc]
    cases again with
    | true =>
      simp only [if_true, hs]
      exact ⟨hin ▸ h.buffer, h.waiting, .own (fun l hl => hp.others hd hl) hrx rfl⟩
    | false =>
      simp only [Bool.false_eq_true, if_false, hs]
      exact ⟨hin ▸ h.buffer, h.waiting, .own (fun l hl => hp.others hd hl) hrx (Rx.enqueue_full d)⟩
  · refine h.elsewhere (by rw [hin]) hrx ?_ ?_
    · rw [hr]
      exact if_neg hi
    · cases again with
      | true => rfl
      | false => exact if_neg hi

theorem evict (h : Simulated i y p) (hp : p.OneFeeder) (hr : p.rx link = .full d) (hrx : q.rx = upd p.rx link (.offering d true))
    (hin : q.inbox = upd p.inbox d.inbox (p.inbox d.inbox).tail) :
    ∃ es, Simulated i ((AuthInbox.machine Datagram inboxSize).run y es) q := by
  by_cases hi : d.inbox = i
  · subst hi
    have hd : (p.rx link).datagram = some d := by rw [hr, Rx.datagram]
    have hpc : y.pc = .drain d := by
      have hpc := h.feeds.at_loop link
      rw [hr, Rx.enqueue_full] at hpc
      exact hpc fun he => by cases he
    have hfeeds : q.Feeds d.inbox (.again d) := .own (fun l hl => hp.others hd hl) hrx (Rx.enqueue_offering d true)
    refine ⟨[.select], ?_⟩
    show Simulated _ y.select q
    unfold AuthInbox.select
    rw [hpc]
    dsimp only
    split
    · rename_i hs
      obtain ⟨hb, hw⟩ := Chan.tryReceive_some hs
      refine ⟨?_, hw.trans h.waiting, hfeeds⟩
      rw [hin, upd_same, ← h.buffer, hb]
      rfl
    · rename_i hs
      refine ⟨?_, h.waiting, hfeeds⟩
      rw [hin, upd_same, ← h.buffer, (Chan.tryReceive_none_iff _).1 hs]
      rfl
  · refine h.elsewhere ?_ hrx ?_ (if_neg hi)
    · rw [hin, upd_ne _ _ (Ne.symm hi)]
    · rw [hr]
      exact if_neg hi

theorem take (h : Simulated i y p) {j : Nat} {rest : List Datagram} (hj : p.inbox j = d :: rest) (hrx : q.rx = p.rx)
    (hin : q.inbox = upd p.inbox j rest) : ∃ es, Simulated i ((AuthInbox.machine Datagram inboxSize).run y es) q := by
  have hfeeds : ∀ {pc}, p.Feeds i pc → q.Feeds i pc := by
    intro pc hf
    refine ⟨?_, ?_⟩
    · rw [hrx]
      exact hf.loop
    · rw [hrx]
      exact hf.others
  by_cases hi : j = i
  · subst hi
    obtain ⟨hb, hw⟩ := Chan.receive_cons (h.buffer.trans hj)
    refine ⟨[.receive], ?_, hw.trans h.waiting, hfeeds h.feeds⟩
    rw [hin, upd_same]
    exact hb
  · refine ⟨[], ?_, h.waiting, hfeeds h.feeds⟩
    rw [hin, upd_ne _ _ (Ne.symm hi)]
    exact h.buffer

theorem step (h : Simulated i y p) (hp : p.OneFeeder) (hq : q.OneFeeder) (hs : Hands p q) :
    ∃ es, Simulated i ((AuthInbox.machine Datagram inboxSize).run y es) q := by
  cases hs with
  | same hrx hin =>
    refine ⟨[], ?_, h.waiting, ?_, ?_⟩
    · rw [hin]
      exact h.buffer
    · rw [hrx]
      exact h.feeds.loop
    · rw [hrx]
      exact h.feeds.others
  | received hidle _ hrx hin => exact h.receive hq hidle hrx hin
  | queued hr hroom hrx hin => exact h.queue hp hr hroom hrx hin
  | refused hr hfull hrx hin => exact h.refuse hp hr hfull hrx hin
  | evicted hr hrx hin => exact h.evict hp hr hrx hin
  | taken hj hrx hin => exact h.take hj hrx hin

end Simulated

/-- Every inbox and its RX loop are the channel and the producer of a run. -/
theorem inbox_simulated (h : (machine decoders).Reach ok p) (i : Nat) :
    ∃ y, (AuthInbox.machine Datagram inboxSize).Reach (fun _ _ => True) y ∧ Simulated i y p := by
  have hone : ∀ q, (machine decoders).Reach ok q → q.OneFeeder := fun q hq _ _ _ _ hd hd' => one_feeder hq hd hd'
  induction h with
  | init hi =>
    obtain ⟨b, rfl⟩ := hi
    exact ⟨.new, .init rfl, rfl, rfl, ⟨0, rfl⟩, fun _ => .inr rfl⟩
  | step e hr hok ih =>
    obtain ⟨y, hy, hs⟩ := ih
    obtain ⟨es, hes⟩ := hs.step (hone _ hr) (hone _ (hr.step e hok)) (step_hands _ e)
    exact ⟨_, hy.run es (.of_forall (fun _ _ => trivial) _ _), hes⟩

/-- A datagram is never dropped at the second offer. -/
theorem offer_finds_room (h : (machine decoders).Reach ok p) {link : Nat} {d : Datagram} (hr : p.rx link = .offering d true) :
    (p.inbox d.inbox).length < inboxSize := by
  obtain ⟨y, hy, hs⟩ := inbox_simulated h d.inbox
  rw [← hs.buffer]
  exact (AuthInbox.kept (by decide) hy).room d (hs.offering hr)

end Proc

end ElectricEel.Session
