/-
  ElectricEel.Session.Loops — what a step leaves of everyone else's presence loop.

  A step is taken by at most one presence loop (`Event.actor`): on its own, or as the holder
  of `mu`. It leaves the other loops where they stand (`Stays`, `Walks`), `mu` goes to nobody
  else, and connections are numbered as they are made (`Ages`).
-/
import ElectricEel.Session.Moves

namespace ElectricEel.Session

open Lib Lib.Protowire Commands Wire Child

/-! ## Whose step it is -/

def Caller.presence : Caller → Option Nat
  | loop g => some g
  | command _ | navigate => none

def Locked.presence : Locked → Option Nat
  | dial c _ | dialling c _ | handshake c _ _ => c.presence
  | prime g _ _ | watch g => some g
  | execute _ | send _ => none

/-- The presence loop that takes the step. -/
def Event.actor (p : Proc) : Event → Option Nat
  | .loop g _ => some g
  | .locked _ => p.mu.bind Locked.presence
  | _ => none

/-! ## The others -/

namespace State

/-- What everyone else's steps may change of what a stopped loop rests on. -/
structure Ages (s t : State) : Prop where
  links : s.links ≤ t.links
  car : ∀ k, k < s.links → t.car = some k → s.car = some k
  stopped : t.stopped = s.stopped
  generation : s.presenceGeneration ≤ t.presenceGeneration

theorem Ages.of_eq {s t : State} (hl : t.links = s.links) (hc : t.car = s.car) (hs : t.stopped = s.stopped)
    (hg : t.presenceGeneration = s.presenceGeneration) : Ages s t :=
  ⟨Nat.le_of_eq hl.symm, fun _ _ h => hc ▸ h, hs, Nat.le_of_eq hg.symm⟩

theorem Ages.trans {r s t : State} (h : Ages r s) (h' : Ages s t) : Ages r t :=
  ⟨Nat.le_trans h.links h'.links, fun k hk hc => h.car k hk (h'.car k (Nat.lt_of_lt_of_le hk h.links) hc),
    h'.stopped.trans h.stopped, Nat.le_trans h.generation h'.generation⟩

theorem teardown_ages (s : State) : Ages s s.teardown := by
  refine ⟨Nat.le_of_eq (teardown_links s).symm, ?_, ?_, ?_⟩
  · intro k _ hc
    rw [teardown_car] at hc
    cases hc
  all_goals
    unfold teardown
    dsimp only
    split <;> rfl

theorem Move.ages {s t : State} (h : Move s t) : Ages s t := by
  cases h with
  | beside hb => exact .of_eq hb.links hb.car hb.stopped hb.presenceGeneration
  | note _ => exact .of_eq rfl rfl rfl rfl
  | connected _ =>
    refine ⟨Nat.le_succ _, ?_, rfl, Nat.le_refl _⟩
    intro k hk hc
    cases hc
    exact (Nat.lt_irrefl _ hk).elim
  | ready _ => exact .of_eq rfl rfl rfl rfl
  | teardown => exact teardown_ages s
  | tap parent =>
    unfold ensureAuthTap
    split
    · split <;> exact .of_eq rfl rfl rfl rfl
    · exact .of_eq rfl rfl rfl rfl
  | startPresence cfg => exact ⟨Nat.le_refl _, fun _ _ h => h, rfl, Nat.le_succ _⟩
  | endPresence => exact .of_eq rfl rfl rfl rfl
  | priming => exact .of_eq rfl rfl rfl rfl
  | status presence _ => exact .of_eq rfl rfl rfl rfl
  | primeFailed _ => exact .of_eq rfl rfl rfl rfl
  | inside =>
    unfold emitInside
    split
    · split <;> exact .of_eq rfl rfl rfl rfl
    · exact .of_eq rfl rfl rfl rfl

theorem Moves.ages {s t : State} (h : Moves s t) : Ages s t := by
  induction h with
  | refl => exact .of_eq rfl rfl rfl rfl
  | tail _ hst ih => exact ih.trans hst.ages

theorem Talk.ages {s t : State} (h : Talk s t) : Ages s t := by
  cases h with
  | received _ _ => exact .of_eq rfl rfl rfl rfl
  | answered _ _ => exact .of_eq rfl rfl rfl rfl

@[simp] theorem stopPresence_links (s : State) : s.stopPresence.links = s.links := by
  unfold stopPresence
  cases s.presence <;> rfl

@[simp] theorem stopPresence_stopped (s : State) : s.stopPresence.stopped = s.presenceGeneration := by
  unfold stopPresence
  cases s.presence <;> rfl

@[simp] theorem stopPresence_presenceGeneration (s : State) : s.stopPresence.presenceGeneration = s.presenceGeneration + 1 := by
  unfold stopPresence
  cases s.presence <;> rfl

end State

namespace Proc

/-- Loop `a` may move, but not into Wait nor to a link it has not looked at. -/
structure Stays (a : Option Nat) (p q : Proc) : Prop where
  loops : ∀ g, a ≠ some g → q.loops g = p.loops g
  own : ∀ g, q.loops g = p.loops g ∨
    ((q.loops g).link = (p.loops g).link ∧ (q.loops g).pc.reads = false ∧ (q.loops g).pc.scans = false)
  mu : q.mu = p.mu ∨ ∀ k, q.mu = some k → k.presence = a ∨ k.presence = none

namespace Stays

variable {a : Option Nat} {p q : Proc}

theorem same (hl : q.loops = p.loops) (hm : q.mu = p.mu ∨ ∀ k, q.mu = some k → k.presence = a ∨ k.presence = none) : Stays a p q :=
  ⟨fun g _ => by rw [hl], fun g => .inl (by rw [hl]), hm⟩

theorem put {g : Nat} {l : Loop} (hl : q.loops = upd p.loops g l) (hk : l.link = (p.loops g).link) (hr : l.pc.reads = false)
    (hw : l.pc.scans = false) (hm : q.mu = p.mu ∨ ∀ k, q.mu = some k → k.presence = some g ∨ k.presence = none) : Stays (some g) p q := by
  refine ⟨?_, ?_, hm⟩
  · intro i hi
    rw [hl]
    exact upd_ne _ _ fun h => hi (by rw [h])
  · intro i
    rw [hl]
    by_cases hi : i = g
    · subst hi
      rw [upd_same]
      exact .inr ⟨hk, hr, hw⟩
    · exact .inl (upd_ne _ _ hi)

/-- The session plays no part in it. -/
theorem ofSession {s : State} (h : Stays a { p with session := s } q) : Stays a p q := ⟨h.loops, h.own, h.mu⟩

end Stays

theorem mu_none {a : Option Nat} {q : Proc} (h : q.mu = none) : ∀ k, q.mu = some k → k.presence = a ∨ k.presence = none := by
  intro k hk
  rw [h] at hk
  cases hk

theorem mu_mine {a : Option Nat} {q : Proc} {k : Locked} (h : q.mu = some k) (hk : k.presence = a) :
    ∀ k', q.mu = some k' → k'.presence = a ∨ k'.presence = none := by
  intro k' hk'
  rw [h] at hk'
  cases hk'
  exact .inl hk

theorem connected_stays (p : Proc) (c : Caller) (ok : Bool) : Stays c.presence p (p.connected c ok) := by
  unfold connected
  split
  · exact .same rfl (.inr (mu_mine rfl rfl))
  · exact .same rfl (.inr (mu_mine rfl rfl))
  · exact .put rfl rfl rfl rfl (.inr (mu_none rfl))
  · exact .same rfl (.inr (mu_none rfl))

theorem ensureConnected_stays (p : Proc) (c : Caller) (target : Option Result) (key : Bool) :
    Stays c.presence p (p.ensureConnected c target key) := by
  unfold ensureConnected
  split
  · exact (connected_stays _ c _).ofSession
  · exact .same rfl (.inr (mu_mine rfl rfl))
  · split
    · split
      · exact .same rfl (.inl rfl)
      · exact .same rfl (.inr (mu_mine rfl rfl))
    · exact .same rfl (.inr (mu_mine rfl rfl))

theorem primed_stays (p : Proc) (g : Nat) (connecting : Bool) : Stays (some g) p (p.primed g connecting) := by
  unfold primed
  split
  · split <;> exact .put rfl rfl rfl rfl (.inr (mu_none rfl))
  · exact .put rfl rfl rfl rfl (.inr (mu_none rfl))

theorem watched_stays (p : Proc) (g : Nat) (ok : Bool) : Stays (some g) p (p.watched g ok) := by
  unfold watched
  dsimp only
  split
  all_goals first | exact .put rfl rfl rfl rfl (.inr (mu_none rfl)) | exact .same rfl (.inr (mu_none rfl))

theorem stepLocked_stays (p : Proc) (r : Reply) : Stays (p.mu.bind Locked.presence) p (p.stepLocked r) := by
  unfold stepLocked
  split <;> first | (rename_i hm; rw [hm, Option.bind_some]) | skip
  · exact .same rfl (.inl rfl)
  · exact .same rfl (.inr (mu_mine rfl rfl))
  · exact connected_stays p _ _
  · exact .same rfl (.inr (mu_mine rfl rfl))
  · exact (connected_stays _ _ _).ofSession
  · dsimp only
    split
    · exact .same rfl (.inr (mu_mine rfl rfl))
    · exact (connected_stays _ _ _).ofSession
  · exact (connected_stays _ _ _).ofSession
  · exact (connected_stays _ _ _).ofSession
  · exact connected_stays p _ _
  · exact connected_stays p _ _
  · split <;> exact .same rfl (.inr (mu_none rfl))
  · split <;> exact .same rfl (.inr (mu_none rfl))
  · exact (primed_stays _ _ _).ofSession
  · exact (primed_stays _ _ _).ofSession
  · exact .same rfl (.inr (mu_none rfl))
  · split <;> exact .same rfl (.inr (mu_none rfl))
  · exact .same rfl (.inl rfl)
  · exact watched_stays p _ _
  · exact watched_stays p _ _
  · exact .same rfl (.inl rfl)

variable {decoders : Decoders}

theorem step_ages {p : Proc} (h : p.Held) {e : Event} (hs : e ≠ .stop) : State.Ages p.session (p.step decoders e).session := by
  have htalk : ∀ {s : State}, s = p.session ∨ State.Talk p.session s → State.Ages p.session s := by
    rintro s (rfl | ht)
    · exact .of_eq rfl rfl rfl rfl
    · exact ht.ages
  cases hq : e.quiet with
  | true => exact (quiet_moves h hq).1.ages
  | false =>
    cases e with
    | stop => exact (hs rfl).elim
    | receive bytes => exact htalk (receive_talk p bytes)
    | offer link => exact (offer_free p link).moves.ages
    | evict link => exact (evict_free p link).moves.ages
    | take inbox => exact (take_free p inbox).moves.ages
    | quit inbox => exact (quit_free p inbox).moves.ages
    | grab inbox => exact htalk (grab_talk p inbox)
    | tell inbox => exact (tell_free p inbox).moves.ages
    | _ => cases hq

theorem step_generation {p : Proc} (h : p.Held) (e : Event) :
    p.session.presenceGeneration ≤ (p.step decoders e).session.presenceGeneration := by
  by_cases hs : e = .stop
  · subst hs
    unfold Proc.step sectionNow
    dsimp only
    split
    · exact Nat.le_refl _
    · have hgen := (State.teardown_ages p.session.stopPresence).generation
      rw [State.stopPresence_presenceGeneration] at hgen
      exact Nat.le_of_succ_le hgen
  · exact (step_ages h hs).generation

theorem sectionNow_stays {a : Option Nat} {p : Proc} {f : Proc → Proc} (h : Stays a p (f p)) : Stays a p (p.sectionNow f) := by
  unfold sectionNow
  split
  · exact .same rfl (.inl rfl)
  · exact h

/-- Whoever takes a step that is not a loop's own. -/
theorem step_stays (p : Proc) {e : Event} (hl : ∀ g c, e ≠ .loop g c) (hp : ∀ cfg, e ≠ .presenceStart cfg) :
    Stays (e.actor p) p (p.step decoders e) := by
  unfold Proc.step
  cases e with
  | tick ms => exact .same rfl (.inl rfl)
  | loop g c => exact (hl g c rfl).elim
  | locked r => exact stepLocked_stays p r
  | command cmd key =>
    refine sectionNow_stays ?_
    exact ensureConnected_stays p (.command cmd) _ _
  | navigate key =>
    refine sectionNow_stays ?_
    exact ensureConnected_stays p .navigate _ _
  | navigateSend =>
    refine sectionNow_stays ?_
    unfold navigateSend
    split
    · exact .same rfl (.inr (mu_mine rfl rfl))
    · exact .same rfl (.inl rfl)
  | presenceStart cfg => exact (hp cfg rfl).elim
  | stop =>
    refine sectionNow_stays ?_
    exact .same rfl (.inl rfl)
  | idle =>
    refine sectionNow_stays ?_
    exact .same rfl (.inl rfl)
  | receive bytes =>
    unfold receive
    dsimp only
    split
    · split <;> exact .same rfl (.inl rfl)
    · exact .same rfl (.inl rfl)
  | offer link =>
    unfold offer
    dsimp only
    split
    · split <;> exact .same rfl (.inl rfl)
    · exact .same rfl (.inl rfl)
  | evict link =>
    unfold evict
    dsimp only
    split <;> exact .same rfl (.inl rfl)
  | take inbox =>
    unfold take
    dsimp only
    split
    · split
      · split <;> exact .same rfl (.inl rfl)
      · exact .same rfl (.inl rfl)
    · exact .same rfl (.inl rfl)
  | quit inbox =>
    unfold quit
    dsimp only
    split <;> exact .same rfl (.inl rfl)
  | grab inbox =>
    unfold grab
    dsimp only
    split
    · split
      · exact .same rfl (.inl rfl)
      · split
        · exact .same rfl (.inr (mu_mine rfl rfl))
        · exact .same rfl (.inl rfl)
    · exact .same rfl (.inl rfl)
  | tell inbox =>
    unfold tell
    dsimp only
    split <;> exact .same rfl (.inl rfl)

/-- The links a loop has seen are old, and it has seen one where it goes by one. -/
structure Seen (links : Nat) (l : Loop) : Prop where
  link : ∀ k, l.link = some k → k < links
  reads : l.pc.reads = true → l.link.isSome = true

/-- A step of loop `g`. -/
structure Walks (g : Nat) (p q : Proc) : Prop where
  loops : ∀ i, i ≠ g → q.loops i = p.loops i
  link : (q.loops g).link = (p.loops g).link ∨ (q.loops g).link = none ∨ (q.loops g).link = p.session.car
  reads : (q.loops g).pc.reads = true →
    (q.loops g).link.isSome = true ∨ (q.loops g).link = (p.loops g).link ∧ (p.loops g).pc.reads = true
  mu : q.mu = p.mu ∨ ∀ k, q.mu = some k → k.presence = some g ∨ k.presence = none

namespace Walks

variable {g : Nat} {p q : Proc}

theorem of_stays (h : Stays (some g) p q) : Walks g p q := by
  refine ⟨fun i hi => h.loops i fun he => hi (Option.some.inj he).symm, ?_, ?_, h.mu⟩
  · rcases h.own g with he | ⟨hk, _, _⟩
    · exact .inl (by rw [he])
    · exact .inl hk
  · intro hr
    rcases h.own g with he | ⟨_, hf, _⟩
    · rw [he] at hr ⊢
      exact .inr ⟨rfl, hr⟩
    · rw [hf] at hr
      cases hr

theorem same (hl : q.loops = p.loops) (hm : q.mu = p.mu) : Walks g p q := .of_stays (.same hl (.inl hm))

/-- To a place where it goes by no link. -/
theorem put {l : Loop} (hl : q.loops = upd p.loops g l) (hk : l.link = (p.loops g).link) (hr : l.pc.reads = false) (hm : q.mu = p.mu) :
    Walks g p q := by
  refine ⟨fun i hi => by rw [hl, upd_ne _ _ hi], ?_, ?_, .inl hm⟩
  · rw [hl, upd_same]
    exact .inl hk
  · rw [hl, upd_same, hr]
    intro h
    cases h

/-- It looks at the connection. -/
theorem look {l : Loop} (hl : q.loops = upd p.loops g l) (hk : l.link = none ∨ l.link = p.session.car) (hr : l.pc.reads = false)
    (hm : q.mu = p.mu) : Walks g p q := by
  refine ⟨fun i hi => by rw [hl, upd_ne _ _ hi], ?_, ?_, .inl hm⟩
  · rw [hl, upd_same]
    exact .inr hk
  · rw [hl, upd_same, hr]
    intro h
    cases h

/-- It goes by the link it has seen. -/
theorem read {l : Loop} (hl : q.loops = upd p.loops g l) (hk : l.link = (p.loops g).link)
    (hr : (p.loops g).link.isSome = true ∨ (p.loops g).pc.reads = true) (hm : q.mu = p.mu) : Walks g p q := by
  refine ⟨fun i hi => by rw [hl, upd_ne _ _ hi], ?_, ?_, .inl hm⟩
  · rw [hl, upd_same]
    exact .inl hk
  · rw [hl, upd_same, hk]
    intro _
    exact hr.imp_right fun h => ⟨rfl, h⟩

/-- It moves on, and the session does not know. -/
theorem onward {now : Int} {l : Loop} (hl : q.loops = upd p.loops g l) (ho : Onward now (p.loops g) l) (hm : q.mu = p.mu) : Walks g p q := by
  refine ⟨fun i hi => by rw [hl, upd_ne _ _ hi], ?_, ?_, .inl hm⟩
  · rw [hl, upd_same]
    exact .inl ho.link
  · rw [hl, upd_same]
    intro hr
    rw [ho.link]
    exact (ho.reads hr).imp_right fun h => ⟨rfl, h⟩

theorem seen (h : Walks g p q) (hs : Seen p.session.links (p.loops g)) (hc : ∀ k, p.session.car = some k → k < p.session.links)
    (hl : p.session.links ≤ q.session.links) : Seen q.session.links (q.loops g) := by
  refine ⟨?_, ?_⟩
  · intro k hk
    rcases h.link with he | hn | hcar
    · exact Nat.lt_of_lt_of_le (hs.link k (he ▸ hk)) hl
    · rw [hn] at hk
      cases hk
    · exact Nat.lt_of_lt_of_le (hc k (hcar ▸ hk)) hl
  · intro hr
    rcases h.reads hr with hi | ⟨he, hp⟩
    · exact hi
    · rw [he]
      exact hs.reads hp

end Walks

theorem snapshot_walks (p : Proc) (g : Nat) (c : Choice) : Walks g p (p.snapshot g c) := by
  unfold snapshot
  dsimp only
  split
  · exact .look rfl (.inl rfl) rfl rfl
  · next hc _ => exact .look rfl (.inr hc.symm) rfl rfl
  · exact .look rfl (.inl rfl) rfl rfl

theorem dropSeen_walks (p : Proc) (g : Nat) : Walks g p (p.dropSeen g) := by
  unfold dropSeen
  dsimp only
  split <;> exact .put rfl rfl rfl rfl

theorem refresh_walks (p : Proc) (g : Nat) : Walks g p (p.refresh g) := by
  unfold refresh
  split
  · split
    · exact .of_stays (.same rfl (.inr (mu_mine rfl rfl)))
    · exact .put rfl rfl rfl rfl
  · exact .put rfl rfl rfl rfl

theorem hear_walks (p : Proc) (g : Nat) : Walks g p (p.hear g) := by
  refine .put rfl rfl ?_ rfl
  dsimp only
  split
  · split <;> rfl
  · split <;> rfl
  · rfl
  · rfl

theorem stepLoop_walks (p : Proc) (g : Nat) (c : Choice) : Walks g p (p.stepLoop g c) := by
  have hstep := stepLoop_cases p g c
  generalize p.stepLoop g c = q at hstep ⊢
  cases hstep with
  | stay => exact .same rfl rfl
  | on hl | tell hl | pause hl => exact .onward rfl hl rfl
  | enter _ _ _ => exact .put rfl rfl rfl rfl
  | exit _ hpc | discover _ hpc =>
    obtain rfl | rfl := hpc
    · exact .put rfl rfl rfl rfl
    · exact .put rfl rfl rfl rfl
  | locked _ _ hs =>
    cases hs with
    | watch _ => exact .of_stays (.same rfl (.inr (mu_mine rfl rfl)))
    | entered _ => exact .look rfl (.inl rfl) rfl rfl
    | snapshot _ => exact snapshot_walks p g c
    | dropSeen _ => exact dropSeen_walks p g
    | refresh _ => exact refresh_walks p g
    | resume _ _ hk _ hpc => exact .put rfl hk (by rw [hpc]; rfl) rfl
    | hear _ => exact hear_walks p g
    | connect _ => exact .of_stays (ensureConnected_stays p (.loop g) _ _)
    | aim _ _ | depart _ | leave _ | cleanup _ _ => exact .put rfl rfl rfl rfl

theorem presenceStart_walks (p : Proc) (cfg : Config) :
    Walks (p.session.presenceGeneration + 1) p (p.step decoders (.presenceStart cfg)) := by
  unfold Proc.step sectionNow
  dsimp only
  split
  · exact .same rfl rfl
  · unfold startPresence
    split
    · exact .look rfl (.inl rfl) rfl rfl
    · exact .same rfl rfl

end Proc

end ElectricEel.Session
