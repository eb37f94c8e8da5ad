/-
  ElectricEel.Core.Retry — the poll loop and its retries (core.rs `poll_phone_key_event`,
  `start_phone_key`; teslaclient.cpp `CoreWorker::pollPhoneKeyEvents`).

  The worker polls, one poll after the other, until a poll returns no event. Between the
  polls and inside them children, readers, the clock and the files move.

  A failed presence-start schedules the next attempt five seconds on. A start that is
  refused before its request (private_key.pem is gone) leaves `phone_key_retry_at` as it
  is: with a deadline that has passed, every poll makes up a presence_stopped event,
  tries again at once and returns it, and the worker's loop does not end
  (`missing_key_spins`). With no deadline set the refusal is final: the child and the
  queue are gone and later polls return nothing.

  Proved, from every reachable state, for any number of polls none of which is refused
  with a deadline set: attempts begin at least five seconds after the end of a failed one;
  the polls that return an event are bounded by the entries waiting, the entries readers
  push and the failed attempts, and without an attempt by the entries alone; and each
  failed attempt but the last stands for five seconds spent outside attempts
  (`polls_bounded`).
-/
import ElectricEel.Client.OneRun
import ElectricEel.Core.Sections
import ElectricEel.Core.System

namespace ElectricEel.Control

open Lib Commands Wire Config Client

/-! ## Presence is wanted only when it can be had -/

/-- While presence is wanted, all that makes a core ready is there but the key file. -/
def Armed (c : Core) : Prop :=
  c.phoneKeyEnabled = true →
    c.cfg.vin ≠ "" ∧ c.cfg.vinState = .paired ∧ c.session = true ∧ c.host.client.bleBackend = .bluez

theorem Armed.congr {c c' : Core} (h : Armed c) (hcfg : c'.cfg = c.cfg) (hs : c'.session = c.session)
    (he : c'.phoneKeyEnabled = c.phoneKeyEnabled) (hb : c'.host.client.bleBackend = c.host.client.bleBackend) : Armed c' := by
  intro h'
  rw [hcfg, hs, hb]
  exact h (he ▸ h')

namespace Core

theorem Steady.armed {c c' : Core} (hs : Steady c c') (h : Armed c) (hg : Grown c.host c'.host) : Armed c' :=
  h.congr hs.cfg hs.session hs.phoneKeyEnabled hg.bleBackend

theorem Ended.armed {c c' : Core} (h : Ended c c') : Armed c' := fun he => by rw [h.phoneKeyEnabled] at he; cases he

theorem ready_iff (c : Core) : c.ready = true ↔
    c.cfg.vin ≠ "" ∧ c.cfg.vinState = .paired ∧ c.disk.priv.isSome = true ∧ c.session = true ∧ c.host.client.bleBackend = .bluez := by
  simp [ready, eligible, and_assoc]

theorem startPhoneKey_armed {c : Core} (h : Armed c) (e : StartEnv) : Armed (c.startPhoneKey e).1 := by
  have hg := path_grown (startPhoneKey_path (S := .any fun _ => True) c e.any fun _ => trivial)
  have hk := startPhoneKey_kept c e
  have hs := started c e
  generalize c.startPhoneKey e = r at hg hk hs ⊢
  cases hs with
  | kept => exact h
  | refused => exact h.congr rfl rfl rfl hg.bleBackend
  | sent _ hr =>
    have hsent := startPresence_kept (c.checked e) c.phoneKeyStarted e
    obtain ⟨h1, h2, _, h4, h5⟩ := (ready_iff _).1 hr
    intro _
    refine ⟨by rw [hsent.cfg]; exact h1, by rw [hsent.cfg]; exact h2, by rw [hsent.session]; exact h4, ?_⟩
    rw [hg.bleBackend, ← h5]
    exact (Grown.path (P := fun _ => True) (Host.moves_path c.host fun _ _ => trivial)).bleBackend.symm

end Core

open ElectricEel.Control.Core in
theorem advance_armed (K : Checks) {c : Core} (h : Armed c) (e : SectionEnv) (p : Pending) : Armed (advance K c e p).1 := by
  have hany : e.Moves fun _ => True := Event.any (.drop e)
  have hg := path_grown (advance_path K c hany (fun _ _ _ => trivial) (Scope.any_writes fun _ => True) p)
  cases p with
  | begun op =>
    cases op with
    | run cmd args => exact (run_steady K c cmd args e).armed h hg
    | generateKey force =>
      rcases generateKey_ended c force e with hs | ho
      · exact hs.armed h hg
      · exact ho.armed
    | pair =>
      rw [advance_pair]
      rcases pairSection_ended c e with ⟨hs, _⟩ | ho
      · rw [hs]
        exact h
      · exact ho.armed
    | startPhoneKey => exact startPhoneKey_armed h e.start
    | stopPhoneKey => exact (stopPhoneKeyLocked_ended c e.stop).armed
    | handleResume =>
      show Armed (c.handleResumeSection e)
      have hg' : Grown c.host (c.handleResumeSection e).host := hg
      rw [handleResumeSection_eq] at hg' ⊢
      exact h.congr rfl rfl rfl hg'.bleBackend
    | setConfig r =>
      rw [advance_setConfig] at hg ⊢
      rcases setConfigSection_ended c r e with ⟨err, _, hs⟩ | ho
      · exact hs.armed h hg
      · exact ho.armed
    | shareDestination text => exact (shareDestination_steady K c text e).armed h hg
  | starting => exact startPhoneKey_armed h e.start
  | popped x => exact h
  | judged x due =>
    rw [advance_judged]
    exact h
  | stopped x =>
    rw [advance_stopped] at hg ⊢
    rcases pollGate_cases c e.invalidating with ⟨hp, _⟩ | ⟨hp, _⟩
    · rw [hp]
      exact h
    · rw [hp] at hg ⊢
      exact (invalidate_steady { c with phoneKeyStarted := false } e.invalidating).armed h hg
  | restarting x => exact startPhoneKey_armed h e.start

theorem armed {K : Checks} {ok : System → Event → Prop} {y : System} (h : (systems K).Reach ok y) : Armed y.core := by
  refine h.inv (I := fun y => Armed y.core) ?_ fun y ev hy _ => ?_
  · rintro y ⟨w, rfl⟩ he
    cases he
  · show Armed (y.step K ev).core
    cases ev with
    | move m => exact hy.congr rfl rfl rfl (move_logs _ m).bleBackend
    | call op =>
      unfold System.step
      dsimp only
      split <;> exact hy
    | poll =>
      unfold System.step
      dsimp only
      split
      · exact (Core.pollEvent_steady _).armed hy (path_grown (Core.pollEvent_path (S := .any fun _ => True) _))
      · exact hy
    | advance i e =>
      unfold System.step
      dsimp only
      split
      · exact hy
      · exact advance_armed K hy e _
    | drop e =>
      unfold System.step
      dsimp only
      split
      · exact (Core.drop_ended _ e).armed
      · exact hy
    | new backend unreadable fault =>
      unfold System.step
      dsimp only
      split
      · exact hy
      · split
        · exact hy
        · rename_i heq
          unfold Core.new at heq
          split at heq
          · cases heq
          · cases heq
            exact fun he => nomatch he

/-! ## The parts of a poll -/

namespace Core

/-- After the pop, when the two flags are read. -/
def polled (c : Core) (e : PollEnv) : Core := c.pollEvent.1.moves e.reading

def judged (c : Core) (e : PollEnv) : Core := (c.polled e).moves e.judging

/-- The event the poll returns, unless it restarts. -/
def event (c : Core) (e : PollEnv) : Option Entry := (c.judged e).polledEvent c.pollEvent.2 (c.polled e).retryDue

/-- When the poll takes the gate. -/
def gated (c : Core) (e : PollEnv) : Core := (c.judged e).moves e.waiting

/-- When its start_phone_key takes the gate. -/
def retired (c : Core) (e : PollEnv) : Core := ((c.gated e).pollGate e.invalidating).1.moves e.between

/-- The poll goes on to restart presence. -/
def attempts (c : Core) (e : PollEnv) : Bool :=
  (c.event e).any (·.ev.kind = .presenceStopped) && ((c.gated e).pollGate e.invalidating).2

/-- If the poll attempts a restart with a deadline set, the key file is there when
    start_phone_key looks. -/
def KeyThere (c : Core) (e : PollEnv) : Prop :=
  c.attempts e = true → (c.gated e).phoneKeyRetryAt ≠ none → ((c.retired e).checked e.start).disk.priv.isSome = true

/-- Nothing is left that could make a poll try again. -/
structure Dead (c : Core) : Prop where
  child : c.host.client.child = none
  items : c.host.client.events.items = []
  retryAt : c.phoneKeyRetryAt = none

/-- A stretch without an attempt. -/
structure Rest (c c' : Core) : Prop where
  cfg : c'.cfg = c.cfg
  session : c'.session = c.session
  enabled : c'.phoneKeyEnabled = c.phoneKeyEnabled
  retryAt : c'.phoneKeyRetryAt = c.phoneKeyRetryAt
  restarts : c'.restarts = c.restarts
  failures : c'.host.failures = c.host.failures
  grown : Grown c.host c'.host
  now : c.now ≤ c'.now
  dead : Dead c → Dead c'

namespace Rest

variable {c c' c'' : Core}

theorem refl (c : Core) : Rest c c := ⟨rfl, rfl, rfl, rfl, rfl, rfl, .refl _, Nat.le_refl _, id⟩

theorem trans (h : Rest c c') (h' : Rest c' c'') : Rest c c'' where
  cfg := h'.cfg.trans h.cfg
  session := h'.session.trans h.session
  enabled := h'.enabled.trans h.enabled
  retryAt := h'.retryAt.trans h.retryAt
  restarts := h'.restarts.trans h.restarts
  failures := h'.failures.trans h.failures
  grown := h.grown.trans h'.grown
  now := Nat.le_trans h.now h'.now
  dead := fun hd => h'.dead (h.dead hd)

theorem armed (h : Rest c c') (ha : Armed c) : Armed c' := ha.congr h.cfg h.session h.enabled h.grown.bleBackend

end Rest

theorem moves_rest (c : Core) (ms : List Move) : Rest c (c.moves ms) where
  cfg := rfl
  session := rfl
  enabled := rfl
  retryAt := rfl
  restarts := rfl
  failures := moves_failures c.host ms
  grown := Grown.path (P := fun _ => True) (Host.moves_path c.host fun _ _ => trivial)
  now := moves_now c.host ms
  dead h := by
    have hm := moves_noChild h.child ms
    exact ⟨by show (c.host.moves ms).client.child = none; rw [hm]; exact h.child,
      by show (c.host.moves ms).client.events.items = []; rw [hm]; exact h.items, h.retryAt⟩

theorem moves_popped (c : Core) (ms : List Move) :
    (c.moves ms).host.client.events.popped = c.host.client.events.popped := Client.moves_popped c.host ms

theorem pollEvent_rest (c : Core) : Rest c c.pollEvent.1 := by
  have hs := pollEvent_steady c
  refine ⟨hs.cfg, hs.session, hs.phoneKeyEnabled, hs.phoneKeyRetryAt, hs.restarts, ?_,
    path_grown (pollEvent_path (S := .any fun _ => True) c), ?_, fun hd => ⟨?_, ?_, hs.phoneKeyRetryAt.trans hd.retryAt⟩⟩
  all_goals rw [pollEvent_fst]
  · show Host.failures (if c.session = true then _ else _) = _
    split
    · exact congrArg (List.countP _) (DropQueue.pop_pushed _)
    · rfl
  · show c.now ≤ World.now (Host.world (if c.session = true then _ else _))
    split <;> exact Nat.le_refl _
  · show SessionClient.child (Host.client (if c.session = true then _ else _)) = _
    split <;> exact hd.child
  · show (SessionClient.events (Host.client (if c.session = true then _ else _))).items = _
    split
    · show (DropQueue.pop _).1.items = []
      rw [DropQueue.pop_nil hd.items]
      exact hd.items
    · exact hd.items

/-- The pop takes at most one entry, the one it returns. -/
theorem pollEvent_popped (c : Core) : c.pollEvent.1.host.client.events.popped.length =
    c.host.client.events.popped.length + c.pollEvent.2.isSome.toNat := by
  unfold pollEvent
  split
  · show (DropQueue.pop _).1.popped.length = _ + (DropQueue.pop _).2.isSome.toNat
    rcases DropQueue.pop_cases c.host.client.events with ⟨_, hp⟩ | ⟨x, rest, _, hx, _, hp⟩
    · rw [hp]
      rfl
    · rw [hp, hx, List.length_append]
      rfl
  · rfl

theorem judged_rest (c : Core) (e : PollEnv) : Rest c (c.judged e) :=
  ((pollEvent_rest c).trans (moves_rest _ _)).trans (moves_rest _ _)

theorem gated_rest (c : Core) (e : PollEnv) : Rest c (c.gated e) := (judged_rest c e).trans (moves_rest _ _)

theorem judged_popped (c : Core) (e : PollEnv) : (c.judged e).host.client.events.popped.length =
    c.host.client.events.popped.length + c.pollEvent.2.isSome.toNat := by
  rw [judged, polled, moves_popped, moves_popped, pollEvent_popped]

theorem gated_popped (c : Core) (e : PollEnv) : (c.gated e).host.client.events.popped.length =
    c.host.client.events.popped.length + c.pollEvent.2.isSome.toNat := by
  rw [gated, moves_popped, judged_popped]

/-! ## A poll without an attempt -/

theorem poll_eq (c : Core) (e : PollEnv) : c.pollPhoneKeyEvent e =
    match c.event e with
    | none => (c.judged e, none)
    | some x =>
      if x.ev.kind ≠ .presenceStopped then (c.judged e, some x.ev)
      else
        match (c.gated e).pollGate e.invalidating with
        | (d, false) => (d, some x.ev)
        | (d, true) => (((d.moves e.between).restart e.start).1, some (restartedEvent x.ev ((d.moves e.between).restart e.start).2)) :=
  rfl

/-- An event nobody queued is the due retry's. -/
theorem event_made_up {c : Core} {e : PollEnv} {x : Entry} (hp : c.pollEvent.2 = none) (h : c.event e = some x) :
    x.ev.kind = .presenceStopped ∧ c.phoneKeyEnabled = true ∧ ∃ t, c.phoneKeyRetryAt = some t ∧ t ≤ (c.polled e).now := by
  unfold event polledEvent at h
  rw [hp] at h
  simp only [Option.isNone_none, Bool.true_and] at h
  split at h
  · rename_i hdue
    rw [Bool.and_eq_true] at hdue
    have hr : (c.polled e).phoneKeyRetryAt = c.phoneKeyRetryAt := ((pollEvent_rest c).trans (moves_rest _ _)).retryAt
    refine ⟨?_, (judged_rest c e).enabled ▸ hdue.2, ?_⟩
    · simp only [Option.map_some] at h
      split at h <;> cases h <;> rfl
    · cases ht : c.phoneKeyRetryAt with
      | none => simp [retryDue, hr, ht] at hdue
      | some t => exact ⟨t, rfl, by simpa [retryDue, hr, ht] using hdue.1⟩
  · cases h

theorem event_of_popped {c : Core} {e : PollEnv} {x : Entry} (hp : c.pollEvent.2 = some x) : (c.event e).isSome = true := by
  unfold event polledEvent
  rw [hp]
  rfl

theorem attempts_of_made_up {c : Core} {e : PollEnv} {x : Entry} (hp : c.pollEvent.2 = none) (h : c.event e = some x) :
    c.attempts e = true := by
  obtain ⟨hk, he, t, ht, hle⟩ := event_made_up hp h
  have hle' : t ≤ (c.gated e).now := Nat.le_trans hle ((moves_rest (c.polled e) _).trans (moves_rest _ _)).now
  unfold attempts
  rcases pollGate_cases (c.gated e) e.invalidating with ⟨_, hf | ⟨t', ht', hlt⟩⟩ | ⟨hg, _⟩
  · rw [(gated_rest c e).enabled, he] at hf
    cases hf
  · rw [(gated_rest c e).retryAt, ht] at ht'
    cases ht'
    exact absurd hlt (Nat.not_lt.2 hle')
  · simp [h, hk, hg]

theorem setStarted_rest (c : Core) (b : Bool) : Rest c { c with phoneKeyStarted := b } :=
  ⟨rfl, rfl, rfl, rfl, rfl, rfl, .refl _, Nat.le_refl _, fun h => ⟨h.child, h.items, h.retryAt⟩⟩

/-- Without an attempt nothing changes but what moves by itself, and the poll returns an
    event exactly if it popped one. -/
theorem poll_rest {c : Core} {e : PollEnv} (h : c.attempts e = false) :
    Rest c (c.pollPhoneKeyEvent e).1 ∧ (c.pollPhoneKeyEvent e).1.host.client.events.popped.length =
      c.host.client.events.popped.length + (c.pollPhoneKeyEvent e).2.isSome.toNat := by
  have hev : (c.event e).isSome = c.pollEvent.2.isSome := by
    cases hp : c.pollEvent.2 with
    | some x => exact event_of_popped hp
    | none =>
      cases hx : c.event e with
      | none => rfl
      | some x => rw [attempts_of_made_up hp hx] at h; cases h
  rw [poll_eq]
  cases hx : c.event e with
  | none =>
    rw [hx] at hev
    exact ⟨judged_rest c e, by rw [judged_popped, ← hev]; rfl⟩
  | some x =>
    rw [hx] at hev
    dsimp only
    split
    · exact ⟨judged_rest c e, by rw [judged_popped, ← hev]; rfl⟩
    · rename_i hk
      have hgate : ((c.gated e).pollGate e.invalidating).2 = false := by
        have hk' : x.ev.kind = .presenceStopped := not_not.1 hk
        simpa [attempts, hx, hk'] using h
      rcases pollGate_cases (c.gated e) e.invalidating with ⟨hg, _⟩ | ⟨hg, _⟩
      · rw [hg]
        refine ⟨(gated_rest c e).trans (setStarted_rest _ _), ?_⟩
        show (c.gated e).host.client.events.popped.length = _
        rw [gated_popped, ← hev]
        rfl
      · rw [hg] at hgate
        cases hgate

/-! ## A poll that attempts a restart -/

/-- Where a restart begins: the old child and the queue are gone. -/
structure Poised (c d : Core) : Prop where
  rest : Rest c d
  child : d.host.client.child = none
  items : d.host.client.events.items = []
  started : d.phoneKeyStarted = false
  enabled : d.phoneKeyEnabled = true
  due : ∀ t, c.phoneKeyRetryAt = some t → t ≤ d.now

theorem invalidate_gone {c : Core} (h : c.session = true) (during : List Move) :
    (c.invalidate during).host.client.child = none ∧ (c.invalidate during).host.client.events.items = [] := by
  rw [invalidate_eq, h]
  refine ⟨invalidate_child c.host during, ?_⟩
  show (c.host.invalidate during).client.events.items = []
  rfl

theorem invalidate_rest (c : Core) (during : List Move) : Rest c (c.invalidate during) := by
  have hs := invalidate_steady c during
  refine ⟨hs.cfg, hs.session, hs.phoneKeyEnabled, hs.phoneKeyRetryAt, hs.restarts, ?_,
    path_grown (invalidate_path (S := .any fun _ => True) c fun _ _ => trivial), ?_, fun hd => ?_⟩
  · rw [invalidate_eq]
    show Host.failures (if c.session = true then _ else _) = _
    split
    · exact invalidate_failures c.host during
    · rfl
  · rw [invalidate_eq]
    show c.now ≤ World.now (Host.world (if c.session = true then _ else _))
    split
    · exact invalidate_now c.host during
    · exact Nat.le_refl _
  · cases h : c.session with
    | true => exact ⟨(invalidate_gone h during).1, (invalidate_gone h during).2, hs.phoneKeyRetryAt.trans hd.retryAt⟩
    | false =>
      have : c.invalidate during = c := by simp [invalidate, h]
      rwa [this]

theorem retired_poised {c : Core} (ha : Armed c) {e : PollEnv} (h : c.attempts e = true) : Poised c (c.retired e) := by
  have hgate : ((c.gated e).pollGate e.invalidating).2 = true := by
    unfold attempts at h
    exact (Bool.and_eq_true_iff.1 h).2
  have hr := gated_rest c e
  rcases pollGate_cases (c.gated e) e.invalidating with ⟨hg, _⟩ | ⟨hg, he, hdue⟩
  · rw [hg] at hgate
    cases hgate
  · have hses : (c.gated e).session = true := (hr.armed ha he).2.2.1
    have hinv := invalidate_gone (c := { c.gated e with phoneKeyStarted := false }) hses e.invalidating
    have hrest := (hr.trans (setStarted_rest _ false)).trans (invalidate_rest { c.gated e with phoneKeyStarted := false } e.invalidating)
    have hm := moves_noChild hinv.1 e.between
    have heq : c.retired e = ({ c.gated e with phoneKeyStarted := false }.invalidate e.invalidating).moves e.between := by
      rw [retired, hg]
    rw [heq]
    refine ⟨hrest.trans (moves_rest _ _), ?_, ?_, ?_, hrest.enabled.trans (hr.enabled ▸ he), fun t ht => ?_⟩
    · show SessionClient.child (Host.client (Host.moves _ _)) = none
      rw [hm]
      exact hinv.1
    · show (SessionClient.events (Host.client (Host.moves _ _))).items = []
      rw [hm]
      exact hinv.2
    · rw [moves_eq, invalidate_eq]
      rfl
    · refine Nat.le_trans (hdue t (hr.retryAt.trans ht)) (Nat.le_trans ?_ (moves_rest _ _).now)
      exact (invalidate_rest { c.gated e with phoneKeyStarted := false } e.invalidating).now

/-- What an attempt leaves behind: presence, a deadline five seconds on, or nothing. -/
inductive Left (c c' : Core) (r : Restart) : Prop
  | started : r.ok = true → c'.phoneKeyRetryAt = none → Left c c' r
  | scheduled : r.ok = false → c'.phoneKeyRetryAt = some (r.ended + 5000) → Left c c' r
  | refused : r.ok = false → c.phoneKeyRetryAt = none → Dead c' → Left c c' r

structure Attempt (c c' : Core) (r : Restart) : Prop where
  restarts : c'.restarts = c.restarts ++ [r]
  began : c.now ≤ r.began
  due : ∀ t, c.phoneKeyRetryAt = some t → t ≤ r.began
  order : r.began ≤ r.ended
  ended : r.ended = c'.now
  armed : Armed c'
  grown : Grown c.host c'.host
  failures : c'.host.failures ≤ c.host.failures + if r.ok then 0 else 1
  left : Left c c' r

/-- The start sends its request, and what it leaves follows from the outcome. -/
theorem startPresence_left {d : Core} (hc : d.host.client.child = none) (e : StartEnv) :
    (d.startPresence false e).1.host.failures ≤ d.host.failures + (if (d.startPresence false e).2.toBool then 0 else 1) ∧
    d.now ≤ (d.startPresence false e).1.now ∧
    (d.startPresence false e).1.host.client.events.popped = d.host.client.events.popped ∧
    ((d.startPresence false e).2.toBool = true ∧ (d.startPresence false e).1.phoneKeyRetryAt = none ∨
      (d.startPresence false e).2.toBool = false ∧
        (d.startPresence false e).1.phoneKeyRetryAt = some ((d.startPresence false e).1.now + 5000)) := by
  have hm := moves_noChild hc e.starting
  have hchild : (d.prepared false e).host.client.child = none := by
    show (d.host.moves e.starting).client.child = none
    rw [hm]
    exact hc
  have hfail : (d.prepared false e).host.failures = d.host.failures := moves_failures d.host e.starting
  have hnow : d.now ≤ (d.prepared false e).now := moves_now d.host e.starting
  have hpop : (d.prepared false e).host.client.events.popped = d.host.client.events.popped := Client.moves_popped d.host e.starting
  rw [startPresence_eq]
  generalize hp : d.prepared false e = p at hchild hfail hnow hpop
  have hrf := run_failures hchild (p.call .presenceStart []) e.run
  have hrn : p.now ≤ (p.sessionRun .presenceStart [] e.run).1.now := run_now p.host _ e.run
  have hrp : (p.sessionRun .presenceStart [] e.run).1.host.client.events.popped = p.host.client.events.popped := run_popped p.host _ e.run
  rcases presenceStarted_cases (p.sessionRun .presenceStart [] e.run).1 (p.sessionRun .presenceStart [] e.run).2 with
    ⟨out, hr, hok, h⟩ | ⟨text, _, h⟩
  · rw [h]
    refine ⟨?_, Nat.le_trans hnow hrn, hrp.trans hpop, .inl ⟨rfl, rfl⟩⟩
    have hb : (p.host.run (p.call .presenceStart []) e.run).2.toBool = true := by
      rw [show (p.host.run (p.call .presenceStart []) e.run).2 = .ok out from hr]
      rfl
    rw [hb, hfail] at hrf
    exact hrf
  · rw [h]
    refine ⟨?_, Nat.le_trans hnow hrn, hrp.trans hpop, .inr ⟨rfl, rfl⟩⟩
    rw [hfail] at hrf
    refine Nat.le_trans hrf (Nat.add_le_add_left ?_ _)
    split
    · exact Nat.zero_le _
    · exact Nat.le_refl 1

theorem restart_attempt {c d : Core} (ha : Armed c) (hd : Poised c d) {e : StartEnv}
    (hk : c.phoneKeyRetryAt ≠ none → (d.checked e).disk.priv.isSome = true) :
    (∃ r, Attempt c (d.restart e).1 r) ∧ (d.restart e).1.host.client.events.popped = d.host.client.events.popped := by
  have hg := path_grown (restart_path (S := .any fun _ => True) d e.any fun _ => trivial)
  have hkept := startPhoneKey_kept d e
  have harmed := startPhoneKey_armed (hd.rest.armed ha) e
  have hs := started d e
  have hm := moves_noChild hd.child e.checking
  have hchecked : (d.checked e).host.client = d.host.client := hm
  have hfail : (d.checked e).host.failures = d.host.failures := moves_failures d.host e.checking
  have hnow : d.now ≤ (d.checked e).now := moves_now d.host e.checking
  unfold restart at hg ⊢
  generalize d.startPhoneKey e = r at hg hkept harmed hs ⊢
  have hrest : r.1.restarts ++ [⟨d.now, r.1.now, r.2.toBool⟩] = c.restarts ++ [⟨d.now, r.1.now, r.2.toBool⟩] := by
    rw [hkept.restarts, hd.rest.restarts]
  have harmed' : Armed { r.1 with restarts := r.1.restarts ++ [⟨d.now, r.1.now, r.2.toBool⟩] } := harmed
  have attempt : d.now ≤ r.1.now → r.1.host.failures ≤ d.host.failures + (if r.2.toBool then 0 else 1) →
      Left c { r.1 with restarts := r.1.restarts ++ [⟨d.now, r.1.now, r.2.toBool⟩] } ⟨d.now, r.1.now, r.2.toBool⟩ →
      Attempt c { r.1 with restarts := r.1.restarts ++ [⟨d.now, r.1.now, r.2.toBool⟩] } ⟨d.now, r.1.now, r.2.toBool⟩ :=
    fun hn hf hl => ⟨hrest, hd.rest.now, hd.due, hn, rfl, harmed', hd.rest.grown.trans hg, hd.rest.failures ▸ hf, hl⟩
  cases hs with
  | kept h1 _ => rw [hd.started] at h1; cases h1
  | refused err _ hr _ =>
    have hretry : c.phoneKeyRetryAt = none := by
      by_contra hne
      obtain ⟨h1, h2, h3, h4⟩ := hd.rest.armed ha hd.enabled
      have hready := (ready_iff (d.checked e)).2 ⟨h1, h2, hk hne, h3, by rw [hchecked]; exact h4⟩
      rw [hr] at hready
      cases hready
    refine ⟨⟨_, attempt hnow (Nat.le_trans (Nat.le_of_eq hfail) (Nat.le_add_right _ _)) (.refused rfl hretry ⟨?_, ?_, ?_⟩)⟩, ?_⟩
    · show (d.checked e).host.client.child = none
      rw [hchecked]
      exact hd.child
    · show (d.checked e).host.client.events.items = []
      rw [hchecked]
      exact hd.items
    · exact hd.rest.retryAt.trans hretry
    · show (d.checked e).host.client.events.popped = _
      rw [hchecked]
  | sent _ _ =>
    rw [hd.started] at hkept harmed attempt ⊢
    have hchild : (d.checked e).host.client.child = none := by rw [hchecked]; exact hd.child
    obtain ⟨hf, hn, hp, hl⟩ := startPresence_left hchild e
    rw [hfail] at hf
    refine ⟨⟨_, attempt (Nat.le_trans hnow hn) hf ?_⟩, ?_⟩
    · rcases hl with ⟨hok, hr⟩ | ⟨hok, hr⟩
      · exact .started hok hr
      · exact .scheduled hok hr
    · rw [hchecked] at hp
      exact hp

theorem poll_of_attempts {c : Core} {e : PollEnv} (h : c.attempts e = true) : ∃ x, c.event e = some x ∧
    c.pollPhoneKeyEvent e = (((c.retired e).restart e.start).1, some (restartedEvent x.ev ((c.retired e).restart e.start).2)) := by
  obtain ⟨hk, hg⟩ := Bool.and_eq_true_iff.1 h
  obtain ⟨x, hx, hkind⟩ := (Option.any_eq_true _ _).1 hk
  have hkind' : x.ev.kind = .presenceStopped := of_decide_eq_true hkind
  refine ⟨x, hx, ?_⟩
  rw [poll_eq, hx]
  dsimp only
  rw [if_neg (not_not.2 hkind')]
  unfold retired
  rcases hp : (c.gated e).pollGate e.invalidating with ⟨d, _ | _⟩
  · rw [hp] at hg
    cases hg
  · rfl

theorem poll_attempt {c : Core} (ha : Armed c) {e : PollEnv} (hk : c.KeyThere e) (h : c.attempts e = true) :
    (∃ r, Attempt c (c.pollPhoneKeyEvent e).1 r) ∧ (c.pollPhoneKeyEvent e).2.isSome = true ∧
    ((c.pollPhoneKeyEvent e).1.host.client.events.popped.length = c.host.client.events.popped.length + 1 ∨
      (c.pollPhoneKeyEvent e).1.host.client.events.popped.length = c.host.client.events.popped.length ∧ c.phoneKeyRetryAt ≠ none) := by
  obtain ⟨x, hx, heq⟩ := poll_of_attempts h
  have hpoised := retired_poised ha h
  obtain ⟨hr, hp⟩ := restart_attempt ha hpoised (e := e.start) fun hne => hk h (by rw [(gated_rest c e).retryAt]; exact hne)
  rw [heq]
  refine ⟨hr, rfl, ?_⟩
  have hpop : ((c.retired e).restart e.start).1.host.client.events.popped.length =
      c.host.client.events.popped.length + c.pollEvent.2.isSome.toNat := by
    rw [hp, ← gated_popped c e]
    unfold retired
    rw [moves_popped]
    rcases pollGate_cases (c.gated e) e.invalidating with ⟨hg, _⟩ | ⟨hg, _⟩
    · rw [hg]
    · rw [hg, invalidate_eq]
      show (SessionClient.events (Host.client (if _ then _ else _))).popped.length = _
      split
      · exact congrArg List.length (invalidate_popped (c.gated e).host e.invalidating)
      · rfl
  cases hpe : c.pollEvent.2 with
  | some y =>
    rw [hpe] at hpop
    exact .inl hpop
  | none =>
    rw [hpe] at hpop
    obtain ⟨_, _, t, ht, _⟩ := event_made_up hpe hx
    exact .inr ⟨hpop, fun hne => by rw [ht] at hne; cases hne⟩

theorem Dead.attempts {c : Core} (h : Dead c) (e : PollEnv) : c.attempts e = false := by
  cases ha : c.attempts e with
  | false => rfl
  | true =>
    obtain ⟨x, hx, _⟩ := poll_of_attempts ha
    have hp : c.pollEvent.2 = none := by
      unfold pollEvent
      split
      · show (DropQueue.pop _).2 = none
        rw [DropQueue.pop_nil h.items]
      · rfl
    obtain ⟨_, _, t, ht, _⟩ := event_made_up hp hx
    rw [h.retryAt] at ht
    cases ht

end Core

/-! ## The loop -/

/-- One round of the worker: what happens before it, and the poll. -/
structure PollTurn where
  idle : List Move := []
  poll : Core.PollEnv := {}
  deriving DecidableEq, Repr

namespace Core

def turn (c : Core) (t : PollTurn) : Core × Option SessionEvent := (c.moves t.idle).pollPhoneKeyEvent t.poll

/-- Polls one after the other, and what each returned. -/
def polls (c : Core) : List PollTurn → Core × List (Option SessionEvent)
  | [] => (c, [])
  | t :: ts => (((c.turn t).1.polls ts).1, (c.turn t).2 :: ((c.turn t).1.polls ts).2)

/-- In every poll that attempts a restart with a deadline set the key file is there. -/
def KeysThere : Core → List PollTurn → Prop
  | _, [] => True
  | c, t :: ts => (c.moves t.idle).KeyThere t.poll ∧ KeysThere (c.turn t).1 ts

/-- A restart may begin no earlier than `t`. -/
def Blocked (c : Core) (t : Nat) : Prop := t ≤ c.now ∨ (∃ d, c.phoneKeyRetryAt = some d ∧ t ≤ d) ∨ Dead c

theorem Rest.blocked {c c' : Core} (h : Rest c c') {t : Nat} (hb : Blocked c t) : Blocked c' t := by
  rcases hb with hn | ⟨d, hd, hle⟩ | hd
  · exact .inl (Nat.le_trans hn h.now)
  · exact .inr (.inl ⟨d, h.retryAt.trans hd, hle⟩)
  · exact .inr (.inr (h.dead hd))

end Core

/-! ## Attempts in order -/

namespace Restart

/-- The earliest moment after `r` for another attempt. -/
def next (r : Restart) : Nat := if r.ok then r.ended else r.ended + 5000

/-- Attempts in order, none before `t`, each five seconds or more after the end of a
    failed one. -/
def Spaced : Nat → List Restart → Prop
  | _, [] => True
  | t, r :: rs => t ≤ r.began ∧ r.began ≤ r.ended ∧ Spaced r.next rs

/-- The time spent in attempts. -/
def spent (rs : List Restart) : Nat := (rs.map fun r => r.ended - r.began).sum

def fails (rs : List Restart) : Nat := rs.countP (!·.ok)

/-- Every failed attempt but the last stands for five seconds outside attempts. -/
theorem Spaced.idle {t now : Nat} {rs : List Restart} (h : Spaced t rs) (ht : t ≤ now) (hn : ∀ r ∈ rs, r.ended ≤ now) :
    t + spent rs + 5000 * (fails rs - 1) ≤ now := by
  induction rs generalizing t with
  | nil => exact ht
  | cons r rs ih =>
    obtain ⟨hb, ho, hrest⟩ := h
    have hr := hn r List.mem_cons_self
    have hspent : spent (r :: rs) = (r.ended - r.began) + spent rs := rfl
    have hfails : fails (r :: rs) = fails rs + if r.ok then 0 else 1 := by
      unfold fails
      rw [List.countP_cons]
      cases r.ok <;> rfl
    by_cases hnext : r.next ≤ now
    · have := ih hrest hnext fun r' hr' => hn r' (List.mem_cons_of_mem _ hr')
      unfold next at this
      cases hok : r.ok <;> simp only [hok, Bool.false_eq_true, if_false, if_true] at this hfails <;> omega
    · -- no later attempt fits in
      have hnil : rs = [] := by
        cases rs with
        | nil => rfl
        | cons r' rs' =>
          have h1 := hrest.1
          have h2 := hrest.2.1
          have h3 := hn r' (List.mem_cons_of_mem _ List.mem_cons_self)
          omega
      subst hnil
      have hf : fails (r :: []) - 1 = 0 := by
        rw [hfails]
        cases r.ok <;> rfl
      rw [hf, hspent]
      show t + (r.ended - r.began + 0) + 5000 * 0 ≤ now
      omega

end Restart

/-! ## Every run of polls -/

open Restart

/-- The polls that returned an event. -/
def returned (out : List (Option SessionEvent)) : Nat := out.countP (·.isSome)

namespace Core

/-- The entries waiting in the queue. -/
def waiting (c : Core) : Nat := c.host.client.events.items.length

def poppedCount (c : Core) : Nat := c.host.client.events.popped.length

/-- What a run of polls from `c` adds up to. -/
structure Tally (c : Core) (t : Nat) (r : Core × List (Option SessionEvent)) (made : List Restart) : Prop where
  restarts : r.1.restarts = c.restarts ++ made
  spaced : Spaced t made
  ended : ∀ x ∈ made, x.ended ≤ r.1.now
  now : c.now ≤ r.1.now
  grown : Grown c.host r.1.host
  failures : r.1.host.failures ≤ c.host.failures + fails made
  /-- Each event was popped or is a due retry's; a retry is due once for each failure. -/
  returned : returned r.2 + c.poppedCount ≤ r.1.poppedCount + fails made + c.phoneKeyRetryAt.isSome.toNat
  popped : Control.returned r.2 + c.poppedCount ≤ r.1.poppedCount + made.length

theorem Tally.nil (c : Core) (t : Nat) : Tally c t (c, []) [] :=
  ⟨(List.append_nil _).symm, trivial, fun _ => nofun, Nat.le_refl _, .refl _, Nat.le_refl _,
    by show 0 + c.poppedCount ≤ c.poppedCount + 0 + _; omega, by show 0 + c.poppedCount ≤ c.poppedCount + 0; omega⟩

theorem returned_cons (o : Option SessionEvent) (out : List (Option SessionEvent)) :
    Control.returned (o :: out) = o.isSome.toNat + Control.returned out := by
  unfold Control.returned
  rw [List.countP_cons]
  cases o <;> simp [Nat.add_comm]

/-- A round without an attempt in front. -/
theorem Tally.rest {c c' : Core} {t : Nat} {o : Option SessionEvent} {r : Core × List (Option SessionEvent)} {made : List Restart}
    (h : Rest c c') (hp : c'.poppedCount = c.poppedCount + o.isSome.toNat) (hr : Tally c' t r made) :
    Tally c t (r.1, o :: r.2) made := by
  refine ⟨hr.restarts.trans (by rw [h.restarts]), hr.spaced, hr.ended, Nat.le_trans h.now hr.now, h.grown.trans hr.grown,
    h.failures ▸ hr.failures, ?_, ?_⟩
  · have := hr.returned
    rw [h.retryAt] at this
    rw [returned_cons]
    show _ ≤ r.1.poppedCount + _ + _
    omega
  · have := hr.popped
    rw [returned_cons]
    show _ ≤ r.1.poppedCount + _
    omega

/-- A round with an attempt in front. -/
theorem Tally.attempt {c c' : Core} {t : Nat} {o : Option SessionEvent} {r : Core × List (Option SessionEvent)} {x : Restart}
    {made : List Restart} (h : Attempt c c' x) (ht : t ≤ x.began) (ho : o.isSome = true)
    (hp : c'.poppedCount = c.poppedCount + 1 ∨ c'.poppedCount = c.poppedCount ∧ c.phoneKeyRetryAt ≠ none)
    (hr : Tally c' x.next r made) : Tally c t (r.1, o :: r.2) (x :: made) := by
  have hfails : fails (x :: made) = fails made + if x.ok then 0 else 1 := by
    unfold fails
    rw [List.countP_cons]
    cases x.ok <;> rfl
  have hf := h.failures
  have hf' := hr.failures
  refine ⟨by rw [hr.restarts, h.restarts, List.append_assoc]; rfl, ⟨ht, h.order, hr.spaced⟩, fun y hy => ?_, ?_,
    h.grown.trans hr.grown, by rw [hfails]; show r.1.host.failures ≤ _; omega, ?_, ?_⟩
  · rcases List.mem_cons.1 hy with rfl | hy
    · exact Nat.le_trans (Nat.le_of_eq h.ended) hr.now
    · exact hr.ended y hy
  · have h1 := h.began
    have h2 := h.order
    have h3 := h.ended
    have h4 := hr.now
    show c.now ≤ r.1.now
    omega
  · -- a deadline set afterwards is a failure's
    have hset : c'.phoneKeyRetryAt.isSome.toNat ≤ if x.ok then 0 else 1 := by
      cases h.left with
      | started hok hn => rw [hok, hn]; exact Nat.le_refl 0
      | scheduled hok hn => rw [hok, hn]; exact Nat.le_refl 1
      | refused hok _ hd => rw [hok, hd.retryAt]; exact Nat.zero_le _
    have hdl : c'.poppedCount = c.poppedCount + 1 ∨ c'.poppedCount = c.poppedCount ∧ c.phoneKeyRetryAt.isSome.toNat = 1 := by
      rcases hp with hp | ⟨hp, hne⟩
      · exact .inl hp
      · refine .inr ⟨hp, ?_⟩
        cases hc : c.phoneKeyRetryAt with
        | none => exact absurd hc hne
        | some _ => rfl
    have := hr.returned
    rw [returned_cons, ho, hfails]
    show 1 + _ + _ ≤ r.1.poppedCount + _ + _
    omega
  · have := hr.popped
    rw [returned_cons, ho, List.length_cons]
    show 1 + _ + _ ≤ r.1.poppedCount + _
    omega

theorem attempt_next {c c' : Core} {x : Restart} (h : Attempt c c' x) : Blocked c' x.next := by
  cases h.left with
  | started hok _ => exact .inl (by rw [next, hok]; exact Nat.le_of_eq h.ended)
  | scheduled hok hr => exact .inr (.inl ⟨_, hr, by rw [next, hok]; exact Nat.le_refl _⟩)
  | refused _ _ hd => exact .inr (.inr hd)

/-- The run lemma: by the rounds, carrying what the earlier ones left behind. -/
theorem polls_tally {c : Core} (ha : Armed c) {ts : List PollTurn} (hk : c.KeysThere ts) {t : Nat} (hb : Blocked c t) :
    ∃ made, Tally c t (c.polls ts) made := by
  induction ts generalizing c t with
  | nil => exact ⟨[], .nil c t⟩
  | cons x ts ih =>
    have hidle := moves_rest c x.idle
    have hpop : (c.moves x.idle).poppedCount = c.poppedCount := congrArg List.length (moves_popped c x.idle)
    cases hatt : (c.moves x.idle).attempts x.poll with
    | false =>
      obtain ⟨hr, hp⟩ := poll_rest hatt
      have hrest := hidle.trans hr
      obtain ⟨made, hm⟩ := ih (hrest.armed ha) hk.2 (hrest.blocked hb)
      exact ⟨made, hm.rest hrest (hp.trans (congrArg (· + _) hpop))⟩
    | true =>
      obtain ⟨⟨r, hr⟩, ho, hp⟩ := poll_attempt (hidle.armed ha) hk.1 hatt
      obtain ⟨made, hm⟩ := ih hr.armed hk.2 (attempt_next hr)
      have hbegan : t ≤ r.began := by
        rcases hidle.blocked hb with hn | ⟨d, hd, hle⟩ | hd
        · exact Nat.le_trans hn hr.began
        · exact Nat.le_trans hle (hr.due d hd)
        · rw [hd.attempts] at hatt
          cases hatt
      have hr' : Attempt c (c.turn x).1 r :=
        ⟨hr.restarts.trans (by rw [hidle.restarts]), Nat.le_trans hidle.now hr.began, fun d hd => hr.due d (hidle.retryAt.trans hd),
          hr.order, hr.ended, hr.armed, hidle.grown.trans hr.grown, hidle.failures ▸ hr.failures, by
            cases hr.left with
            | started h1 h2 => exact .started h1 h2
            | scheduled h1 h2 => exact .scheduled h1 h2
            | refused h1 h2 h3 => exact .refused h1 (hidle.retryAt ▸ h2) h3⟩
      refine ⟨r :: made, hm.attempt hr' hbegan ho ?_⟩
      rcases hp with hp | ⟨hp, hne⟩
      · exact .inl (hp.trans (congrArg (· + 1) hpop))
      · exact .inr ⟨hp.trans hpop, fun h => hne (hidle.retryAt.trans h)⟩

theorem polls_armed {c : Core} (ha : Armed c) {ts : List PollTurn} (hk : c.KeysThere ts) : Armed (c.polls ts).1 := by
  induction ts generalizing c with
  | nil => exact ha
  | cons x ts ih =>
    have hidle := (moves_rest c x.idle).armed ha
    refine ih ?_ hk.2
    cases hatt : (c.moves x.idle).attempts x.poll with
    | false => exact (poll_rest hatt).1.armed hidle
    | true =>
      obtain ⟨⟨r, hr⟩, _⟩ := poll_attempt hidle hk.1 hatt
      exact hr.armed

theorem keysThere_append {c : Core} {ts us : List PollTurn} (h : c.KeysThere (ts ++ us)) :
    c.KeysThere ts ∧ (c.polls ts).1.KeysThere us := by
  induction ts generalizing c with
  | nil => exact ⟨trivial, h⟩
  | cons x ts ih => exact ⟨⟨h.1, (ih h.2).1⟩, (ih h.2).2⟩

/-- What was popped in between was waiting before, or was pushed by a reader or by a failed
    attempt. -/
theorem Tally.poppedCount {c : Core} {t : Nat} {r : Core × List (Option SessionEvent)} {made : List Restart}
    (h : Tally c t r made) :
    r.1.poppedCount ≤ c.poppedCount + c.waiting + (r.1.host.emitted - c.host.emitted) + fails made := by
  have h1 := c.host.client.events.ledger_length
  have h2 := r.1.host.client.events.ledger_length
  have h3 := failures_add_emitted c.host
  have h4 := failures_add_emitted r.1.host
  have h5 := h.grown.lost
  have h6 := h.failures
  unfold Core.poppedCount waiting
  omega

end Core

/-- For any number of polls from a reachable state, none of which is refused for want of the
    key file with a deadline set: the attempts are five seconds apart after a failure; the
    events returned, and so the rounds of a loop that goes on while there is one, are
    bounded; and a stretch without an attempt returns only what waits and what readers push. -/
theorem polls_bounded {K : Checks} {ok : System → Event → Prop} {y : System} (h : (systems K).Reach ok y)
    (ts : List PollTurn) (hk : y.core.KeysThere ts) :
    ∃ made, (y.core.polls ts).1.restarts = y.core.restarts ++ made ∧ Spaced y.core.now made ∧
      y.core.now + spent made + 5000 * (fails made - 1) ≤ (y.core.polls ts).1.now ∧
      returned (y.core.polls ts).2 ≤
        y.core.waiting + ((y.core.polls ts).1.host.emitted - y.core.host.emitted) + 2 * fails made + 1 ∧
      ∀ us vs, ts = us ++ vs → ((y.core.polls us).1.polls vs).1.restarts = (y.core.polls us).1.restarts →
        returned ((y.core.polls us).1.polls vs).2 ≤
          (y.core.polls us).1.waiting + (((y.core.polls us).1.polls vs).1.host.emitted - (y.core.polls us).1.host.emitted) := by
  obtain ⟨made, hm⟩ := Core.polls_tally (armed h) hk (.inl (Nat.le_refl y.core.now))
  refine ⟨made, hm.restarts, hm.spaced, hm.spaced.idle hm.now hm.ended, ?_, fun us vs hts hsame => ?_⟩
  · have h1 := hm.returned
    have h2 := hm.poppedCount
    have h3 : y.core.phoneKeyRetryAt.isSome.toNat ≤ 1 := Bool.toNat_le _
    omega
  · subst hts
    obtain ⟨hku, hkv⟩ := Core.keysThere_append hk
    obtain ⟨none_made, hn⟩ := Core.polls_tally (Core.polls_armed (armed h) hku) hkv (.inl (Nat.le_refl _))
    have hnil : none_made = [] := List.append_cancel_left ((hn.restarts.symm.trans hsame).trans (List.append_nil _).symm)
    subst hnil
    have h1 := hn.popped
    have h2 := hn.poppedCount
    have h3 : fails [] = 0 := rfl
    simp only [List.length_nil] at h1
    omega

/-! ## Runs -/

/-- The start request's child cannot be spawned. -/
def startFails : SectionEnv := { start := { run := { spawn := some (.spawn "No such file or directory") } } }

/-- Presence wanted, the first start failed, and five seconds later. -/
def retryPending : List Event :=
  [.new (some .bluez) false none, .call .startPhoneKey, .advance 0 startFails, .move (.tick 5000)]

def retryDueState : System := (systems anyArgs).run (.start pairedWorld) retryPending

theorem retryDueState_reached : (systems anyArgs).Reach (fun _ _ => True) retryDueState :=
  Machine.Reach.run (M := systems anyArgs) (.init ⟨pairedWorld, rfl⟩) retryPending (Machine.Allowed.of_forall (fun _ _ => trivial) _ _)

/-- Two more failed attempts five seconds apart, and polls in between. -/
def failingPolls : List PollTurn :=
  [{ poll := { start := startFails.start } }, {}, { idle := [.tick 5000], poll := { start := startFails.start } }, {}]

theorem failingPolls_bounded :
    returned (retryDueState.core.polls failingPolls).2 = 2 ∧
    ∃ made, (retryDueState.core.polls failingPolls).1.restarts = retryDueState.core.restarts ++ made ∧
      Spaced retryDueState.core.now made ∧
      retryDueState.core.now + spent made + 5000 * (fails made - 1) ≤ (retryDueState.core.polls failingPolls).1.now ∧
      returned (retryDueState.core.polls failingPolls).2 ≤ retryDueState.core.waiting +
        ((retryDueState.core.polls failingPolls).1.host.emitted - retryDueState.core.host.emitted) + 2 * fails made + 1 := by
  have hk : retryDueState.core.KeysThere failingPolls :=
    ⟨fun _ _ => by decide, fun _ _ => by decide, fun _ _ => by decide, fun _ _ => by decide, trivial⟩
  obtain ⟨made, h1, h2, h3, h4, _⟩ := polls_bounded retryDueState_reached failingPolls hk
  exact ⟨by decide, made, h1, h2, h3, h4⟩

/-! ### Without the key file -/

namespace Core

/-- A deadline has passed and the start will be refused. -/
structure Spinning (c : Core) : Prop where
  enabled : c.phoneKeyEnabled = true
  due : ∃ t, c.phoneKeyRetryAt = some t ∧ t ≤ c.now
  session : c.session = true
  child : c.host.client.child = none
  items : c.host.client.events.items = []
  key : c.disk.priv = none

/-- After one more refused attempt. -/
def respun (c : Core) : Core :=
  { c with host := (c.host.setPresence false).clearEvents, phoneKeyStarted := false,
           restarts := c.restarts ++ [⟨c.now, c.now, false⟩] }

theorem Spinning.respun {c : Core} (h : Spinning c) : Spinning c.respun := ⟨h.enabled, h.due, h.session, h.child, rfl, h.key⟩

theorem Spinning.turn {c : Core} (h : Spinning c) : (c.turn {}).1 = c.respun ∧ (c.turn {}).2.isSome = true := by
  obtain ⟨t, ht, hle⟩ := h.due
  have hpoll : c.pollEvent = (c, none) := by
    unfold pollEvent
    rw [if_pos h.session]
    show (c.setHost (c.host.setEvents (DropQueue.pop _).1), (DropQueue.pop _).2) = _
    rw [DropQueue.pop_nil h.items]
    rfl
  have hx : ∃ x, c.event {} = some x := by
    unfold event judged polled
    rw [hpoll]
    show ∃ x, (c.polledEvent none c.retryDue) = some x
    have hd : c.retryDue = true := by simp [retryDue, ht, hle]
    simp [polledEvent, hd, h.enabled]
  obtain ⟨x, hx⟩ := hx
  have hatt := attempts_of_made_up (by rw [hpoll]) hx
  obtain ⟨x', _, heq⟩ := poll_of_attempts hatt
  have hgated : c.gated {} = c := by
    unfold gated judged polled
    rw [hpoll]
    rfl
  have hret : c.retired {} = { c with host := (c.host.setPresence false).clearEvents, phoneKeyStarted := false } := by
    unfold retired
    rw [hgated]
    rcases pollGate_cases c [] with ⟨_, hf | ⟨t', ht', hlt⟩⟩ | ⟨hg, _⟩
    · rw [h.enabled] at hf
      cases hf
    · rw [ht] at ht'
      cases ht'
      exact absurd hlt (Nat.not_lt.2 hle)
    · show (c.pollGate []).1.moves [] = _
      rw [hg, invalidate_eq]
      show _ = { c with host := (c.host.setPresence false).clearEvents, phoneKeyStarted := false }
      have hi : c.host.invalidate [] = (c.host.setPresence false).clearEvents := by
        unfold Host.invalidate
        have hc : (c.host.setPresence false).client.child = none := h.child
        simp [hc]
      simp only [h.session, if_true, hi]
      rfl
  show (c.pollPhoneKeyEvent {}).1 = _ ∧ (c.pollPhoneKeyEvent {}).2.isSome = true
  rw [heq]
  refine ⟨?_, rfl⟩
  rw [hret]
  generalize hd : ({ c with host := (c.host.setPresence false).clearEvents, phoneKeyStarted := false } : Core) = d
  have hstart : d.startPhoneKey {} = (d, .error .notPaired) := by
    subst hd
    have hkey : (eligible { c with host := (c.host.setPresence false).clearEvents, phoneKeyStarted := false }) = false := by
      show (_ && c.disk.priv.isSome) = false
      rw [h.key]
      exact Bool.and_false _
    unfold startPhoneKey
    simp only [Bool.false_and, Bool.false_eq_true, if_false]
    show (if !eligible { c with host := (c.host.setPresence false).clearEvents, phoneKeyStarted := false } then _ else _) = _
    rw [hkey]
    rfl
  show (d.restart {}).1 = _
  unfold restart
  rw [hstart]
  subst hd
  rfl

theorem Spinning.polls {c : Core} (h : Spinning c) (n : Nat) :
    (∀ o ∈ (c.polls (List.replicate n {})).2, o.isSome = true) ∧ (c.polls (List.replicate n {})).2.length = n ∧
    (c.polls (List.replicate n {})).1.restarts.length = c.restarts.length + n ∧ (c.polls (List.replicate n {})).1.now = c.now := by
  induction n generalizing c with
  | zero => exact ⟨fun _ => nofun, rfl, rfl, rfl⟩
  | succ n ih =>
    obtain ⟨hc, ho⟩ := h.turn
    obtain ⟨h1, h2, h3, h4⟩ := ih h.respun
    rw [← hc] at h1 h2 h3 h4
    refine ⟨fun o hm => ?_, congrArg (· + 1) h2, ?_, ?_⟩
    · rcases List.mem_cons.1 hm with rfl | hm
      · exact ho
      · exact h1 o hm
    · refine h3.trans ?_
      rw [hc]
      show (c.restarts ++ [_]).length + n = _
      rw [List.length_append, List.length_singleton]
      omega
    · exact h4.trans (by rw [hc]; rfl)

end Core

/-- With a deadline that has passed and no key file every poll attempts a restart and
    returns an event, at the same moment, for as long as the loop goes on. -/
theorem missing_key_spins : ∃ y, (systems anyArgs).Reach (fun _ _ => True) y ∧ ∀ n,
    (∀ o ∈ (y.core.polls (List.replicate n {})).2, o.isSome = true) ∧ (y.core.polls (List.replicate n {})).2.length = n ∧
    (y.core.polls (List.replicate n {})).1.restarts.length = y.core.restarts.length + n ∧
    (y.core.polls (List.replicate n {})).1.now = y.core.now :=
  ⟨retryDueState.step anyArgs (.move .unlinkKey), .step (M := systems anyArgs) (.move .unlinkKey) retryDueState_reached trivial,
    Core.Spinning.polls ⟨by decide, ⟨5000, by decide, by decide⟩, by decide, by decide, by decide, by decide⟩⟩

end ElectricEel.Control
