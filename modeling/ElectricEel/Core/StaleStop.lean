/-
  ElectricEel.Core.StaleStop — whose stop a poll takes for the end of presence (core.rs
  `start_phone_key`, `poll_phone_key_event`).

  A presence_stopped says of which child it is nowhere but in its ghost origin: the poll
  takes any of them for the end of what runs now, kills the child and starts another.
  `start_phone_key` discards what waits only when phone_key_started is set and presence is
  not active. So a notice of a child that died before the first start survives it, and so
  does an event a poll took before the start (`stale_notice_restarts`).

  `StartsClean`: when the presence-start goes to `session.run`, no presence_stopped waits,
  no dead child is to be replaced, and no other poll holds such an event or has found a
  retry due.

  Proved: in every run whose starts are clean, what a poll holds and what waits is of the
  child presence runs on, so a poll invalidates it only for its own frame or its own
  reader's notice, or when it is dead (`own_stops_only`).
-/
import ElectricEel.Core.Advance
import ElectricEel.Core.PresenceFlags

namespace ElectricEel.Control

open Lib Commands Wire Config Client

/-! ## Presence on the slot's child -/

/-- A start has returned OK on the slot's child, and nothing has ended presence since. -/
structure Core.RunsOn (c : Core) (h : Handle) : Prop where
  started : c.phoneKeyStarted = true
  active : c.host.client.presenceActive = true
  child : c.host.client.child = some h

/-- If presence is on in `t`, it was on in `s` on the same child, and no stop of another child came to wait. -/
structure Follows (s t : Host) : Prop where
  slot : t.client.presenceActive = true → s.client.presenceActive = true ∧ t.slot = s.slot
  owned : t.client.presenceActive = true → s.Owned → t.Owned

theorem Follows.of_client {s t : Host} (h : t.client = s.client) : Follows s t := by
  obtain ⟨client, w⟩ := s
  obtain ⟨client', w'⟩ := t
  obtain rfl : client' = client := h
  exact ⟨fun hp => ⟨hp, rfl⟩, fun _ => id⟩

theorem moves_follows (s : Host) (ms : List Move) : Follows s (s.moves ms) :=
  ⟨fun hp => ⟨(moves_same s ms).presenceActive ▸ hp, (moves_same s ms).slot⟩, fun _ => moves_owned ms⟩

theorem run_follows {s : Host} (ht : Truthful s) {c : Call} (hc : c.Calm) (e : RunEnv) : Follows s (s.run c e).1 := by
  refine ⟨fun hp => ?_, fun hp ho => run_keeps_owned ht hc.start (fun _ => ho) hp⟩
  have hr := ran s c e
  generalize s.run c e = r at hr hp
  cases hr with
  | failed err hempty =>
    obtain ⟨hf, hslot⟩ := hempty.presenceActive hp
    exact (nomatch (ht.empty hslot).symm.trans hf)
  | @answered t x resp seq hopen =>
    have hcmd : (resp.ok && (c.cmd == .presenceStart || c.cmd == .presenceStop)) = false := by
      rw [beq_false_of_ne hc.start, beq_false_of_ne hc.stop]
      exact Bool.and_false _
    rw [hcmd] at hp ⊢
    obtain ⟨hf, hslot | hslot⟩ := hopen.presenceActive hp
    · exact ⟨hf, hopen.slot.trans hslot.symm⟩
    · exact (nomatch (ht.empty hslot).symm.trans hf)

theorem Asked.follows {s t : Host} (h : Asked s t) (ht : Truthful s) : Follows s t := by
  cases h with
  | nothing hc => exact .of_client hc
  | once c e hc he =>
    have hr := run_follows ht hc e
    have hu : Follows (s.run c e).1 t := .of_client he
    exact ⟨fun hp => ⟨(hr.slot (hu.slot hp).1).1, (hu.slot hp).2.trans (hr.slot (hu.slot hp).1).2⟩,
      fun hp ho => hu.owned hp (hr.owned (hu.slot hp).1 ho)⟩

theorem Core.RunsOn.before {c c' : Core} {h' : Handle} (h : c'.RunsOn h') (hst : c'.phoneKeyStarted = c.phoneKeyStarted)
    (hf : Follows c.host c'.host) : ∃ x, c.RunsOn x ∧ x.gen = h'.gen := by
  obtain ⟨ha, hslot⟩ := hf.slot h.active
  rw [slot_of h.child] at hslot
  obtain ⟨x, hx, hg⟩ := Option.map_eq_some_iff.1 hslot.symm
  exact ⟨x, ⟨hst ▸ h.started, ha, hx⟩, congrArg Prod.fst hg⟩

/-! ## What polls hold -/

/-- The origin of the presence_stopped event the call holds, or will make up. -/
def Pending.stop : Pending → Option Origin
  | .popped (some x) | .judged (some x) _ => if x.ev.kind = .presenceStopped then some x.src else none
  | .judged none true => some .timer
  | .stopped x => some x.src
  | _ => none

/-- Presence runs on a child: what polls hold and what waits is that child's own. -/
def System.OwnStops (y : System) : Prop :=
  ∀ h, y.core.RunsOn h → y.core.host.Owned ∧ ∀ p ∈ y.calls, ∀ o, p.stop = some o → o.of h.gen

theorem System.OwnStops.off {y : System} (h : y.core.phoneKeyStarted = false) : y.OwnStops :=
  fun _ hr => (nomatch h.symm.trans hr.started)

/-- A step that leaves presence on brings no stop but one that was held or waited. -/
theorem System.OwnStops.keep {y y' : System} (hy : y.OwnStops) (hst : y'.core.phoneKeyStarted = y.core.phoneKeyStarted)
    (hf : Follows y.core.host y'.core.host)
    (hc : y.core.phoneKeyStarted = true → ∀ p ∈ y'.calls, ∀ o, p.stop = some o →
      (∃ q ∈ y.calls, q.stop = some o) ∨ ∃ x ∈ y.core.host.client.events.items, x.ev.kind = .presenceStopped ∧ x.src = o) :
    y'.OwnStops := by
  intro h' hr
  obtain ⟨h, hrun, hg⟩ := hr.before hst hf
  obtain ⟨ho, hcalls⟩ := hy h hrun
  refine ⟨hf.owned hr.active ho, fun p hp o hstop => ?_⟩
  rcases hc hrun.started p hp o hstop with ⟨q, hq, hqs⟩ | ⟨x, hx, hk, rfl⟩
  · exact hg ▸ hcalls q hq o hqs
  · exact hg ▸ ho h hrun.child x hx hk

/-- The next section of a poll holds what the poll held. -/
theorem advance_stop (K : Checks) {c : Core} (hw : c.Wanted) (hst : c.phoneKeyStarted = true) (e : SectionEnv) {p q : Pending}
    (hq : q ∈ (advance K c e p).2) {o : Origin} (ho : q.stop = some o) : p.stop = some o := by
  cases p with
  | popped x =>
    have hq' : q = .judged x c.retryDue := (Option.some.inj hq).symm
    have hdue : c.retryDue = false := by rw [Core.retryDue, (hw hst).2]; rfl
    rw [hq', hdue] at ho
    cases x with
    | none => cases ho
    | some y => exact ho
  | judged x due =>
    unfold advance at hq
    dsimp only at hq
    split at hq
    · cases hq
    · rename_i y hy
      dsimp only at hq
      split at hq
      · rename_i hk
        obtain rfl := Option.some.inj hq
        cases x with
        | none =>
          obtain ⟨rfl, hsrc⟩ := Core.polledEvent_none hy
          rw [← ho]
          exact congrArg some hsrc.symm
        | some z =>
          obtain ⟨y', hy', hsrc, hkind⟩ := Core.polledEvent_some c z due
          obtain rfl := Option.some.inj (hy'.symm.trans hy)
          rw [← ho]
          exact (if_pos (hkind.symm.trans hk)).trans (congrArg some hsrc.symm)
      · cases hq
  | begun op =>
    have hnext : q = .starting := by
      unfold advance at hq
      cases op with
      | pair =>
        dsimp only at hq
        split at hq
        · cases hq
        · exact (Option.some.inj hq).symm
      | setConfig =>
        dsimp only at hq
        split at hq
        · exact (Option.some.inj hq).symm
        · cases hq
      | handleResume => exact (Option.some.inj hq).symm
      | _ => cases hq
    rw [hnext] at ho
    cases ho
  | stopped x =>
    have hnext : q = .restarting x := by
      unfold advance at hq
      dsimp only at hq
      split at hq
      · cases hq
      · exact (Option.some.inj hq).symm
    rw [hnext] at ho
    cases ho
  | starting => cases hq
  | restarting x => cases hq

/-! ## Clean starts -/

namespace Core

/-- start_phone_key comes to send its request. -/
def SendsStart (c : Core) (e : StartEnv) : Prop := (c.phoneKeyStarted && c.isPresenceActive) = false ∧ (c.checked e).ready = true

/-- The client when the request goes to `session.run`. -/
def startHost (c : Core) (e : StartEnv) : Host := ((c.checked e).prepared c.phoneKeyStarted e).host

/-- No presence_stopped waits, and no dead child is to be replaced. -/
structure CleanStart (c : Core) (e : StartEnv) : Prop where
  silent : ¬ (c.startHost e).Noticed
  child : (c.startHost e).client.child = none ∨ (c.startHost e).isAlive = true

/-- A clean start that turns presence on leaves only its own child's stops waiting. -/
theorem startPhoneKey_owned {c : Core} {e : StartEnv} (hsend : c.SendsStart e) (hclean : c.CleanStart e)
    (hst : (c.startPhoneKey e).1.phoneKeyStarted = true) : (c.startPhoneKey e).1.host.Owned := by
  have hs := started c e
  generalize c.startPhoneKey e = r at hs hst ⊢
  cases hs with
  | kept h1 h2 =>
    have hnot := hsend.1
    rw [h1, h2] at hnot
    cases hnot
  | refused => cases hst
  | sent =>
    rw [startPresence_eq] at hst ⊢
    have hrun := run_owned (c := ((c.checked e).prepared c.phoneKeyStarted e).call .presenceStart []) (e := e.run) hclean.silent hclean.child
    rcases presenceStarted_cases (((c.checked e).prepared c.phoneKeyStarted e).sessionRun .presenceStart [] e.run).1
      (((c.checked e).prepared c.phoneKeyStarted e).sessionRun .presenceStart [] e.run).2 with ⟨_, _, _, h⟩ | ⟨_, _, h⟩
    · rw [h]
      exact hrun
    · rw [h] at hst
      cases hst

/-- A start that sends nothing leaves the core as it was, or phone_key_started cleared. -/
theorem startPhoneKey_silent {c : Core} {e : StartEnv} (hsend : ¬ c.SendsStart e) :
    (c.startPhoneKey e).1 = c ∨ (c.startPhoneKey e).1.phoneKeyStarted = false := by
  have hs := started c e
  generalize c.startPhoneKey e = r at hs ⊢
  cases hs with
  | kept => exact .inl rfl
  | refused => exact .inr rfl
  | sent hnot hready => exact (hsend ⟨hnot, hready⟩).elim

end Core

/-- A start that sends its request is clean, and no other poll holds a stop event. -/
def System.StartsClean (y : System) (ev : Event) : Prop :=
  ∀ i e p, ev = .advance i e → y.calls[i]? = some p → p.startsNow = true → y.core.SendsStart e.start →
    y.core.CleanStart e.start ∧ ∀ q ∈ y.calls.eraseIdx i, q.stop = none

/-! ## Runs -/

theorem wanted {K : Checks} {ok : System → Event → Prop} {y : System} (h : (systems K).Reach ok y) : y.core.Wanted := by
  refine h.inv (I := fun y => y.core.Wanted) ?_ fun y ev hy _ => ?_
  · rintro y ⟨w, rfl⟩
    exact Core.wanted_of_stopped rfl
  · show (y.step K ev).core.Wanted
    cases ev with
    | move m => exact hy
    | call op =>
      unfold System.step
      dsimp only
      split <;> exact hy
    | poll =>
      unfold System.step
      dsimp only
      split
      · exact (Core.pollEvent_steady _).wanted hy
      · exact hy
    | advance i e =>
      unfold System.step
      dsimp only
      split
      · exact hy
      · exact Core.advance_wanted K hy e _
    | drop e =>
      unfold System.step
      dsimp only
      split
      · exact Core.wanted_of_stopped (Core.drop_ended y.core e).phoneKeyStarted
      · exact hy
    | new backend unreadable fault =>
      unfold System.step
      dsimp only
      split
      · exact hy
      · split
        · exact hy
        · rename_i heq
          unfold Core.new at heq
          split at heq
          · cases heq
          · cases heq
            exact Core.wanted_of_stopped rfl

theorem advance_ownStops (K : Checks) {y : System} (ht : Truthful y.core.host) (hw : y.core.Wanted) (hy : y.OwnStops) {i : Nat}
    {e : SectionEnv} {p : Pending} (hp : y.calls[i]? = some p) (hok : y.StartsClean (.advance i e)) :
    System.OwnStops { y with core := (advance K y.core e p).1, calls := y.calls.eraseIdx i ++ (advance K y.core e p).2.toList } := by
  have hcalls : y.core.phoneKeyStarted = true → ∀ q ∈ y.calls.eraseIdx i ++ (advance K y.core e p).2.toList, ∀ o, q.stop = some o →
      (∃ q ∈ y.calls, q.stop = some o) ∨ ∃ x ∈ y.core.host.client.events.items, x.ev.kind = .presenceStopped ∧ x.src = o := by
    intro hst q hq o ho
    rcases List.mem_append.1 hq with hq | hq
    · exact .inl ⟨q, List.mem_of_mem_eraseIdx hq, ho⟩
    · exact .inl ⟨p, List.mem_of_getElem? hp, advance_stop K hw hst e (Option.mem_toList.1 hq) ho⟩
  have hadv := advanced K y.core e p
  have hnext : p.startsNow = true → (advance K y.core e p).2 = none := by
    intro hs
    cases p with
    | begun op =>
      cases op with
      | startPhoneKey => rfl
      | _ => cases hs
    | starting | restarting => rfl
    | popped | judged | stopped => cases hs
  generalize advance K y.core e p = r at hcalls hadv hnext ⊢
  obtain ⟨c', next⟩ := r
  cases hadv with
  | plain hpl => exact hy.keep hpl.steady.phoneKeyStarted (hpl.asked.follows ht) hcalls
  | ended ho => exact .off ho.phoneKeyStarted
  | start l hs =>
    obtain rfl : next = none := hnext hs
    by_cases hsend : y.core.SendsStart e.start
    · obtain ⟨hclean, hnone⟩ := hok i e p rfl hp hs hsend
      refine fun h hr => ⟨Core.startPhoneKey_owned hsend hclean hr.started, fun q hq o ho => ?_⟩
      rw [Option.toList_none, List.append_nil] at hq
      exact (nomatch (hnone q hq).symm.trans ho)
    · rcases Core.startPhoneKey_silent hsend with hc | hoff
      · rw [hc]
        exact hy.keep (by rfl) (.of_client rfl) hcalls
      · exact .off hoff
  | resume =>
    have hoff : (y.core.handleResumeSection e).phoneKeyStarted = false := by rw [Core.handleResumeSection_eq]
    exact .off hoff
  | gate x =>
    refine .off ?_
    rcases Core.pollGate_cases y.core e.invalidating with ⟨hg, _⟩ | ⟨hg, _⟩
    · rw [hg]
    · rw [hg]
      exact (Core.invalidate_steady _ _).phoneKeyStarted

theorem poll_ownStops {y : System} (hy : y.OwnStops) :
    System.OwnStops { y with core := y.core.pollEvent.1, calls := y.calls ++ [.popped y.core.pollEvent.2] } := by
  have hfollows : Follows y.core.host y.core.pollEvent.1.host := by
    rw [Core.pollEvent_fst]
    show Follows y.core.host (if y.core.session then y.core.host.pollEvent.1 else y.core.host)
    split
    · exact ⟨fun hp => ⟨hp, rfl⟩, fun _ ho h hc x hx hk => ho h hc x (DropQueue.mem_pop hx) hk⟩
    · exact .of_client rfl
  refine hy.keep (Core.pollEvent_steady y.core).phoneKeyStarted hfollows fun _ p hp o ho => ?_
  rcases List.mem_append.1 hp with hp | hp
  · exact .inl ⟨p, hp, ho⟩
  · obtain rfl := List.mem_singleton.1 hp
    unfold Core.pollEvent at ho
    split at ho
    · cases hx : y.core.host.pollEvent.2 with
      | none =>
        rw [hx] at ho
        cases ho
      | some x =>
        rw [hx] at ho
        dsimp only [Pending.stop] at ho
        split at ho
        · rename_i hk
          exact .inr ⟨x, DropQueue.mem_of_pop hx, hk, Option.some.inj ho⟩
        · cases ho
    · cases ho

theorem step_ownStops {K : Checks} {y : System} (ht : Truthful y.core.host) (hw : y.core.Wanted) (hy : y.OwnStops) {ev : Event}
    (hok : y.StartsClean ev) : (y.step K ev).OwnStops := by
  cases ev with
  | move m => exact hy.keep (by rfl) (moves_follows y.core.host [m]) fun _ p hp o ho => .inl ⟨p, hp, ho⟩
  | call op =>
    unfold System.step
    dsimp only
    split
    · refine hy.keep (by rfl) (.of_client rfl) fun _ p hp o ho => ?_
      rcases List.mem_append.1 hp with hp | hp
      · exact .inl ⟨p, hp, ho⟩
      · rw [List.mem_singleton.1 hp] at ho
        cases ho
    · exact hy
  | poll =>
    unfold System.step
    dsimp only
    split
    · exact poll_ownStops hy
    · exact hy
  | advance i e =>
    unfold System.step
    dsimp only
    split
    · exact hy
    · rename_i p hp
      exact advance_ownStops K ht hw hy hp hok
  | drop e =>
    unfold System.step
    dsimp only
    split
    · exact .off (Core.drop_ended y.core e).phoneKeyStarted
    · exact hy
  | new backend unreadable fault =>
    unfold System.step
    dsimp only
    split
    · exact hy
    · split
      · exact hy.keep (by rfl) (.of_client rfl) fun _ p hp o ho => .inl ⟨p, hp, ho⟩
      · rename_i heq
        unfold Core.new at heq
        split at heq
        · cases heq
        · cases heq
          exact .off rfl

theorem ownStops {K : Checks} {y : System} (h : (systems K).Reach System.StartsClean y) : y.OwnStops := by
  refine h.inv_of (I := System.OwnStops) (J := fun y => Truthful y.core.host ∧ y.core.Wanted)
    (fun y hy => ⟨truthful (host_reached hy), wanted hy⟩) ?_ fun y ev hJ hy hok => step_ownStops hJ.1 hJ.2 hy hok
  rintro y ⟨w, rfl⟩
  exact .off rfl

/-! ## Whom a poll invalidates -/

/-- The call is a poll. -/
def Pending.polls : Pending → Bool
  | .popped _ | .judged _ _ | .stopped _ | .restarting _ => true
  | _ => false

/-- The next section of a poll leaves the child presence runs on in the slot, unless its reader
    is gone or the event the poll holds is that child's own. -/
def System.Spared (K : Checks) (y : System) (ev : Event) : Prop :=
  ∀ i e p h, ev = .advance i e → y.calls[i]? = some p → p.polls = true → y.core.RunsOn h →
    (∃ h', (y.step K ev).core.host.client.child = some h' ∧ h'.gen = h.gen) ∨ h.alive = false ∨ ∃ x, p = .stopped x ∧ x.src.of h.gen

/-- While starts are clean a stop of a retired child restarts nothing. -/
theorem own_stops_only {K : Checks} {y : System} (h : (systems K).Reach System.StartsClean y) (ev : Event) : y.Spared K ev := by
  rintro i e p x rfl hp hpolls hrun
  have hcore : (y.step K (.advance i e)).core = (advance K y.core e p).1 := by simp only [System.step, hp]
  rw [hcore]
  cases p with
  | begun | starting => cases hpolls
  | popped z => exact .inl ⟨x, hrun.child, rfl⟩
  | judged z due =>
    rw [advance_judged]
    exact .inl ⟨x, hrun.child, rfl⟩
  | stopped z => exact .inr (.inr ⟨z, rfl, (ownStops h x hrun).2 _ (List.mem_of_getElem? hp) _ rfl⟩)
  | restarting z =>
    cases ha : x.alive with
    | false => exact .inr (.inl rfl)
    | true =>
      have hs : y.core.session = true := by
        cases hs : y.core.session with
        | true => rfl
        | false =>
          have hchild := (slot_none.1 ((current h).noSession hs)).symm.trans hrun.child
          cases hchild
      have hact : y.core.isPresenceActive = true := by
        rw [Core.isPresenceActive, Host.isPresenceActive, hs, hrun.active, isAlive_of hrun.child, ha]
        rfl
      have hkept : (advance K y.core e (.restarting z)).1.host = y.core.host := by
        show (y.core.startPhoneKey e.start).1.host = _
        unfold Core.startPhoneKey
        rw [hrun.started, hact, if_pos (by rfl)]
      rw [hkept]
      exact .inl ⟨x, hrun.child, rfl⟩

/-! ## Three runs -/

/-- Presence started on the first child, which died; a poll holds its notice. -/
def ownNotice : List Event :=
  [.new (some .bluez) false none, .call .startPhoneKey, .advance 0 startAnswered] ++ childDies ++ [.poll, .advance 0 {}, .advance 0 {}]

/-- A command's child died idle, then presence started on the next; a poll holds the notice. -/
def staleNotice : List Event :=
  [.new (some .bluez) false none, .call (.run (.vendor .ping) []), .advance 0 { run := answered }] ++ childDies ++
    [.call .startPhoneKey, .advance 0 startAnswered, .poll, .advance 0 {}, .advance 0 {}]

/-- Presence started, its child died, a poll took the notice, and presence was started again
    before the poll's section. -/
def overtakenPoll : List Event :=
  [.new (some .bluez) false none, .call .startPhoneKey, .advance 0 startAnswered] ++ childDies ++
    [.poll, .call .startPhoneKey, .advance 1 startAnswered, .advance 0 {}, .advance 0 {}]

def after (evs : List Event) : System := (systems anyArgs).run (.start pairedWorld) evs

theorem after_reached (evs : List Event) : (systems anyArgs).Reach (fun _ _ => True) (after evs) :=
  Machine.Reach.run (M := systems anyArgs) (.init ⟨pairedWorld, rfl⟩) evs (.of_forall (fun _ _ => trivial) _ _)

def notice (error : String) (src : Origin) : Entry := ⟨{ kind := .presenceStopped, vin := pairedConfig.vin, error }, src⟩

theorem ownNotice_clean : (systems anyArgs).Reach System.StartsClean (after ownNotice) := by
  refine Machine.Reach.run (M := systems anyArgs) (.init ⟨pairedWorld, rfl⟩) ownNotice ⟨?_, ?_, ?_, ?_, ?_, ?_, ?_, ?_, ?_, ?_, trivial⟩
  all_goals
    intro i e p he hp hs hsend
    cases he
  · refine ⟨⟨fun hn => ?_, .inl rfl⟩, fun _ => nofun⟩
    obtain ⟨x, hx, _⟩ := hn
    cases hx
  · obtain rfl := Option.some.inj hp
    cases hs
  · obtain rfl := Option.some.inj hp
    cases hs

theorem ownNotice_spared :
    (after ownNotice).calls = [.stopped (notice "tesla-session transport closed" (.closed 1))] ∧
      ∀ ev, (after ownNotice).Spared anyArgs ev :=
  ⟨by decide, own_stops_only ownNotice_clean⟩

/-- A poll that holds a stop of an earlier child than the live one presence runs on kills that one. -/
theorem not_spared {evs : List Event} {x : Entry} {g : Nat} (hcalls : (after evs).calls = [.stopped x])
    (hst : (after evs).core.phoneKeyStarted = true) (hact : (after evs).core.host.client.presenceActive = true)
    (hc : (after evs).core.host.client.child.map (fun h => (h.gen, h.alive)) = some (g, true)) (hx : ¬ x.src.of g)
    (hkill : ((after evs).step anyArgs (.advance 0 {})).core.host.client.child = none) :
    ¬ (after evs).Spared anyArgs (.advance 0 {}) := by
  intro h
  obtain ⟨y, hy, hg⟩ := Option.map_eq_some_iff.1 hc
  obtain ⟨rfl, ha⟩ := Prod.mk.inj hg
  rcases h 0 {} (.stopped x) y rfl (by rw [hcalls]; rfl) rfl ⟨hst, hact, hy⟩ with ⟨h', hh, _⟩ | hdead | ⟨z, hz, hsrc⟩
  · rw [hkill] at hh
    cases hh
  · rw [ha] at hdead
    cases hdead
  · obtain rfl := Pending.stopped.inj hz
    exact hx hsrc

/-- The notice of a child that died before the first start restarts the child presence runs
    on, and so does a notice a poll took before the start. -/
theorem stale_notice_restarts :
    ¬ (∀ y, (systems anyArgs).Reach (fun _ _ => True) y → ∀ ev, y.Spared anyArgs ev) ∧
    (after staleNotice).calls = [.stopped (notice "tesla-session transport failed" (.failed 1))] ∧
    (after overtakenPoll).calls = [.stopped (notice "tesla-session transport closed" (.closed 1))] ∧
    ¬ (after overtakenPoll).Spared anyArgs (.advance 0 {}) := by
  have hstale : (after staleNotice).calls = [.stopped (notice "tesla-session transport failed" (.failed 1))] := by decide
  have hover : (after overtakenPoll).calls = [.stopped (notice "tesla-session transport closed" (.closed 1))] := by decide
  refine ⟨fun h => ?_, hstale, hover, ?_⟩
  · exact not_spared (g := 2) hstale (by decide) (by decide) (by decide) nofun (by decide) (h _ (after_reached staleNotice) _)
  · exact not_spared (g := 2) hover (by decide) (by decide) (by decide) nofun (by decide)

end ElectricEel.Control
