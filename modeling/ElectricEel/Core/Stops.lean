/-
  ElectricEel.Core.Stops — intentional stops cancel retries (docs/architecture.md, core.rs
  `stop_phone_key`, `poll_phone_key_event`).

  A poll looks at `phone_key_enabled` in its section under the gate, releases the gate and
  goes on with `start_phone_key`, which sets the flag again. A stop whose section falls in
  between is overrun (`stop_overrun`); so is one that comes before the section of a call
  that began earlier. Where no call that may still start presence is in progress when the
  stop's section runs, the stop holds until somebody asks again (`stop_holds`): the calls
  left cannot start presence (`Pending.starts`), and what begins later begins after.

  `stopping` is the system with one history variable: a stop has returned, and no explicit
  call has begun since.
-/
import ElectricEel.Core.Sections
import ElectricEel.Core.Traffic

namespace ElectricEel.Control

open Lib Commands Wire Config Client

/-- Calls that start presence because somebody asks for it. -/
def CoreCall.explicit : CoreCall → Bool
  | .startPhoneKey | .pair | .setConfig _ | .handleResume => true
  | _ => false

/-- The call may go on to a section of start_phone_key. -/
def Pending.starts : Pending → Bool
  | .begun op => op.explicit
  | .starting | .restarting _ => true
  | _ => false

namespace System

/-- The event is the section of a stop_phone_key call. -/
def stops (y : System) : Event → Bool
  | .advance i _ => y.calls[i]? == some (.begun .stopPhoneKey)
  | _ => false

/-- The event begins an explicit call. -/
def asks (y : System) : Event → Bool
  | .call op => y.up && op.explicit
  | _ => false

/-- When a stop's section runs, no other call may go on to start presence. -/
def StopsAlone (y : System) (ev : Event) : Prop :=
  ∀ i e, ev = .advance i e → y.stops ev = true → ∀ p ∈ y.calls.eraseIdx i, p.starts = false

end System

/-- The system, and whether a stop has returned with no explicit call begun since. -/
def stopping (K : Checks) : Machine (System × Bool) Event :=
  (systems K).withHistory (fun _ stopped => stopped = false) fun stopped y ev =>
    if y.stops ev then true else if y.asks ev then false else stopped

theorem stopping_start {K : Checks} {ok : System × Bool → Event → Prop} (w : World) :
    (stopping K).Reach ok (.start w, false) :=
  Machine.Reach.init (M := stopping K) ⟨⟨w, rfl⟩, rfl⟩

/-! ## A stopped core -/

/-- Presence is not wanted and no call in progress will start it. -/
structure System.Stopped (y : System) : Prop where
  enabled : y.core.phoneKeyEnabled = false
  calls : ∀ p ∈ y.calls, p.starts = false

/-- What a step from a stopped core leaves behind. -/
structure Core.StaysOff (c c' : Core) : Prop where
  enabled : c'.phoneKeyEnabled = false
  restarts : c'.restarts = c.restarts
  sends : Sends (· ≠ .presenceStart) c.host c'.host

namespace Core

theorem StaysOff.of_steady {c c' : Core} (h : c.phoneKeyEnabled = false) (hs : Steady c c')
    (hw : Sends (· ≠ .presenceStart) c.host c'.host) : StaysOff c c' :=
  ⟨hs.phoneKeyEnabled.trans h, hs.restarts, hw⟩

theorem StaysOff.of_ended {c c' : Core} (h : Ended c c') (hw : Sends (· ≠ .presenceStart) c.host c'.host) : StaysOff c c' :=
  ⟨h.phoneKeyEnabled, h.restarts, hw⟩

theorem stopPhoneKeyLocked_staysOff (c : Core) (e : StopEnv) : StaysOff c (c.stopPhoneKeyLocked e) := by
  refine .of_ended (stopPhoneKeyLocked_ended c e) ((stopPhoneKeyLocked_sends c e).mono ?_)
  rintro x rfl
  decide

theorem drop_staysOff (c : Core) (e : SectionEnv) : StaysOff c (c.drop e) := by
  refine .of_ended (drop_ended c e) ((drop_sends c e).mono ?_)
  rintro x rfl
  decide

theorem generateKey_staysOff {c : Core} (h : c.phoneKeyEnabled = false) (force : Bool) (e : SectionEnv) :
    StaysOff c (c.generateKey force e).1 := by
  have hw : Sends (· ≠ .presenceStart) c.host (c.generateKey force e).1.host := by
    refine (generateKey_sends c force e).mono ?_
    rintro x (rfl | rfl) <;> decide
  rcases generateKey_ended c force e with hs | ho
  · exact .of_steady h hs hw
  · exact .of_ended ho hw

theorem run_staysOff {c : Core} (h : c.phoneKeyEnabled = false) (K : Checks) (cmd : Cmd) (args : List String) (e : SectionEnv) :
    StaysOff c (c.run K cmd args e).1 := by
  refine .of_steady h (run_steady K c cmd args e) ((run_sends K c cmd args e).mono ?_)
  rintro x ⟨rfl, hk⟩ rfl
  exact absurd hk (by decide)

theorem shareDestination_staysOff {c : Core} (h : c.phoneKeyEnabled = false) (K : Checks) (text : String) (e : SectionEnv) :
    StaysOff c (c.shareDestination K text e).1 := by
  refine .of_steady h (shareDestination_steady K c text e) ((shareDestination_sends K c text e).mono ?_)
  rintro x rfl
  decide

end Core

open ElectricEel.Control.Core in
/-- A section of a call that starts nothing leaves a stopped core stopped. -/
theorem advance_staysOff {c : Core} (h : c.phoneKeyEnabled = false) (K : Checks) (e : SectionEnv) {p : Pending}
    (hp : p.starts = false) :
    StaysOff c (advance K c e p).1 ∧ ∀ q ∈ (advance K c e p).2, q.starts = false := by
  have here : StaysOff c c := .of_steady h (.refl c) .refl
  have hdone : ∀ q ∈ (none : Option Pending), q.starts = false := nofun
  cases p with
  | begun op =>
    cases op with
    | run cmd args => exact ⟨run_staysOff h K cmd args e, hdone⟩
    | generateKey force => exact ⟨generateKey_staysOff h force e, hdone⟩
    | stopPhoneKey => exact ⟨stopPhoneKeyLocked_staysOff c e.stop, hdone⟩
    | shareDestination text => exact ⟨shareDestination_staysOff h K text e, hdone⟩
    | pair | startPhoneKey | handleResume | setConfig => cases hp
  | starting | restarting => cases hp
  | popped x => exact ⟨here, fun q hq => by cases hq; rfl⟩
  | judged x due =>
    unfold advance
    dsimp only
    split
    · exact ⟨here, hdone⟩
    · refine ⟨here, fun q hq => ?_⟩
      dsimp only at hq
      split at hq <;> cases hq
      rfl
  | stopped x =>
    unfold advance
    dsimp only
    rcases pollGate_cases c e.invalidating with ⟨hg, _⟩ | ⟨_, he, _⟩
    · rw [hg]
      exact ⟨⟨h, rfl, .refl⟩, hdone⟩
    · rw [h] at he
      cases he

/-- The step kept presence off: no restart and no presence-start, or a new core stands
    there with nothing sent. -/
def Core.Quieted (c c' : Core) : Prop := StaysOff c c' ∨ c'.phoneKeyEnabled = false ∧ c'.host.Fresh ∧ c'.restarts = []

theorem Core.Quieted.enabled {c c' : Core} (h : Quieted c c') : c'.phoneKeyEnabled = false := by
  rcases h with h | h
  · exact h.enabled
  · exact h.1

theorem new_quieted {builds : Json → Bool} {w w' : World} {backend : Option Backend} {unreadable : Bool} {fault : Option FsStep} {c c' : Core}
    (h : Core.new builds w backend unreadable fault = (w', .ok c')) : Core.Quieted c c' := by
  unfold Core.new at h
  split at h
  · cases h
  · cases h
    exact .inr ⟨rfl, ⟨_, rfl⟩, rfl⟩

/-- Any step from a stopped core. -/
theorem System.Stopped.step {y : System} (hy : y.Stopped) (K : Checks) (ev : Event) :
    Core.Quieted y.core (y.step K ev).core ∧ (y.asks ev = false → ∀ p ∈ (y.step K ev).calls, p.starts = false) := by
  have here : Core.Quieted y.core y.core := .inl (.of_steady hy.enabled (.refl _) .refl)
  cases ev with
  | move m => exact ⟨.inl (.of_steady hy.enabled (.setHost _ _) (Core.moves_sends _ _)), fun _ => hy.calls⟩
  | call op =>
    unfold System.step asks
    dsimp only
    split
    · rename_i hup
      refine ⟨here, fun ha p hp => ?_⟩
      rcases List.mem_append.1 hp with hp | hp
      · exact hy.calls p hp
      · rw [List.mem_singleton.1 hp]
        simpa [hup, Pending.starts] using ha
    · exact ⟨here, fun _ => hy.calls⟩
  | poll =>
    unfold System.step
    dsimp only
    split
    · refine ⟨.inl (.of_steady hy.enabled ?_ (Core.pollEvent_sends _)), fun _ p hp => ?_⟩
      · rw [Core.pollEvent_fst]
        exact .setHost _ _
      · rcases List.mem_append.1 hp with hp | hp
        · exact hy.calls p hp
        · rw [List.mem_singleton.1 hp]
          rfl
    · exact ⟨here, fun _ => hy.calls⟩
  | advance i e =>
    unfold System.step
    dsimp only
    split
    · exact ⟨here, fun _ => hy.calls⟩
    · rename_i p hp
      obtain ⟨ha, hn⟩ := advance_staysOff hy.enabled K e (hy.calls p (List.mem_of_getElem? hp))
      refine ⟨.inl ha, fun _ q hq => ?_⟩
      rcases List.mem_append.1 hq with hq | hq
      · exact hy.calls q (List.mem_of_mem_eraseIdx hq)
      · exact hn q (Option.mem_toList.1 hq)
  | drop e =>
    unfold System.step
    dsimp only
    split
    · exact ⟨.inl (Core.drop_staysOff _ e), fun _ => hy.calls⟩
    · exact ⟨here, fun _ => hy.calls⟩
  | new backend unreadable fault =>
    unfold System.step
    dsimp only
    split
    · exact ⟨here, fun _ => hy.calls⟩
    · split
      · exact ⟨.inl (.of_steady hy.enabled (.setHost _ _) (.of_eq rfl)), fun _ => hy.calls⟩
      · rename_i heq
        exact ⟨new_quieted heq, fun _ => hy.calls⟩

/-- The stop's own section leaves the core stopped when no other call may start presence. -/
theorem System.stops_stopped {K : Checks} {y : System} {ev : Event} (h : y.stops ev = true) (hc : y.StopsAlone ev) :
    (y.step K ev).Stopped := by
  unfold stops at h
  split at h
  · rename_i i e
    have hi : y.calls[i]? = some (.begun .stopPhoneKey) := by simpa using h
    have hcalls := hc i e rfl (by simp [stops, hi])
    unfold System.step
    simp only [hi]
    exact ⟨(Core.stopPhoneKeyLocked_ended _ _).phoneKeyEnabled, by simpa [advance] using hcalls⟩
  · cases h

theorem stopped {K : Checks} {p : System × Bool} (h : (stopping K).Reach (fun p ev => p.1.StopsAlone ev) p)
    (hs : p.2 = true) : p.1.Stopped := by
  refine h.inv (I := fun p => p.2 = true → p.1.Stopped) ?_ ?_ hs
  · rintro ⟨y, b⟩ ⟨_, hb⟩ hs
    cases hb
    cases hs
  rintro ⟨y, b⟩ ev ih hok hs
  show (y.step K ev).Stopped
  dsimp only [stopping, Machine.withHistory] at hs
  by_cases hst : y.stops ev = true
  · exact System.stops_stopped hst hok
  · rw [if_neg hst] at hs
    split at hs
    · cases hs
    · rename_i ha
      obtain ⟨h1, h2⟩ := (ih hs).step K ev
      exact ⟨h1.enabled, h2 (Bool.eq_false_iff.2 ha)⟩

/-- A stop that no other call overruns holds until somebody asks for presence again. -/
theorem stop_holds {K : Checks} {p : System × Bool} (h : (stopping K).Reach (fun p ev => p.1.StopsAlone ev) p)
    (hs : p.2 = true) :
    p.1.core.phoneKeyEnabled = false ∧ ∀ ev, Core.Quieted p.1.core (p.1.step K ev).core :=
  ⟨(stopped h hs).enabled, fun ev => ((stopped h hs).step K ev).1⟩

/-! ## Runs -/

/-- Started, and stopped again with the child's answer. -/
def startedStopped : List Event :=
  [.new (some .bluez) false none, .call .startPhoneKey, .advance 0 startAnswered, .call .stopPhoneKey,
    .advance 0 { stop := { run := answered } }]

/-- The stop's section falls between the poll's section under the gate and its restart. -/
def overrun : List Event :=
  [.new (some .bluez) false none, .call .startPhoneKey, .advance 0 startAnswered] ++ childDies ++
    [.poll, .advance 0 {}, .advance 0 {}, .advance 0 {}, .call .stopPhoneKey, .advance 1 {}, .advance 0 startAnswered]

theorem startedStopped_alone :
    (stopping anyArgs).Allowed (fun p ev => p.1.StopsAlone ev) (.start pairedWorld, false) startedStopped := by
  refine ⟨?_, ?_, ?_, ?_, ?_, trivial⟩
  all_goals
    intro i e he hs
    cases he
  · exact absurd hs (by decide)
  · decide

theorem startedStopped_holds :
    ((stopping anyArgs).run (.start pairedWorld, false) startedStopped).2 = true ∧
    ((stopping anyArgs).run (.start pairedWorld, false) startedStopped).1.core.phoneKeyEnabled = false ∧
    ∀ ev, Core.Quieted ((stopping anyArgs).run (.start pairedWorld, false) startedStopped).1.core
      (((stopping anyArgs).run (.start pairedWorld, false) startedStopped).1.step anyArgs ev).core :=
  ⟨by decide, stop_holds ((stopping_start _).run startedStopped startedStopped_alone) (by decide)⟩

/-- After the stop has returned, and with no explicit call begun since, the poll's restart
    sends a second presence-start and presence is on. -/
theorem stop_overrun :
    ∃ p, (stopping anyArgs).Reach (fun _ _ => True) p ∧ p.2 = true ∧ p.1.core.phoneKeyEnabled = true ∧
      p.1.core.phoneKeyStarted = true ∧ p.1.core.restarts.length = 1 ∧
      p.1.core.host.client.writes.map (·.req.cmd) = [.presenceStart, .presenceStart] :=
  ⟨(stopping anyArgs).run (.start pairedWorld, false) overrun,
    (stopping_start _).run overrun (Machine.Allowed.of_forall (fun _ _ => trivial) _ _),
    by decide, by decide, by decide, by decide, by decide⟩

end ElectricEel.Control
