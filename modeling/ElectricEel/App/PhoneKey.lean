/-
  ElectricEel.App.PhoneKey — what the app shows and publishes of the phone key
  (app/src/teslaclient.cpp, qml/PhoneKeyEvents.qml, qml/harbour-electric-eel.qml `KeepAlive`).

  The worker's thread makes every call of the core, one slot after the other; its timer
  polls the core's events between two slots. What a slot emits reaches the GUI's thread
  later, in order. While `phoneKeyActive` is true the app keeps the CPU awake.

  A poll loop is given as the polls it made; a list that ends before a poll without event
  stands for a loop that goes on with the next event. The app's shutdown is left out, and so
  are the answers that are not about the phone key (App.Dashboard).

  `Seen` is a history variable: the events polled, and whether the last signal that set
  `phoneKeyActive` was a presence_near polled while phone_key_started was false.

  Proved:
  - the app is one schedule of the core's calls (`AppState.schedule`), so what holds of every
    interleaving of them holds here;
  - once the signals are delivered `phoneKeyActive` is phone_key_started, or that presence_near
    still stands (`shown_active`); every event polled is published once, in order
    (`events_published`);
  - while presence is wanted, nobody removes private_key.pem and no child without presence has
    pushed a notice out of the queue, the app keeps the CPU awake, or a retry is scheduled, or a
    notice waits or is about to be pushed (`wanted_stays_awake`).
-/
import ElectricEel.Core.WakeUp

namespace ElectricEel.App

open Lib Commands Wire Config Client Control

/-! ## The worker -/

inductive WorkerRequest where
  | run (cmd : Cmd) (args : List String)
  | generateKey (force : Bool)
  | pair
  | setConfig (r : Core.ConfigRequest)
  | shareDestination (text : String)
  deriving DecidableEq, Repr

/-- What is queued for the worker. -/
inductive Slot where
  | initializing
  | request (r : WorkerRequest)
  | handleResume
  deriving DecidableEq, Repr

inductive Signal where
  | initialized (ok : Bool)
  | phoneKeyStarted (active : Bool) (errorMessage : String)
  | phoneKeyEvent (ev : SessionEvent)
  deriving DecidableEq, Repr

structure WorkerEnv where
  call : SectionEnv := {}
  /-- After the call, before `refreshPhoneKeyState`. -/
  between : List Move := []
  refresh : StartEnv := {}
  unreadable : Bool := false
  fault : Option FsStep := none
  deriving DecidableEq, Repr

def refreshPhoneKeyState (c : Core) (e : WorkerEnv) : Core × List Signal :=
  match (c.moves e.between).startPhoneKey e.refresh with
  | (c, .ok ()) => (c, [.phoneKeyStarted true ""])
  | (c, .error err) => (c, [.phoneKeyStarted false err.text])

def perform (K : Checks) (c : Core) (e : WorkerEnv) : WorkerRequest → Core × List Signal
  | .run cmd args => ((c.run K cmd args e.call).1, [])
  | .generateKey force => refreshPhoneKeyState (c.generateKey force e.call).1 e
  | .pair => refreshPhoneKeyState (c.pair e.call).1 e
  | .setConfig r =>
    match c.setConfig r e.call with
    | (c, .error _) => (c, [])
    | (c, .ok ()) => refreshPhoneKeyState c e
  | .shareDestination text => ((c.shareDestination K text e.call).1, [])

/-- The polls of one loop, the time of each event that has none. -/
abbrev PollLoop := List (PollTurn × String)

def stamped (now : String) (ev : SessionEvent) : SessionEvent := if ev.time = "" then { ev with time := now } else ev

def pollPhoneKeyEvents (c : Core) : PollLoop → Core × List SessionEvent
  | [] => (c, [])
  | (t, now) :: ts =>
    match c.turn t with
    | (c, none) => (c, [])
    | (c, some ev) => ((pollPhoneKeyEvents c ts).1, stamped now ev :: (pollPhoneKeyEvents c ts).2)

/-! ## The GUI's thread -/

structure TeslaClient where
  helperAvailable : Bool
  suspended : Bool
  phoneKeyActive : Bool
  phoneKeyStatus : String
  /-- The signals on the session bus. -/
  published : List SessionEvent
  deriving DecidableEq, Repr

namespace TeslaClient

def onPhoneKeyStarted (t : TeslaClient) (active : Bool) (errorMessage : String) : TeslaClient :=
  { t with
    phoneKeyActive := active
    phoneKeyStatus :=
      if active then "Phone key scanning" else if errorMessage = "" then "Phone key inactive" else errorMessage }

/-- `setPhoneKeyActive`, where an event calls it. -/
def eventActive : EventKind → Option Bool
  | .presenceStopped => some false
  | .presenceRestarted | .presenceNear => some true
  | _ => none

def eventStatus (ev : SessionEvent) : Option String :=
  match ev.kind with
  | .presenceNear => some "Phone key connected"
  | .presenceFar | .presenceRestarted | .presenceDisconnected => some "Phone key scanning"
  | .presenceAuthOk => some "Phone key authorized"
  | .presenceStopped => some (if ev.error = "" then "Phone key stopped" else "Phone key stopped: " ++ ev.error)
  | .presenceError | .presenceAuthFailed => some (if ev.error = "" then "Phone key error" else "Phone key error: " ++ ev.error)
  | .presenceInside | .other _ => none

def onPhoneKeyEvent (t : TeslaClient) (ev : SessionEvent) : TeslaClient :=
  { t with
    phoneKeyActive := (eventActive ev.kind).getD t.phoneKeyActive
    phoneKeyStatus := (eventStatus ev).getD t.phoneKeyStatus
    published := t.published ++ [ev] }

def deliver (t : TeslaClient) : Signal → TeslaClient
  | .initialized ok => { t with helperAvailable := ok }
  | .phoneKeyStarted active errorMessage => t.onPhoneKeyStarted active errorMessage
  | .phoneKeyEvent ev => t.onPhoneKeyEvent ev

end TeslaClient

inductive ApplicationState where
  | suspended
  | hidden
  | inactive
  | active
  deriving DecidableEq, Repr

/-! ## The app -/

structure AppState where
  core : Core
  /-- `m_core` is set. -/
  up : Bool
  slots : List Slot
  signals : List Signal
  client : TeslaClient

namespace AppState

def start (w : World) (suspended : Bool) : AppState where
  core := (System.start w).core
  up := false
  slots := [.initializing]
  signals := []
  client := { helperAvailable := false, suspended, phoneKeyActive := false, phoneKeyStatus := "", published := [] }

inductive Event where
  | move (m : Move)
  | post (r : WorkerRequest)
  | applicationState (s : ApplicationState)
  /-- The worker takes its next slot. -/
  | work (e : WorkerEnv)
  | timer (loop : PollLoop)
  /-- The GUI takes the next signal. -/
  | deliver

def onApplicationStateChanged (a : AppState) : ApplicationState → AppState
  | .suspended => { a with client := { a.client with suspended := true } }
  | .active =>
    if a.client.suspended then { a with client := { a.client with suspended := false }, slots := a.slots ++ [.handleResume] }
    else a
  | .hidden | .inactive => a

def initializeCore (K : Checks) (a : AppState) (e : WorkerEnv) : AppState :=
  match Core.new K.builds a.core.host.world (some .bluez) e.unreadable e.fault with
  | (w, .error _) => { a with core := a.core.setWorld w, signals := a.signals ++ [.initialized false] }
  | (_, .ok c) =>
    let r := refreshPhoneKeyState c e
    { a with core := r.1, up := true, signals := a.signals ++ r.2 ++ [.initialized true] }

def work (K : Checks) (a : AppState) (e : WorkerEnv) : AppState :=
  match a.slots with
  | [] => a
  | s :: slots =>
    let a := { a with slots }
    match s with
    | .initializing => if a.up then a else a.initializeCore K e
    | .request r =>
      if a.up then
        let r := perform K a.core e r
        { a with core := r.1, signals := a.signals ++ r.2 }
      else a
    | .handleResume =>
      if a.up then
        let r := refreshPhoneKeyState (a.core.handleResume e.call) e
        { a with core := r.1, signals := a.signals ++ r.2 }
      else a

def timer (a : AppState) (loop : PollLoop) : AppState :=
  if a.up then
    let r := pollPhoneKeyEvents a.core loop
    { a with core := r.1, signals := a.signals ++ r.2.map .phoneKeyEvent }
  else a

def deliver (a : AppState) : AppState :=
  match a.signals with
  | [] => a
  | s :: signals => { a with signals, client := a.client.deliver s }

def step (K : Checks) (a : AppState) : Event → AppState
  | .move m => { a with core := a.core.moves [m] }
  | .post r => { a with slots := a.slots ++ [.request r] }
  | .applicationState s => a.onApplicationStateChanged s
  | .work e => a.work K e
  | .timer loop => a.timer loop
  | .deliver => a.deliver

end AppState

def apps (K : Checks) : Machine AppState AppState.Event :=
  { init := fun a => ∃ w suspended, a = .start w suspended, step := AppState.step K }

/-- What a slot comes to. -/
inductive Worked (K : Checks) (a : AppState) (e : WorkerEnv) : AppState → Prop
  | idle (slots : List Slot) : Worked K a e { a with slots }
  | failed (slots : List Slot) (w : World) (err : IoError) : a.up = false →
      Core.new K.builds a.core.host.world (some .bluez) e.unreadable e.fault = (w, .error err) →
      Worked K a e { a with slots, core := a.core.setWorld w, signals := a.signals ++ [.initialized false] }
  | initialized (slots : List Slot) (w : World) (c : Core) : a.up = false →
      Core.new K.builds a.core.host.world (some .bluez) e.unreadable e.fault = (w, .ok c) →
      Worked K a e
        { a with slots, core := (refreshPhoneKeyState c e).1, up := true,
                 signals := a.signals ++ (refreshPhoneKeyState c e).2 ++ [.initialized true] }
  | performed (slots : List Slot) (r : WorkerRequest) : a.up = true →
      Worked K a e { a with slots, core := (perform K a.core e r).1, signals := a.signals ++ (perform K a.core e r).2 }
  | resumed (slots : List Slot) : a.up = true →
      Worked K a e
        { a with slots, core := (refreshPhoneKeyState (a.core.handleResume e.call) e).1,
                 signals := a.signals ++ (refreshPhoneKeyState (a.core.handleResume e.call) e).2 }

theorem AppState.worked (K : Checks) (a : AppState) (e : WorkerEnv) : Worked K a e (a.work K e) := by
  unfold AppState.work
  split
  · exact .idle a.slots
  · rename_i s slots hs
    cases s with
    | initializing =>
      dsimp only
      split
      · exact .idle slots
      · rename_i hup
        unfold AppState.initializeCore
        dsimp only
        split
        · rename_i w err heq
          exact .failed slots w err (Bool.not_eq_true _ ▸ hup) heq
        · rename_i w c heq
          exact .initialized slots w c (Bool.not_eq_true _ ▸ hup) heq
    | request r =>
      dsimp only
      split
      · rename_i hup
        exact .performed slots r hup
      · exact .idle slots
    | handleResume =>
      dsimp only
      split
      · rename_i hup
        exact .resumed slots hup
      · exact .idle slots

/-! ## One schedule of the core's calls -/

structure WorkerEnv.Moves (P : Move → Prop) (e : WorkerEnv) : Prop where
  call : e.call.Moves P
  between : ∀ m ∈ e.between, P m
  refresh : e.refresh.Moves P

structure TurnMoves (P : Move → Prop) (t : PollTurn) : Prop where
  idle : ∀ m ∈ t.idle, P m
  reading : ∀ m ∈ t.poll.reading, P m
  judging : ∀ m ∈ t.poll.judging, P m
  waiting : ∀ m ∈ t.poll.waiting, P m
  invalidating : ∀ m ∈ t.poll.invalidating, P m
  between : ∀ m ∈ t.poll.between, P m
  start : t.poll.start.Moves P

/-- All moves of an event are of kind `P`. -/
def AppState.Event.Moves (P : Move → Prop) : AppState.Event → Prop
  | .move m => P m
  | .work e => e.Moves P
  | .timer loop => ∀ t ∈ loop, TurnMoves P t.1
  | .post _ | .applicationState _ | .deliver => True

/-- A section in which only the start's environment matters. -/
def startSection (e : StartEnv) : SectionEnv := { start := e }

theorem idleRun_moves (P : Move → Prop) : ({} : RunEnv).Moves P :=
  ⟨List.forall_mem_nil _, List.forall_mem_nil _, List.forall_mem_nil _, List.forall_mem_nil _⟩

theorem idleStart_moves (P : Move → Prop) : ({} : StartEnv).Moves P :=
  ⟨List.forall_mem_nil _, List.forall_mem_nil _, List.forall_mem_nil _, idleRun_moves P⟩

theorem startSection_moves {P : Move → Prop} {e : StartEnv} (h : e.Moves P) : (startSection e).Moves P :=
  ⟨⟨idleRun_moves P, List.forall_mem_nil _⟩, List.forall_mem_nil _, idleRun_moves P, List.forall_mem_nil _, List.forall_mem_nil _, h⟩

section

variable {K : Checks} {P : Move → Prop}

/-- The core's calls come to this. -/
abbrev Schedules (K : Checks) (P : Move → Prop) (c : Core) (up : Bool) (calls : List Pending) : Prop :=
  (systems K).Reach (fun _ ev => ev.Moves P) ⟨c, up, calls⟩

namespace Schedules

variable {c : Core} {up : Bool} {calls : List Pending}

theorem moves (h : Schedules K P c up calls) {ms : List Move} (hm : ∀ m ∈ ms, P m) : Schedules K P (c.moves ms) up calls := by
  induction ms generalizing c with
  | nil => exact h
  | cons m ms ih =>
    have hone : Schedules K P (c.moves [m]) up calls :=
      Machine.Reach.step (Control.Event.move m) h (show (Control.Event.move m).Moves P from hm m (List.mem_cons_self ..))
    exact ih hone fun x hx => hm x (List.mem_cons_of_mem m hx)

/-- The one call in progress takes its next section. -/
theorem next {p : Pending} (h : Schedules K P c up [p]) {e : SectionEnv} (he : e.Moves P) :
    Schedules K P (advance K c e p).1 up (advance K c e p).2.toList :=
  Machine.Reach.step (Control.Event.advance 0 e) h (show (Control.Event.advance 0 e).Moves P from he)

/-- A call begins and takes its first section. -/
theorem call (h : Schedules K P c true []) (op : CoreCall) {e : SectionEnv} (he : e.Moves P) :
    Schedules K P (advance K c e (.begun op)).1 true (advance K c e (.begun op)).2.toList :=
  have hbegun : Schedules K P c true [.begun op] :=
    Machine.Reach.step (Control.Event.call op) h (show (Control.Event.call op).Moves P from trivial)
  hbegun.next he

theorem startPhoneKey (h : Schedules K P c true []) {e : StartEnv} (he : e.Moves P) :
    Schedules K P (c.startPhoneKey e).1 true [] :=
  h.call .startPhoneKey (startSection_moves he)

theorem pair (h : Schedules K P c true []) {e : SectionEnv} (he : e.Moves P) : Schedules K P (c.pair e).1 true [] := by
  have hcall := h.call .pair he
  unfold Core.pair
  cases hp : c.pairSection e with
  | mk c₁ step =>
    cases step with
    | done r =>
      have ha : advance K c e (.begun .pair) = (c₁, none) := by simp only [advance, hp]
      rw [ha] at hcall
      exact hcall
    | confirmed stdout =>
      have ha : advance K c e (.begun .pair) = (c₁, some .starting) := by simp only [advance, hp]
      rw [ha] at hcall
      have hnext : Schedules K P (c₁.startPhoneKey e.start).1 true [] := hcall.next he
      dsimp only
      cases hs : c₁.startPhoneKey e.start with
      | mk c₂ r =>
        rw [hs] at hnext
        cases r <;> exact hnext

theorem setConfig (h : Schedules K P c true []) (r : Core.ConfigRequest) {e : SectionEnv} (he : e.Moves P) :
    Schedules K P (c.setConfig r e).1 true [] := by
  have hcall := h.call (.setConfig r) he
  unfold advance at hcall
  unfold Core.setConfig
  dsimp only at hcall
  cases heq : c.setConfigSection r e with
  | mk c' res =>
    rw [heq] at hcall
    cases res with
    | error err => exact hcall
    | ok again =>
      cases again with
      | false => exact hcall
      | true => exact hcall.next (p := .starting) he

theorem handleResume (h : Schedules K P c true []) {e : SectionEnv} (he : e.Moves P) : Schedules K P (c.handleResume e) true [] :=
  (h.call .handleResume he).next (p := .starting) he

/-- A poll is its pop, its two reads, its section under the gate and that of start_phone_key. -/
theorem turn (h : Schedules K P c true []) {t : PollTurn} (ht : TurnMoves P t) : Schedules K P (c.turn t).1 true [] := by
  have hidle : ∀ {q : StartEnv}, q.Moves P → (startSection q).Moves P := fun hq => startSection_moves hq
  have hnone := idleStart_moves P
  have hpop : Schedules K P ((c.moves t.idle).pollEvent.1.moves t.poll.reading) true [.popped (c.moves t.idle).pollEvent.2] :=
    Schedules.moves (Machine.Reach.step Control.Event.poll (h.moves ht.idle) (show Control.Event.poll.Moves P from trivial)) ht.reading
  have hjudged := (hpop.next (hidle hnone)).moves ht.judging
  unfold Core.turn Core.pollPhoneKeyEvent
  dsimp only
  generalize (c.moves t.idle).pollEvent.2 = popped at hjudged ⊢
  generalize (c.moves t.idle).pollEvent.1.moves t.poll.reading = c₁ at hjudged ⊢
  have hread := hjudged.next (p := .judged popped c₁.retryDue) (hidle hnone)
  unfold advance at hread
  dsimp only [advance] at hread
  split
  · rename_i heq
    rw [heq] at hread
    exact hread
  · rename_i x heq
    rw [heq] at hread
    dsimp only at hread
    split
    · rename_i hk
      rw [if_neg hk] at hread
      exact hread
    · rename_i hk
      rw [if_pos (Classical.not_not.1 hk)] at hread
      have hgate := (hread.moves ht.waiting).next (p := .stopped x) (e := { invalidating := t.poll.invalidating })
        ⟨⟨hnone.run, List.forall_mem_nil _⟩, List.forall_mem_nil _, hnone.run, ht.invalidating, List.forall_mem_nil _, hnone⟩
      unfold advance at hgate
      dsimp only at hgate
      split
      · rename_i hg
        rw [hg] at hgate
        exact hgate
      · rename_i c₂ hg
        rw [hg] at hgate
        have hlast := Schedules.next (p := .restarting x) (Schedules.moves hgate ht.between) (hidle ht.start)
        rw [advance] at hlast
        exact hlast

theorem pollPhoneKeyEvents (h : Schedules K P c true []) {loop : PollLoop} (hl : ∀ t ∈ loop, TurnMoves P t.1) :
    Schedules K P (App.pollPhoneKeyEvents c loop).1 true [] := by
  induction loop generalizing c with
  | nil => exact h
  | cons t ts ih =>
    have hturn := h.turn (hl t (List.mem_cons_self ..))
    unfold App.pollPhoneKeyEvents
    cases hr : c.turn t.1 with
    | mk c' ev =>
      rw [hr] at hturn
      cases ev with
      | none => exact hturn
      | some ev => exact ih hturn fun u hu => hl u (List.mem_cons_of_mem t hu)

theorem refreshPhoneKeyState (h : Schedules K P c true []) {e : WorkerEnv} (he : e.Moves P) :
    Schedules K P (App.refreshPhoneKeyState c e).1 true [] := by
  have hs := (h.moves he.between).startPhoneKey he.refresh
  unfold App.refreshPhoneKeyState
  split
  · rename_i heq
    rwa [heq] at hs
  · rename_i heq
    rwa [heq] at hs

theorem perform (h : Schedules K P c true []) (r : WorkerRequest) {e : WorkerEnv} (he : e.Moves P) :
    Schedules K P (App.perform K c e r).1 true [] := by
  cases r with
  | run cmd args => exact h.call (.run cmd args) he.call
  | generateKey force => exact Schedules.refreshPhoneKeyState (h.call (.generateKey force) he.call) he
  | pair => exact (h.pair he.call).refreshPhoneKeyState he
  | setConfig r =>
    have hset := h.setConfig r he.call
    simp only [App.perform]
    split
    · rename_i heq
      rwa [heq] at hset
    · rename_i heq
      rw [heq] at hset
      exact hset.refreshPhoneKeyState he
  | shareDestination text => exact h.call (.shareDestination text) he.call

/-- A core is built, or is not. -/
theorem new (h : Schedules K P c false []) {w : World} {unreadable : Bool} {fault : Option FsStep} {res : Except IoError Core}
    (heq : Core.new K.builds c.host.world (some .bluez) unreadable fault = (w, res)) :
    match res with
    | .error _ => Schedules K P (c.setWorld w) false []
    | .ok c' => Schedules K P c' true [] := by
  have hnew := Machine.Reach.step (Control.Event.new (some .bluez) unreadable fault) h
    (show (Control.Event.new (some .bluez) unreadable fault).Moves P from trivial)
  simp only [systems, System.step, System.world, heq, Bool.false_eq_true, if_false] at hnew
  cases res with
  | error err => exact hnew
  | ok c' => exact hnew

end Schedules

/-- The app makes one schedule of the core's calls, in which no two are in progress. -/
theorem AppState.schedule {a : AppState} (h : (apps K).Reach (fun _ ev => ev.Moves P) a) : Schedules K P a.core a.up [] := by
  induction h with
  | init h0 =>
    obtain ⟨w, suspended, rfl⟩ := h0
    exact .init ⟨w, rfl⟩
  | @step a ev _ hm ih =>
    show Schedules K P (a.step K ev).core (a.step K ev).up []
    cases ev with
    | move m =>
      have hone : ∀ x ∈ [m], P x := fun x hx => List.mem_singleton.1 hx ▸ hm
      exact ih.moves hone
    | post r => exact ih
    | applicationState s =>
      simp only [AppState.step, AppState.onApplicationStateChanged]
      split
      · exact ih
      · split <;> exact ih
      · exact ih
      · exact ih
    | work e =>
      have hw := a.worked K e
      simp only [AppState.step]
      generalize a.work K e = a' at hw ⊢
      cases hw with
      | idle slots => exact ih
      | failed slots w err hup heq =>
        rw [hup] at ih
        have hnew := ih.new heq
        rwa [← hup] at hnew
      | initialized slots w c hup heq =>
        rw [hup] at ih
        exact (Schedules.new ih heq).refreshPhoneKeyState hm
      | performed slots r hup =>
        rw [hup] at ih
        exact hup ▸ ih.perform r hm
      | resumed slots hup =>
        rw [hup] at ih
        exact hup ▸ (ih.handleResume hm.call).refreshPhoneKeyState hm
    | timer loop =>
      simp only [AppState.step, AppState.timer]
      split
      · rename_i hup
        rw [hup] at ih ⊢
        exact ih.pollPhoneKeyEvents hm
      · exact ih
    | deliver =>
      simp only [AppState.step, AppState.deliver]
      split <;> exact ih

end

/-! ## What the GUI shows -/

/-- phone_key_started after a start. -/
theorem startPhoneKey_flag (c : Core) (e : StartEnv) : (c.startPhoneKey e).1.phoneKeyStarted = (c.startPhoneKey e).2.toBool := by
  have hs := Core.started c e
  generalize c.startPhoneKey e = r at hs ⊢
  cases hs with
  | kept hst _ => exact hst
  | refused err => rfl
  | sent =>
    rw [Core.startPresence_eq]
    rcases Core.presenceStarted_cases (((c.checked e).prepared c.phoneKeyStarted e).sessionRun .presenceStart [] e.run).1
      (((c.checked e).prepared c.phoneKeyStarted e).sessionRun .presenceStart [] e.run).2 with ⟨_, _, _, h⟩ | ⟨_, _, h⟩
    · rw [h]
      rfl
    · rw [h]
      rfl

theorem refreshPhoneKeyState_signal (c : Core) (e : WorkerEnv) :
    ∃ text, (refreshPhoneKeyState c e).2 = [.phoneKeyStarted (refreshPhoneKeyState c e).1.phoneKeyStarted text] := by
  have hf := startPhoneKey_flag (c.moves e.between) e.refresh
  unfold refreshPhoneKeyState
  split
  · rename_i heq
    rw [heq] at hf
    exact ⟨"", by rw [hf]; rfl⟩
  · rename_i err heq
    rw [heq] at hf
    exact ⟨err.text, by rw [hf]; rfl⟩

/-- A refused set_config stopped nothing. -/
theorem setConfig_refused {c c' : Core} {r : Core.ConfigRequest} {e : SectionEnv} {err : OperationError}
    (h : c.setConfig r e = (c', .error err)) : Core.Steady c c' := by
  have hs := Core.saveConfig_steady c (c.candidate r) e.save
  unfold Core.setConfig Core.setConfigSection at h
  cases hv : validateConfig r.vin r.model r.keyName r.connectTimeoutSec r.commandTimeoutSec with
  | error verr =>
    rw [hv] at h
    obtain rfl : c = c' := congrArg Prod.fst h
    exact .refl c
  | ok _ =>
    rw [hv] at h
    dsimp only at h
    cases hsave : c.saveConfig (c.candidate r) e.save with
    | mk c₁ res =>
      rw [hsave] at h hs
      cases res with
      | error serr =>
        obtain rfl : c₁ = c' := congrArg Prod.fst h
        exact hs
      | ok _ =>
        dsimp only at h
        split at h
        · rename_i heq
          cases heq
        · cases h
        · cases h

/-- A request leaves phone_key_started alone, or the worker asks for it again. -/
theorem perform_signal (K : Checks) (c : Core) (e : WorkerEnv) (r : WorkerRequest) :
    ((perform K c e r).2 = [] ∧ (perform K c e r).1.phoneKeyStarted = c.phoneKeyStarted) ∨
      ∃ text, (perform K c e r).2 = [.phoneKeyStarted (perform K c e r).1.phoneKeyStarted text] := by
  cases r with
  | run cmd args => exact .inl ⟨rfl, (Core.run_steady K c cmd args e.call).phoneKeyStarted⟩
  | generateKey force => exact .inr (refreshPhoneKeyState_signal _ e)
  | pair => exact .inr (refreshPhoneKeyState_signal _ e)
  | setConfig r =>
    simp only [perform]
    split
    · rename_i c' err heq
      exact .inl ⟨rfl, (setConfig_refused heq).phoneKeyStarted⟩
    · exact .inr (refreshPhoneKeyState_signal _ e)
  | shareDestination text => exact .inl ⟨rfl, (Core.shareDestination_steady K c text e.call).phoneKeyStarted⟩

theorem eventActive_false {k : EventKind} (h : TeslaClient.eventActive k = some false) : k = .presenceStopped := by
  cases k with
  | presenceStopped => rfl
  | _ => cases h

/-- A failed restart leaves the event a presence_stopped. -/
theorem restarted_flag (c : Core) (e : StartEnv) {ev : SessionEvent} (hk : ev.kind = .presenceStopped) :
    (Core.restartedEvent ev (c.restart e).2).kind = .presenceRestarted ∨
      (Core.restartedEvent ev (c.restart e).2).kind = .presenceStopped ∧ (c.restart e).1.phoneKeyStarted = false := by
  have hf : (c.restart e).1.phoneKeyStarted = (c.restart e).2.toBool := startPhoneKey_flag c e
  cases hr : (c.restart e).2 with
  | ok _ => exact .inl rfl
  | error err =>
    rw [hr] at hf
    refine .inr ⟨?_, hf⟩
    unfold Core.restartedEvent
    dsimp only
    split <;> exact hk

/-- A poll that sets the flag to false leaves phone_key_started false, one that does not set it leaves it alone. -/
theorem turn_flag (c : Core) (t : PollTurn) :
    match (c.turn t).2 with
    | none => (c.turn t).1.phoneKeyStarted = c.phoneKeyStarted
    | some ev =>
      match TeslaClient.eventActive ev.kind with
      | none => (c.turn t).1.phoneKeyStarted = c.phoneKeyStarted
      | some true => True
      | some false => (c.turn t).1.phoneKeyStarted = false := by
  have hpop := (Core.pollEvent_steady (c.moves t.idle)).phoneKeyStarted
  unfold Core.turn Core.pollPhoneKeyEvent
  dsimp only
  generalize (c.moves t.idle).pollEvent.2 = popped
  have hc : (((c.moves t.idle).pollEvent.1.moves t.poll.reading).moves t.poll.judging).phoneKeyStarted = c.phoneKeyStarted := hpop
  generalize (c.moves t.idle).pollEvent.1.moves t.poll.reading = c₁ at hc ⊢
  generalize c₁.moves t.poll.judging = c₂ at hc ⊢
  cases hx : c₂.polledEvent popped c₁.retryDue with
  | none => exact hc
  | some x =>
    by_cases hk : x.ev.kind = .presenceStopped
    · simp only [hk, ne_eq, not_true_eq_false, if_false]
      rcases Core.pollGate_cases (c₂.moves t.poll.waiting) t.poll.invalidating with ⟨hg, -⟩ | ⟨hg, -, -⟩
      · rw [hg]
        simp only [hk]
        trivial
      · rw [hg]
        dsimp only
        generalize (({ c₂.moves t.poll.waiting with phoneKeyStarted := false } : Core).invalidate t.poll.invalidating).moves
          t.poll.between = c₃
        rcases restarted_flag c₃ t.poll.start hk with hr | ⟨hr, hf⟩
        · rw [hr]
          trivial
        · rw [hr]
          exact hf
    · simp only [ne_eq, hk, not_false_eq_true, if_true]
      cases ha : TeslaClient.eventActive x.ev.kind with
      | none => exact hc
      | some active =>
        cases active with
        | true => trivial
        | false => exact absurd (eventActive_false ha) hk

/-- What the GUI comes to when the signals are delivered. -/
def AppState.shown (a : AppState) : TeslaClient := a.signals.foldl TeslaClient.deliver a.client

theorem AppState.shown_append (a : AppState) (core : Core) (up : Bool) (slots : List Slot) (new : List Signal) :
    ({ a with core, up, slots, signals := a.signals ++ new } : AppState).shown = new.foldl TeslaClient.deliver a.shown :=
  List.foldl_append

structure Seen where
  /-- An event polled while phone_key_started was false raised the flag, and no signal set it since. -/
  overstays : Bool
  polled : List SessionEvent

namespace Seen

/-- One event polled; `started` is phone_key_started after the poll. -/
def event (seen : Seen) (started : Bool) (ev : SessionEvent) : Seen :=
  { overstays := ((TeslaClient.eventActive ev.kind).map fun active => active && !started).getD seen.overstays
    polled := seen.polled ++ [ev] }

def loop (seen : Seen) (c : Core) : PollLoop → Seen
  | [] => seen
  | (t, now) :: ts =>
    match c.turn t with
    | (_, none) => seen
    | (c, some ev) => (seen.event c.phoneKeyStarted (stamped now ev)).loop c ts

/-- A signal phoneKeyStarted sets the flag anew. -/
def reported (seen : Seen) (signals : List Signal) : Seen :=
  { seen with overstays := seen.overstays && !signals.any fun s => match s with | .phoneKeyStarted _ _ => true | _ => false }

@[simp] theorem reported_nil (seen : Seen) : seen.reported [] = seen := by
  simp [reported]

@[simp] theorem reported_initialized (seen : Seen) (ok : Bool) : seen.reported [.initialized ok] = seen := by
  simp [reported]

@[simp] theorem reported_started (seen : Seen) (active : Bool) (text : String) (signals : List Signal) :
    seen.reported (.phoneKeyStarted active text :: signals) = { seen with overstays := false } := by
  simp [reported]

def record (K : Checks) (seen : Seen) (a : AppState) : AppState.Event → Seen
  | .timer loop => if a.up then seen.loop a.core loop else seen
  | .work e => seen.reported ((a.work K e).signals.drop a.signals.length)
  | _ => seen

end Seen

def watched (K : Checks) : Machine (AppState × Seen) AppState.Event :=
  (apps K).withHistory (fun _ seen => seen = ⟨false, []⟩) (Seen.record K)

/-- The flag is phone_key_started but for an event that overstays; what was polled is published or under way. -/
structure Shows (t : TeslaClient) (started : Bool) (seen : Seen) : Prop where
  active : t.phoneKeyActive = (started || seen.overstays)
  published : t.published = seen.polled

namespace Shows

variable {t : TeslaClient} {started : Bool} {seen : Seen}

/-- One event, whether the poll left phone_key_started alone, cleared it, or the event raises the flag. -/
theorem event (h : Shows t started seen) {started' : Bool} {ev : SessionEvent}
    (hf : match TeslaClient.eventActive ev.kind with
      | none => started' = started
      | some true => True
      | some false => started' = false) :
    Shows (t.deliver (.phoneKeyEvent ev)) started' (seen.event started' ev) := by
  refine ⟨?_, congrArg (· ++ [ev]) h.published⟩
  simp only [TeslaClient.deliver, TeslaClient.onPhoneKeyEvent, Seen.event]
  cases ha : TeslaClient.eventActive ev.kind with
  | none =>
    rw [ha] at hf
    rw [show started' = started from hf]
    exact h.active
  | some active =>
    rw [ha] at hf
    cases active with
    | true => cases started' <;> rfl
    | false =>
      rw [show started' = false from hf]
      rfl

theorem loop {c : Core} (h : Shows t c.phoneKeyStarted seen) (ts : PollLoop) :
    Shows (((pollPhoneKeyEvents c ts).2.map Signal.phoneKeyEvent).foldl TeslaClient.deliver t) (pollPhoneKeyEvents c ts).1.phoneKeyStarted
      (seen.loop c ts) := by
  induction ts generalizing c t seen with
  | nil => exact h
  | cons u ts ih =>
    obtain ⟨u, now⟩ := u
    have hf := turn_flag c u
    unfold pollPhoneKeyEvents Seen.loop
    cases hr : c.turn u with
    | mk c' ev =>
      rw [hr] at hf
      cases ev with
      | none =>
        rw [show c'.phoneKeyStarted = c.phoneKeyStarted from hf]
        exact h
      | some ev =>
        have hkind : (stamped now ev).kind = ev.kind := by
          unfold stamped
          split <;> rfl
        refine ih (h.event ?_)
        rw [hkind]
        exact hf

/-- The worker asked for phone_key_started. -/
theorem told (h : Shows t started seen) (started' : Bool) (text : String) :
    Shows (t.deliver (.phoneKeyStarted started' text)) started' { seen with overstays := false } :=
  ⟨(Bool.or_false started').symm, h.published⟩

theorem worked {K : Checks} {a a' : AppState} {e : WorkerEnv} (h : Shows a.shown a.core.phoneKeyStarted seen) (hw : Worked K a e a') :
    Shows a'.shown a'.core.phoneKeyStarted (seen.reported (a'.signals.drop a.signals.length)) := by
  cases hw with
  | idle slots =>
    rw [List.drop_length, Seen.reported_nil]
    exact h
  | failed slots w err _ _ =>
    rw [List.drop_left, Seen.reported_initialized, AppState.shown_append]
    exact ⟨h.active, h.published⟩
  | initialized slots w c _ _ =>
    obtain ⟨text, hs⟩ := refreshPhoneKeyState_signal c e
    rw [List.append_assoc, List.drop_left, AppState.shown_append, hs, List.singleton_append, Seen.reported_started]
    exact ⟨(h.told _ text).active, h.published⟩
  | performed slots r _ =>
    rw [List.drop_left, AppState.shown_append]
    rcases perform_signal K a.core e r with ⟨hs, hf⟩ | ⟨text, hs⟩
    · rw [hs, hf, Seen.reported_nil]
      exact h
    · rw [hs, Seen.reported_started]
      exact h.told _ text
  | resumed slots _ =>
    obtain ⟨text, hs⟩ := refreshPhoneKeyState_signal (a.core.handleResume e.call) e
    rw [List.drop_left, AppState.shown_append, hs, Seen.reported_started]
    exact h.told _ text

/-- Whether the app is suspended is nothing that signals look at. -/
theorem foldl_suspended (signals : List Signal) (t : TeslaClient) (suspended : Bool) :
    signals.foldl TeslaClient.deliver { t with suspended } = { signals.foldl TeslaClient.deliver t with suspended } := by
  induction signals generalizing t with
  | nil => rfl
  | cons s signals ih =>
    have hd : TeslaClient.deliver { t with suspended } s = { t.deliver s with suspended } := by cases s <;> rfl
    rw [List.foldl_cons, List.foldl_cons, hd]
    exact ih (t.deliver s)

theorem suspended {a : AppState} (h : Shows a.shown started seen) (suspended : Bool) (slots : List Slot) :
    Shows ({ a with client := { a.client with suspended }, slots } : AppState).shown started seen := by
  unfold AppState.shown
  dsimp only
  rw [foldl_suspended]
  exact ⟨h.active, h.published⟩

theorem step {K : Checks} {a : AppState} (h : Shows a.shown a.core.phoneKeyStarted seen) (ev : AppState.Event) :
    Shows (a.step K ev).shown (a.step K ev).core.phoneKeyStarted (seen.record K a ev) := by
  cases ev with
  | move m => exact h
  | post r => exact h
  | applicationState s =>
    simp only [AppState.step, AppState.onApplicationStateChanged, Seen.record]
    split
    · exact h.suspended true a.slots
    · split
      · exact h.suspended false _
      · exact h
    · exact h
    · exact h
  | work e => exact h.worked (a.worked K e)
  | timer loop =>
    simp only [AppState.step, AppState.timer, Seen.record]
    split
    · unfold AppState.shown
      rw [List.foldl_append]
      exact h.loop loop
    · exact h
  | deliver =>
    simp only [AppState.step, AppState.deliver, Seen.record]
    split
    · exact h
    · rename_i s signals hs
      unfold AppState.shown at h ⊢
      rw [hs] at h
      exact h

theorem reach {K : Checks} {ok : AppState × Seen → AppState.Event → Prop} {p : AppState × Seen} (h : (watched K).Reach ok p) :
    Shows p.1.shown p.1.core.phoneKeyStarted p.2 := by
  induction h with
  | init h0 =>
    obtain ⟨⟨w, suspended, hw⟩, hs⟩ := h0
    rw [hw, hs]
    exact ⟨rfl, rfl⟩
  | step ev _ _ ih => exact ih.step ev

end Shows

/-- Whatever the worker, the GUI, the timer and the children do: with the signals delivered, the flag
    is phone_key_started, unless an event polled while that was false raised it and no signal set it since. -/
theorem shown_active {K : Checks} {ok : AppState × Seen → AppState.Event → Prop} {p : AppState × Seen} (h : (watched K).Reach ok p) :
    p.1.shown.phoneKeyActive = (p.1.core.phoneKeyStarted || p.2.overstays) :=
  (Shows.reach h).active

/-- The app starts on a paired installation. -/
def initializes : List AppState.Event := [.work { refresh := { run := answered } }]

/-- A presence_near waits while the key file goes away and pairing fails for it; then it is polled. -/
def lateNear : List AppState.Event :=
  initializes ++
    [.move (.send (.event { kind := .presenceNear })), .move .read, .move .unlinkKey, .post .pair,
      .work { call := { stop := { run := answered } } }, .timer [({}, "2024-05-01T08:00:00.000Z"), ({}, "")]]

def watchedRun (evs : List AppState.Event) : AppState × Seen := (watched anyArgs).run (.start pairedWorld false, ⟨false, []⟩) evs

theorem watchedRun_reached (evs : List AppState.Event) : (watched anyArgs).Reach (fun _ _ => True) (watchedRun evs) :=
  Machine.Reach.run (M := watched anyArgs) (.init ⟨⟨pairedWorld, false, rfl⟩, rfl⟩) evs (.of_forall (fun _ _ => trivial) _ _)

/-- The phone key is off, and the app goes on keeping the CPU awake. -/
theorem shown_active_late :
    (watchedRun lateNear).1.core.phoneKeyStarted = false ∧ (watchedRun lateNear).1.shown.phoneKeyActive = true ∧
      (watchedRun lateNear).1.shown.phoneKeyActive = ((watchedRun lateNear).1.core.phoneKeyStarted || (watchedRun lateNear).2.overstays) :=
  ⟨by decide, by decide, shown_active (watchedRun_reached lateNear)⟩

/-- Every event polled is on the bus or in a signal on its way there, once and in order. -/
theorem events_published {K : Checks} {ok : AppState × Seen → AppState.Event → Prop} {p : AppState × Seen} (h : (watched K).Reach ok p) :
    p.1.shown.published = p.2.polled :=
  (Shows.reach h).published

/-- Presence is wanted, nobody removes private_key.pem and no notice was pushed out: between two slots the app keeps the CPU awake
    once its signals are delivered, or a retry is scheduled, or a notice waits or is about to be pushed. -/
theorem wanted_stays_awake {K : Checks} {p : AppState × Seen} (h : (watched K).Reach (fun _ ev => ev.Moves (· ≠ .unlinkKey)) p)
    (hen : p.1.core.phoneKeyEnabled = true) (hd : ¬ p.1.core.host.Drowned) :
    (p.1.shown.phoneKeyActive = true ∧ p.1.core.isPresenceActive = true) ∨ p.1.core.phoneKeyRetryAt.isSome = true ∨
      p.1.core.host.Noticed ∨ p.1.core.host.Exiting := by
  have hsched : Schedules K (· ≠ .unlinkKey) p.1.core p.1.up [] :=
    AppState.schedule (Machine.Reach.erase (M := apps K) (fun _ _ hm => hm) h)
  rcases lost_phone_key_wakes hsched rfl hen hd with ⟨hst, hact⟩ | htrig
  · refine .inl ⟨?_, hact⟩
    rw [(Shows.reach h).active]
    have hst : p.1.core.phoneKeyStarted = true := hst
    rw [hst]
    rfl
  · exact .inr htrig

theorem answered_keyed : answered.Moves (· ≠ .unlinkKey) :=
  ⟨List.forall_mem_nil _, List.forall_mem_nil _, List.forall_mem_cons.2 ⟨Move.noConfusion, List.forall_mem_singleton.2 Move.noConfusion⟩,
    List.forall_mem_nil _⟩

theorem initializes_keyed : (watched anyArgs).Reach (fun _ ev => ev.Moves (· ≠ .unlinkKey)) (watchedRun initializes) := by
  refine Machine.Reach.run (M := watched anyArgs) (.init ⟨⟨pairedWorld, false, rfl⟩, rfl⟩) initializes ⟨?_, trivial⟩
  refine ⟨runOnly_moves (idleRun_moves _), List.forall_mem_nil _, List.forall_mem_nil _, List.forall_mem_nil _, List.forall_mem_nil _, ?_⟩
  exact answered_keyed

theorem wanted_stays_awake_started :
    ((watchedRun initializes).1.shown.phoneKeyActive = true ∧ (watchedRun initializes).1.core.isPresenceActive = true) ∨
      (watchedRun initializes).1.core.phoneKeyRetryAt.isSome = true ∨ (watchedRun initializes).1.core.host.Noticed ∨
      (watchedRun initializes).1.core.host.Exiting := by
  have hdropped : (watchedRun initializes).1.core.host.client.events.dropped = [] := by decide
  refine wanted_stays_awake initializes_keyed (by decide) ?_
  rintro ⟨_, _, _, d, hd, _⟩
  rw [hdropped] at hd
  cases hd

end ElectricEel.App
