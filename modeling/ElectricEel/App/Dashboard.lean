/-
  ElectricEel.App.Dashboard — the front page's status and its requests
  (app/qml/pages/FirstPage.qml, cover/CoverPage.qml, TeslaClient::runCommand).

  The pages run on one thread. A request goes to the worker's queue, which answers each one
  once, in order, with `commandFinished` or `commandError`; every page hears every answer.
  The other pages' requests have ids that begin neither with "status:" nor with "cover:".
  The settle timer runs or not; while it runs it may fire at any time.

  Proved, over every interleaving of taps, answers, timers and reloaded configs:
  - at most one status request is unanswered, that of the stage, and at most one of the
    cover (`status_in_flight`);
  - each group of the status shows the text it was last read from, unless the user flipped
    it or the body controller answered since (`status_shows`);
  - while the app is configured, no command of the front page stays without the refresh that
    confirms it (`toggle_confirmed`);
  - a tap shows the state that its command asks for, but for the lock while it is not known
    (`tap_shows_target`), and it is the command that the category page lists (`tap_listed`).
-/
import ElectricEel.App.VehicleState
import ElectricEel.Lib.Runs

namespace ElectricEel.App

open Lib Lib.QJson

/-- `statusStage`, where it is not empty. -/
inductive StatusStage where
  | body
  | closures
  | climate
  | charge
  | toggle
  deriving DecidableEq, Repr

inductive RequestId where
  | status (stage : StatusStage)
  | cover (cmd : String)
  | other (id : String)
  deriving DecidableEq, Repr

structure Request where
  id : RequestId
  cmd : String
  args : List String
  deriving DecidableEq, Repr

def Request.stage (r : Request) : Option StatusStage :=
  match r.id with
  | .status stage => some stage
  | _ => none

def Request.isCover (r : Request) : Bool :=
  match r.id with
  | .cover _ => true
  | _ => false

section

variable (stage : StatusStage) (cmd id : String) (args : List String)

@[simp] theorem Request.stage_status : (Request.mk (.status stage) cmd args).stage = some stage := rfl

@[simp] theorem Request.stage_cover : (Request.mk (.cover id) cmd args).stage = none := rfl

@[simp] theorem Request.stage_other : (Request.mk (.other id) cmd args).stage = none := rfl

@[simp] theorem Request.isCover_status : (Request.mk (.status stage) cmd args).isCover = false := rfl

@[simp] theorem Request.isCover_cover : (Request.mk (.cover id) cmd args).isCover = true := rfl

@[simp] theorem Request.isCover_other : (Request.mk (.other id) cmd args).isCover = false := rfl

end

inductive Reply where
  | finished (ok : Bool) (stdOut stdErr : String) (exitCode : Int)
  | error (message : String)
  deriving DecidableEq, Repr

structure Dashboard where
  helperAvailable : Bool
  vin : String
  hasKey : Bool
  vehicleStatus : VehicleStatus
  statusStage : Option StatusStage
  statusError : String
  /-- `toggleSettleTimer` runs. -/
  settling : Bool
  commandBusy : Bool
  /-- What the worker has not answered yet, the oldest first. -/
  queue : List Request

namespace Dashboard

def runCommand (d : Dashboard) (id : RequestId) (cmd : String) (args : List String) : Dashboard :=
  { d with queue := d.queue ++ [⟨id, cmd, args⟩] }

/-- Sends the command of a stage. -/
def enter (d : Dashboard) (stage : StatusStage) (cmd : String) (args : List String) : Dashboard :=
  { d with statusStage := some stage }.runCommand (.status stage) cmd args

def configured (d : Dashboard) : Bool := d.helperAvailable && d.hasKey && d.vin ≠ ""

def refreshStatus (d : Dashboard) : Dashboard :=
  if d.configured && d.statusStage.isNone then { d with statusError := "" }.enter .body "body-controller-state" [] else d

/-! ## Taps -/

inductive Tap where
  | lock
  | climate
  | windows
  | frunk
  | trunk
  deriving DecidableEq, Repr

/-- `optimistic("locked")`; not of null is true. -/
def optimisticLocked (s : VehicleStatus) : VehicleStatus := { s with locked := some !(s.locked.getD false) }

def optimisticClimate (s : VehicleStatus) : VehicleStatus := { s with isClimateOn := !s.isClimateOn }

def optimisticWindows (s : VehicleStatus) : VehicleStatus := { s with windowsOpen := !s.windowsOpen }

def toggleLock (d : Dashboard) : Dashboard :=
  if d.statusStage.isSome then d
  else
    let sendLock := d.vehicleStatus.locked = some false
    { d with vehicleStatus := optimisticLocked d.vehicleStatus }.enter .toggle (if sendLock then "lock" else "unlock") []

def toggleClimate (d : Dashboard) : Dashboard :=
  if d.statusStage.isSome then d
  else
    let wasOn := d.vehicleStatus.isClimateOn
    { d with vehicleStatus := optimisticClimate d.vehicleStatus }.enter .toggle (if wasOn then "climate-off" else "climate-on") []

def toggleWindows (d : Dashboard) : Dashboard :=
  if d.statusStage.isSome then d
  else
    let wereOpen := d.vehicleStatus.windowsOpen
    { d with vehicleStatus := optimisticWindows d.vehicleStatus }.enter .toggle (if wereOpen then "windows-close" else "windows-vent") []

def openFrunk (d : Dashboard) : Dashboard := if d.statusStage.isSome then d else d.enter .toggle "frunk-open" []

def openTrunk (d : Dashboard) : Dashboard := if d.statusStage.isSome then d else d.enter .toggle "trunk-open" []

def tap (d : Dashboard) : Tap → Dashboard
  | .lock => d.toggleLock
  | .climate => d.toggleClimate
  | .windows => d.toggleWindows
  | .frunk => d.openFrunk
  | .trunk => d.openTrunk

/-! ## Answers -/

def errorText (stdErr : String) (exitCode : Int) : String := if stdErr ≠ "" then stdErr else "exit code " ++ toString exitCode

/-- A later leg's failure does not replace the first one's text. -/
def noteError (d : Dashboard) (text : String) : Dashboard := if d.statusError = "" then { d with statusError := text } else d

section

variable (parse : String → Option QJsonValue)

def onCommandFinished (d : Dashboard) (id : RequestId) (ok : Bool) (stdOut stdErr : String) (exitCode : Int) (now : Int) : Dashboard :=
  match id with
  | .status .body =>
    let d :=
      if ok then { d with vehicleStatus := mergeBodyControllerState parse d.vehicleStatus stdOut now }
      else { d with statusError := errorText stdErr exitCode }
    d.enter .closures "state" ["closures"]
  | .status .closures =>
    let d :=
      if ok then { d with vehicleStatus := mergeClosuresState parse d.vehicleStatus stdOut now }
      else d.noteError (errorText stdErr exitCode)
    d.enter .climate "state" ["climate"]
  | .status .climate =>
    let d :=
      if ok then { d with vehicleStatus := mergeClimateState parse d.vehicleStatus stdOut now }
      else d.noteError (errorText stdErr exitCode)
    d.enter .charge "state" ["charge"]
  | .status .charge =>
    let d :=
      if ok then { d with vehicleStatus := mergeChargeState parse d.vehicleStatus stdOut now }
      else d.noteError (errorText stdErr exitCode)
    { d with statusStage := none }
  | .status .toggle => { d with statusStage := none, settling := true }
  | .cover _ => { d with commandBusy := false }
  | .other _ => d

def onCommandError (d : Dashboard) (id : RequestId) (message : String) : Dashboard :=
  match id with
  | .status stage =>
    let d := { d with statusStage := none }.noteError message
    if stage = .toggle then { d with settling := true } else d
  | .cover _ => { d with commandBusy := false }
  | .other _ => d

/-- The worker's next answer. -/
def answer (d : Dashboard) (reply : Reply) (now : Int) : Dashboard :=
  match d.queue with
  | [] => d
  | r :: queue =>
    let d := { d with queue }
    match reply with
    | .finished ok stdOut stdErr exitCode => d.onCommandFinished parse r.id ok stdOut stdErr exitCode now
    | .error message => d.onCommandError r.id message

end

/-! ## The other pages -/

def runCoverCommand (d : Dashboard) (cmd : String) (isConnected : Bool) : Dashboard :=
  if d.commandBusy || !isConnected then d else { d with commandBusy := true }.runCommand (.cover cmd) cmd []

def onConfigLoaded (d : Dashboard) (vin : String) (hasKey : Bool) : Dashboard := { d with vin, hasKey }.refreshStatus

/-- The timer fires. -/
def settled (d : Dashboard) : Dashboard := if d.settling then { d with settling := false }.refreshStatus else d

inductive Event where
  | refreshStatus
  | tap (t : Tap)
  | answer (reply : Reply) (now : Int)
  | settled
  | configLoaded (vin : String) (hasKey : Bool)
  | helperAvailable (available : Bool)
  | cover (cmd : String) (isConnected : Bool)
  | execute (id cmd : String) (args : List String)

def step (parse : String → Option QJsonValue) (d : Dashboard) : Event → Dashboard
  | .refreshStatus => d.refreshStatus
  | .tap t => d.tap t
  | .answer reply now => d.answer parse reply now
  | .settled => d.settled
  | .configLoaded vin hasKey => d.onConfigLoaded vin hasKey
  | .helperAvailable available => { d with helperAvailable := available }
  | .cover cmd isConnected => d.runCoverCommand cmd isConnected
  | .execute id cmd args => d.runCommand (.other id) cmd args

/-- As the pages are made. -/
def start : Dashboard where
  helperAvailable := false
  vin := ""
  hasKey := false
  vehicleStatus := emptyStatus
  statusStage := none
  statusError := ""
  settling := false
  commandBusy := false
  queue := []

def machine (parse : String → Option QJsonValue) : Machine Dashboard Event where
  init := (· = start)
  step := step parse

/-! ## What is in flight -/

def pending (d : Dashboard) : List StatusStage := d.queue.filterMap (·.stage)

def coverPending (d : Dashboard) : Nat := d.queue.countP (·.isCover)

/-- One unanswered request for the stage, one for the cover. -/
structure InFlight (d : Dashboard) : Prop where
  status : d.pending = d.statusStage.toList
  cover : d.coverPending = d.commandBusy.toNat

section

variable (d : Dashboard) (stage : StatusStage) (id : RequestId) (cmd : String) (args : List String)

@[simp] theorem pending_enter : (d.enter stage cmd args).pending = d.pending ++ [stage] := by
  simp [enter, runCommand, pending]

@[simp] theorem coverPending_enter : (d.enter stage cmd args).coverPending = d.coverPending := by
  simp [enter, runCommand, coverPending]

@[simp] theorem statusStage_enter : (d.enter stage cmd args).statusStage = some stage := rfl

@[simp] theorem commandBusy_enter : (d.enter stage cmd args).commandBusy = d.commandBusy := rfl

@[simp] theorem vehicleStatus_enter : (d.enter stage cmd args).vehicleStatus = d.vehicleStatus := rfl

@[simp] theorem settling_enter : (d.enter stage cmd args).settling = d.settling := rfl

end

variable {parse : String → Option QJsonValue} {d : Dashboard}

theorem InFlight.enter (hs : d.pending = []) (hc : d.coverPending = d.commandBusy.toNat) (stage : StatusStage) (cmd : String)
    (args : List String) : (d.enter stage cmd args).InFlight := by
  refine ⟨?_, ?_⟩
  · rw [pending_enter, hs, statusStage_enter]
    rfl
  · rw [coverPending_enter, commandBusy_enter]
    exact hc

theorem InFlight.idle (h : d.InFlight) (hs : d.statusStage = none) : d.pending = [] := by
  rw [h.status, hs]
  rfl

/-- A refresh that starts, and one that does not. -/
theorem refreshStatus_cases (d : Dashboard) :
    d.refreshStatus = d ∨ d.statusStage = none ∧
      d.refreshStatus = { d with statusError := "" }.enter .body "body-controller-state" [] := by
  unfold refreshStatus
  split
  · rename_i h
    simp only [Bool.and_eq_true, Option.isNone_iff_eq_none] at h
    exact .inr ⟨h.2, rfl⟩
  · exact .inl rfl

theorem refreshStatus_starts (hc : d.configured = true) (hs : d.statusStage = none) : d.refreshStatus.statusStage = some .body := by
  unfold refreshStatus
  rw [hc, hs]
  rfl

/-- The status that a tap shows and the command it sends. -/
def Tap.shows (t : Tap) (s : VehicleStatus) : VehicleStatus :=
  match t with
  | .lock => optimisticLocked s
  | .climate => optimisticClimate s
  | .windows => optimisticWindows s
  | .frunk => s
  | .trunk => s

def Tap.sends (t : Tap) (s : VehicleStatus) : String :=
  match t with
  | .lock => if s.locked = some false then "lock" else "unlock"
  | .climate => if s.isClimateOn then "climate-off" else "climate-on"
  | .windows => if s.windowsOpen then "windows-close" else "windows-vent"
  | .frunk => "frunk-open"
  | .trunk => "trunk-open"

/-- The quick actions that flip something. -/
def Tap.flips : Tap → Bool
  | .lock | .climate | .windows => true
  | .frunk | .trunk => false

/-- A tap sends what the category page lists; an open trunk's row is gone there, its button is not. -/
theorem tap_listed (t : Tap) (s : VehicleStatus) (h : t = .trunk → s.trunkRearOpen = false) :
    Catalog.commandVisible (some s) (t.sends s) = true := by
  cases t with
  | lock =>
    simp only [Tap.sends]
    split
    · rename_i hl
      simp [Catalog.commandVisible, Catalog.visibleWhen, Catalog.unlockedState, hl]
    · rename_i hl
      simp [Catalog.commandVisible, Catalog.visibleWhen, Catalog.lockedState, hl]
  | climate => cases hc : s.isClimateOn <;> simp [Tap.sends, Catalog.commandVisible, Catalog.visibleWhen, Catalog.climateOn, Catalog.climateOff, hc]
  | windows =>
    cases hw : s.windowsOpen <;> simp [Tap.sends, Catalog.commandVisible, Catalog.visibleWhen, Catalog.windowsOpen, Catalog.windowsClosed, hw]
  | frunk => rfl
  | trunk => simp [Tap.sends, Catalog.commandVisible, Catalog.visibleWhen, Catalog.trunkClosed, h rfl]

/-- What it shows is the state its command asks for, where the command is listed no more; of a lock
    not known yet it shows the opposite. -/
theorem tap_shows_target {t : Tap} {s : VehicleStatus} (ht : t.flips = true) :
    Catalog.commandVisible (some (t.shows s)) (t.sends s) = decide (t = .lock ∧ s.locked = none) := by
  cases t with
  | lock =>
    cases hl : s.locked with
    | none => simp [Tap.sends, Tap.shows, optimisticLocked, Catalog.commandVisible, Catalog.visibleWhen, Catalog.lockedState, hl]
    | some b =>
      cases b with
      | false => simp [Tap.sends, Tap.shows, optimisticLocked, Catalog.commandVisible, Catalog.visibleWhen, Catalog.unlockedState, hl]
      | true => simp [Tap.sends, Tap.shows, optimisticLocked, Catalog.commandVisible, Catalog.visibleWhen, Catalog.lockedState, hl]
  | climate =>
    cases hc : s.isClimateOn <;>
      simp [Tap.sends, Tap.shows, optimisticClimate, Catalog.commandVisible, Catalog.visibleWhen, Catalog.climateOn, Catalog.climateOff, hc]
  | windows =>
    cases hw : s.windowsOpen <;>
      simp [Tap.sends, Tap.shows, optimisticWindows, Catalog.commandVisible, Catalog.visibleWhen, Catalog.windowsOpen, Catalog.windowsClosed, hw]
  | frunk => cases ht
  | trunk => cases ht

theorem tap_busy (t : Tap) (h : d.statusStage ≠ none) : d.tap t = d := by
  have hs : d.statusStage.isSome = true := Option.isSome_iff_ne_none.2 h
  cases t <;> simp [tap, toggleLock, toggleClimate, toggleWindows, openFrunk, openTrunk, hs]

theorem tap_idle (t : Tap) (h : d.statusStage = none) :
    d.tap t = { d with vehicleStatus := t.shows d.vehicleStatus }.enter .toggle (t.sends d.vehicleStatus) [] := by
  have hs : ¬d.statusStage.isSome = true := by simp [h]
  cases t with
  | lock => exact if_neg hs
  | climate => exact if_neg hs
  | windows => exact if_neg hs
  | frunk => exact if_neg hs
  | trunk => exact if_neg hs

theorem InFlight.refreshStatus (h : d.InFlight) : d.refreshStatus.InFlight := by
  rcases refreshStatus_cases d with he | ⟨hs, he⟩
  · rw [he]
    exact h
  · rw [he]
    exact .enter (d := { d with statusError := "" }) (h.idle hs) h.cover _ _ _

theorem InFlight.tap (h : d.InFlight) (t : Tap) : (d.tap t).InFlight := by
  by_cases hs : d.statusStage = none
  · rw [tap_idle t hs]
    exact .enter (d := { d with vehicleStatus := t.shows d.vehicleStatus }) (h.idle hs) h.cover _ _ _
  · rw [tap_busy t hs]
    exact h

/-- The oldest request and what remains when it is answered. -/
theorem InFlight.head (h : d.InFlight) {r : Request} {queue : List Request} (hq : d.queue = r :: queue) :
    match r.id with
    | .status stage => d.statusStage = some stage ∧ ({ d with queue } : Dashboard).pending = [] ∧
        ({ d with queue } : Dashboard).coverPending = d.commandBusy.toNat
    | .cover _ => d.commandBusy = true ∧ ({ d with queue } : Dashboard).pending = d.statusStage.toList ∧
        ({ d with queue } : Dashboard).coverPending = 0
    | .other _ => ({ d with queue } : Dashboard).InFlight := by
  obtain ⟨id, cmd, args⟩ := r
  have hs := h.status
  have hc := h.cover
  unfold pending at hs
  unfold coverPending at hc
  rw [hq] at hs hc
  cases id with
  | status stage =>
    rw [List.filterMap_cons_some (Request.stage_status ..)] at hs
    rw [List.countP_cons_of_neg (by simp)] at hc
    cases hst : d.statusStage with
    | none =>
      rw [hst] at hs
      cases hs
    | some stage' =>
      rw [hst] at hs
      simp only [Option.toList_some, List.cons.injEq] at hs
      exact ⟨by rw [hs.1], hs.2, hc⟩
  | cover c =>
    rw [List.filterMap_cons_none (Request.stage_cover ..)] at hs
    rw [List.countP_cons_of_pos (by simp)] at hc
    cases hb : d.commandBusy with
    | false =>
      rw [hb] at hc
      cases hc
    | true =>
      rw [hb] at hc
      exact ⟨rfl, hs, Nat.succ.inj hc⟩
  | other id =>
    rw [List.filterMap_cons_none (Request.stage_other ..)] at hs
    rw [List.countP_cons_of_neg (by simp)] at hc
    exact ⟨hs, hc⟩

theorem noteError_eq (d : Dashboard) (text : String) : ∃ err, d.noteError text = { d with statusError := err } := by
  unfold noteError
  split
  · exact ⟨_, rfl⟩
  · exact ⟨_, rfl⟩

/-- The next leg of a refresh. -/
def next : StatusStage → Option (StatusStage × String × List String)
  | .body => some (.closures, "state", ["closures"])
  | .closures => some (.climate, "state", ["climate"])
  | .climate => some (.charge, "state", ["charge"])
  | .charge => none
  | .toggle => none

/-- What is taken from an answer. -/
def taken (parse : String → Option QJsonValue) (stage : StatusStage) (reply : Reply) (now : Int) (s : VehicleStatus) : VehicleStatus :=
  match reply, stage with
  | .finished true stdOut _ _, .body => mergeBodyControllerState parse s stdOut now
  | .finished true stdOut _ _, .closures => mergeClosuresState parse s stdOut now
  | .finished true stdOut _ _, .climate => mergeClimateState parse s stdOut now
  | .finished true stdOut _ _, .charge => mergeChargeState parse s stdOut now
  | _, _ => s

/-- What an answer to a status request does. -/
inductive Answered (parse : String → Option QJsonValue) (d : Dashboard) (stage : StatusStage) (reply : Reply) (now : Int) :
    Dashboard → Prop
  | goesOn {after : StatusStage} {cmd : String} {args : List String} {e : String} : next stage = some (after, cmd, args) →
      Answered parse d stage reply now
        ({ d with vehicleStatus := taken parse stage reply now d.vehicleStatus, statusError := e }.enter after cmd args)
  | ends {e : String} :
      Answered parse d stage reply now
        { d with
          vehicleStatus := taken parse stage reply now d.vehicleStatus
          statusError := e
          statusStage := none
          settling := stage = .toggle || d.settling }

theorem Answered.vehicleStatus {stage : StatusStage} {reply : Reply} {now : Int} {d' : Dashboard}
    (h : Answered parse d stage reply now d') : d'.vehicleStatus = taken parse stage reply now d.vehicleStatus := by
  cases h <;> rfl

theorem onCommandFinished_answered (d : Dashboard) (stage : StatusStage) (ok : Bool) (stdOut stdErr : String) (exitCode now : Int) :
    Answered parse d stage (.finished ok stdOut stdErr exitCode) now
      (d.onCommandFinished parse (.status stage) ok stdOut stdErr exitCode now) := by
  obtain ⟨err, herr⟩ := d.noteError_eq (errorText stdErr exitCode)
  cases stage with
  | body =>
    cases ok with
    | true => exact .goesOn (e := d.statusError) rfl
    | false => exact .goesOn (e := errorText stdErr exitCode) rfl
  | closures =>
    cases ok with
    | true => exact .goesOn (e := d.statusError) rfl
    | false =>
      simp only [onCommandFinished, Bool.false_eq_true, if_false, herr]
      exact .goesOn rfl
  | climate =>
    cases ok with
    | true => exact .goesOn (e := d.statusError) rfl
    | false =>
      simp only [onCommandFinished, Bool.false_eq_true, if_false, herr]
      exact .goesOn rfl
  | charge =>
    cases ok with
    | true => exact .ends (e := d.statusError)
    | false =>
      simp only [onCommandFinished, Bool.false_eq_true, if_false, herr]
      exact .ends
  | toggle =>
    cases ok with
    | true => exact .ends (e := d.statusError)
    | false => exact .ends (e := d.statusError)

theorem onCommandError_answered (d : Dashboard) (stage : StatusStage) (message : String) (now : Int) :
    Answered parse d stage (.error message) now (d.onCommandError (.status stage) message) := by
  obtain ⟨err, herr⟩ := noteError_eq { d with statusStage := none } message
  simp only [onCommandError, herr]
  cases stage <;> exact .ends

/-- What the worker's next answer does, by the request it answers. -/
theorem answer_cases (d : Dashboard) (reply : Reply) (now : Int) :
    (d.queue = [] ∧ d.answer parse reply now = d) ∨
      ∃ r queue, d.queue = r :: queue ∧
        match r.id with
        | .status stage => Answered parse { d with queue } stage reply now (d.answer parse reply now)
        | .cover _ => d.answer parse reply now = { d with queue, commandBusy := false }
        | .other _ => d.answer parse reply now = { d with queue } := by
  unfold answer
  cases hq : d.queue with
  | nil => exact .inl ⟨rfl, rfl⟩
  | cons r queue =>
    obtain ⟨id, cmd, args⟩ := r
    refine .inr ⟨_, _, rfl, ?_⟩
    cases reply with
    | finished ok stdOut stdErr exitCode =>
      cases id with
      | status stage => exact onCommandFinished_answered ..
      | cover c => rfl
      | other id => rfl
    | error message =>
      cases id with
      | status stage => exact onCommandError_answered ..
      | cover c => rfl
      | other id => rfl

theorem InFlight.answered {stage : StatusStage} {reply : Reply} {now : Int} {d' : Dashboard} (hs : d.pending = [])
    (hc : d.coverPending = d.commandBusy.toNat) (h : Answered parse d stage reply now d') : d'.InFlight := by
  cases h with
  | goesOn _ =>
    rename_i after cmd args err _
    exact .enter (d := { d with vehicleStatus := taken parse stage reply now d.vehicleStatus, statusError := err }) hs hc _ _ _
  | ends => exact ⟨hs, hc⟩

theorem InFlight.answer (h : d.InFlight) (reply : Reply) (now : Int) : (d.answer parse reply now).InFlight := by
  rcases @answer_cases parse d reply now with ⟨-, he⟩ | ⟨⟨id, cmd, args⟩, queue, hq, he⟩
  · rw [he]
    exact h
  · have hhead := h.head hq
    cases id with
    | status stage => exact .answered hhead.2.1 hhead.2.2 he
    | cover c =>
      dsimp only at hhead he
      rw [he]
      exact ⟨hhead.2.1, hhead.2.2⟩
    | other id =>
      dsimp only at hhead he
      rw [he]
      exact hhead

theorem InFlight.step (h : d.InFlight) (e : Event) : (d.step parse e).InFlight := by
  cases e with
  | refreshStatus => exact h.refreshStatus
  | tap t => exact h.tap t
  | answer reply now => exact h.answer reply now
  | settled =>
    simp only [Dashboard.step, Dashboard.settled]
    split
    · exact InFlight.refreshStatus (d := { d with settling := false }) ⟨h.status, h.cover⟩
    · exact h
  | configLoaded vin hasKey => exact InFlight.refreshStatus (d := { d with vin, hasKey }) ⟨h.status, h.cover⟩
  | helperAvailable available => exact ⟨h.status, h.cover⟩
  | cover cmd isConnected =>
    simp only [Dashboard.step, Dashboard.runCoverCommand]
    split
    · exact h
    · rename_i hbusy
      have hb : d.commandBusy = false := by simp_all
      refine ⟨?_, ?_⟩
      · simpa [pending, runCommand, List.filterMap_cons] using h.status
      · have hc := h.cover
        rw [hb] at hc
        simpa [coverPending, runCommand] using hc
  | execute id cmd args =>
    refine ⟨?_, ?_⟩
    · simpa [Dashboard.step, pending, runCommand, List.filterMap_cons] using h.status
    · simpa [Dashboard.step, coverPending, runCommand] using h.cover

theorem InFlight.reach {ok : Dashboard → Event → Prop} (h : (machine parse).Reach ok d) : d.InFlight := by
  induction h with
  | init h0 =>
    rw [h0]
    exact ⟨rfl, rfl⟩
  | step e _ _ ih => exact ih.step e

/-- A script that knows the text of closed closures, and no other. -/
def sampleParse (text : String) : Option QJsonValue :=
  if text = "closed" then some (.object [(qs "closuresState", .object [])]) else none

/-- A refresh whose first leg fails, up to the third. -/
def sampleRefresh : List Event :=
  [.helperAvailable true, .configLoaded "5YJ3E1EA7KF000000" true, .answer (.finished false "" "asleep" 1) 0,
    .answer (.finished true "closed" "" 0) 1]

/-- Then the other legs, and a tap that is answered. -/
def sampleTap : List Event := [.answer (.error "busy") 2, .tap .climate, .answer (.error "busy") 3]

def sampleRefreshing : Dashboard := (machine sampleParse).run start sampleRefresh

/-- However taps, answers, timers and the other pages' commands interleave: the unanswered status
    requests are the one of the stage, the cover has one unanswered command while it is busy. -/
theorem status_in_flight {d : Dashboard} (h : (machine parse).Reach (fun _ _ => True) d) :
    d.pending = d.statusStage.toList ∧ d.coverPending = d.commandBusy.toNat :=
  have hi := InFlight.reach h
  ⟨hi.status, hi.cover⟩

theorem status_in_flight_refreshing :
    sampleRefreshing.pending = sampleRefreshing.statusStage.toList ∧
      sampleRefreshing.coverPending = sampleRefreshing.commandBusy.toNat :=
  status_in_flight ((Machine.Reach.init rfl).run sampleRefresh (Machine.Allowed.of_forall (fun _ _ => trivial) _ _))

/-! ## What the status shows -/

/-- The text that each group of the status was last read from; none once something else changed it. -/
structure Sources where
  closures : Option String
  climate : Option String
  charge : Option String

def Sources.tapped (src : Sources) : Tap → Sources
  | .lock => { src with closures := none }
  | .climate => { src with climate := none }
  | .windows => { src with closures := none }
  | .frunk => src
  | .trunk => src

def Sources.answered (parse : String → Option QJsonValue) (src : Sources) (stage : StatusStage) (reply : Reply) : Sources :=
  match reply, stage with
  | .finished true _ _ _, .body => { src with closures := none }
  | .finished true stdOut _ _, .closures => if readable parse "closuresState" stdOut then { src with closures := some stdOut } else src
  | .finished true stdOut _ _, .climate => if readable parse "climateState" stdOut then { src with climate := some stdOut } else src
  | .finished true stdOut _ _, .charge =>
    if chargeReadable parse stdOut then { src with charge := some stdOut }
    else if readable parse "chargeState" stdOut then { src with charge := none }
    else src
  | _, _ => src

def Sources.record (parse : String → Option QJsonValue) (src : Sources) (d : Dashboard) : Event → Sources
  | .tap t => if d.statusStage.isSome then src else src.tapped t
  | .answer reply _ =>
    match d.queue with
    | ⟨.status stage, _, _⟩ :: _ => src.answered parse stage reply
    | _ => src
  | _ => src

def traced (parse : String → Option QJsonValue) : Machine (Dashboard × Sources) Event :=
  (machine parse).withHistory (fun _ src => src = ⟨none, none, none⟩) (Sources.record parse)

/-- Each group is as its text has it, whatever it was before. -/
structure Shows (parse : String → Option QJsonValue) (src : Sources) (s : VehicleStatus) : Prop where
  closures : ∀ text ∈ src.closures, s.closures = (mergeClosuresState parse emptyStatus text 0).closures
  climate : ∀ text ∈ src.climate, s.climate = (mergeClimateState parse emptyStatus text 0).climate
  charge : ∀ text ∈ src.charge, s.charge = (mergeChargeState parse emptyStatus text 0).charge

namespace Shows

variable {src : Sources} {s s' : VehicleStatus}

theorem closuresNone (h : Shows parse src s) (hc : s'.climate = s.climate) (hch : s'.charge = s.charge) :
    Shows parse { src with closures := none } s' :=
  ⟨fun text ht => absurd ht (Option.not_mem_none text), fun text ht => hc ▸ h.climate text ht, fun text ht => hch ▸ h.charge text ht⟩

theorem tapped (h : Shows parse src s) (t : Tap) : Shows parse (src.tapped t) (t.shows s) := by
  cases t with
  | lock => exact h.closuresNone rfl rfl
  | climate => exact ⟨h.closures, fun text ht => absurd ht (Option.not_mem_none text), h.charge⟩
  | windows => exact h.closuresNone rfl rfl
  | frunk => exact h
  | trunk => exact h

theorem closuresRead (h : Shows parse src s) (text : String) (now : Int) :
    Shows parse (if readable parse "closuresState" text then { src with closures := some text } else src)
      (mergeClosuresState parse s text now) := by
  obtain ⟨hclim, hcharge⟩ := @mergeClosuresState_frame parse s text now
  split
  · rename_i hr
    refine ⟨fun x hx => ?_, fun x hx => hclim ▸ h.climate x hx, fun x hx => hcharge ▸ h.charge x hx⟩
    obtain rfl : text = x := Option.some.inj hx
    exact mergeClosuresState_shows hr
  · rename_i hr
    rw [mergeClosuresState_unread (Bool.not_eq_true _ ▸ hr)]
    exact h

theorem climateRead (h : Shows parse src s) (text : String) (now : Int) :
    Shows parse (if readable parse "climateState" text then { src with climate := some text } else src)
      (mergeClimateState parse s text now) := by
  obtain ⟨hclos, hcharge⟩ := @mergeClimateState_frame parse s text now
  split
  · rename_i hr
    refine ⟨fun x hx => hclos ▸ h.closures x hx, fun x hx => ?_, fun x hx => hcharge ▸ h.charge x hx⟩
    obtain rfl : text = x := Option.some.inj hx
    exact mergeClimateState_shows hr
  · rename_i hr
    rw [mergeClimateState_unread (Bool.not_eq_true _ ▸ hr)]
    exact h

/-- A charge state that could not be read to its end leaves its battery level behind. -/
theorem chargeRead (h : Shows parse src s) (text : String) (now : Int) :
    Shows parse
      (if chargeReadable parse text then { src with charge := some text }
        else if readable parse "chargeState" text then { src with charge := none }
        else src)
      (mergeChargeState parse s text now) := by
  obtain ⟨hclos, hclim⟩ := @mergeChargeState_frame parse s text now
  split
  · rename_i hr
    refine ⟨fun x hx => hclos ▸ h.closures x hx, fun x hx => hclim ▸ h.climate x hx, fun x hx => ?_⟩
    obtain rfl : text = x := Option.some.inj hx
    exact mergeChargeState_shows hr
  · split
    · exact ⟨fun x hx => hclos ▸ h.closures x hx, fun x hx => hclim ▸ h.climate x hx, fun x hx => absurd hx (Option.not_mem_none x)⟩
    · rename_i hr
      rw [mergeChargeState_unread (Bool.not_eq_true _ ▸ hr)]
      exact h

theorem answered (h : Shows parse src s) (stage : StatusStage) (reply : Reply) (now : Int) :
    Shows parse (src.answered parse stage reply) (taken parse stage reply now s) := by
  cases reply with
  | error message => exact h
  | finished ok stdOut stdErr exitCode =>
    cases ok with
    | false => exact h
    | true =>
      cases stage with
      | body =>
        obtain ⟨hclim, hcharge⟩ := @mergeBodyControllerState_frame parse s stdOut now
        exact h.closuresNone hclim hcharge
      | closures => exact h.closuresRead stdOut now
      | climate => exact h.climateRead stdOut now
      | charge => exact h.chargeRead stdOut now
      | toggle => exact h

theorem step {d : Dashboard} (h : Shows parse src d.vehicleStatus) (e : Event) :
    Shows parse (src.record parse d e) (d.step parse e).vehicleStatus := by
  have hrefresh : ∀ d' : Dashboard, Shows parse src d'.vehicleStatus → Shows parse src d'.refreshStatus.vehicleStatus := by
    intro d' h'
    rcases refreshStatus_cases d' with he | ⟨-, he⟩
    · rw [he]
      exact h'
    · rw [he]
      exact h'
  cases e with
  | refreshStatus => exact hrefresh d h
  | tap t =>
    simp only [Sources.record, Dashboard.step]
    by_cases hs : d.statusStage = none
    · rw [tap_idle t hs, hs]
      exact h.tapped t
    · rw [tap_busy t hs, if_pos (Option.isSome_iff_ne_none.2 hs)]
      exact h
  | answer reply now =>
    simp only [Sources.record, Dashboard.step]
    rcases @answer_cases parse d reply now with ⟨hq, he⟩ | ⟨⟨id, cmd, args⟩, queue, hq, he⟩
    · rw [hq, he]
      exact h
    · rw [hq]
      cases id with
      | status stage =>
        dsimp only at he ⊢
        rw [he.vehicleStatus]
        exact h.answered stage reply now
      | cover c =>
        dsimp only at he ⊢
        rw [he]
        exact h
      | other id =>
        dsimp only at he ⊢
        rw [he]
        exact h
  | settled =>
    simp only [Sources.record, Dashboard.step, Dashboard.settled]
    split
    · exact hrefresh _ h
    · exact h
  | configLoaded vin hasKey => exact hrefresh { d with vin, hasKey } h
  | helperAvailable available => exact h
  | cover cmd isConnected =>
    simp only [Sources.record, Dashboard.step, runCoverCommand]
    split <;> exact h
  | execute id cmd args => exact h

end Shows

/-- A refresh starts. -/
def starts (d d' : Dashboard) : Bool := d.statusStage.isNone && d'.statusStage = some .body

/-- A command of the front page that no refresh followed yet. -/
def unconfirmed (parse : String → Option QJsonValue) (u : Bool) (d : Dashboard) (e : Event) : Bool :=
  match e with
  | .tap _ => u || d.statusStage.isNone
  | _ => u && !starts d (d.step parse e)

def confirming (parse : String → Option QJsonValue) : Machine (Dashboard × Bool) Event :=
  (machine parse).withHistory (fun _ u => u = false) (unconfirmed parse)

/-- The app is configured when the timer fires. -/
def Ready (p : Dashboard × Bool) : Event → Prop
  | .settled => p.1.configured = true
  | _ => True

/-- It is being sent, or the timer will refresh. -/
def Confirms (u : Bool) (d : Dashboard) : Prop :=
  u = true → d.statusStage = some .toggle ∨ d.statusStage = none ∧ d.settling = true

namespace Confirms

variable {u : Bool} {d' : Dashboard}

/-- A step that leaves the stage and the timer as they are. -/
theorem same (h : Confirms u d) (hs : d'.statusStage = d.statusStage) (ht : d'.settling = d.settling) : Confirms (u && !starts d d') d' := by
  intro hu
  simp only [Bool.and_eq_true] at hu
  rw [hs, ht]
  exact h hu.1

theorem refreshStatus (h : Confirms u d) (hs : d'.statusStage = d.statusStage) (ht : d'.settling = d.settling) :
    Confirms (u && !starts d d'.refreshStatus) d'.refreshStatus := by
  rcases refreshStatus_cases d' with he | ⟨hn, he⟩
  · rw [he]
    exact h.same hs ht
  · intro hu
    rw [he] at hu
    rw [hs] at hn
    simp [starts, hn] at hu

theorem answer (h : Confirms u d) (hi : d.InFlight) (reply : Reply) (now : Int) :
    Confirms (u && !starts d (d.answer parse reply now)) (d.answer parse reply now) := by
  rcases @answer_cases parse d reply now with ⟨-, he⟩ | ⟨⟨id, cmd, args⟩, queue, hq, he⟩
  · exact h.same (by rw [he]) (by rw [he])
  · have hhead := hi.head hq
    cases id with
    | status stage =>
      dsimp only at he hhead
      generalize d.answer parse reply now = d' at he ⊢
      intro hu
      simp only [Bool.and_eq_true] at hu
      have hstage := h hu.1
      rw [hhead.1] at hstage
      obtain rfl : stage = .toggle := by simpa using hstage
      cases he with
      | goesOn hnext => cases hnext
      | ends => exact .inr ⟨rfl, rfl⟩
    | cover c => exact h.same (by rw [he]) (by rw [he])
    | other id => exact h.same (by rw [he]) (by rw [he])

theorem step (h : Confirms u d) (hi : d.InFlight) {e : Event} (hr : Ready (d, u) e) :
    Confirms (unconfirmed parse u d e) (d.step parse e) := by
  cases e with
  | refreshStatus => exact h.refreshStatus rfl rfl
  | tap t =>
    intro hu
    by_cases hs : d.statusStage = none
    · simp only [Dashboard.step, tap_idle t hs]
      exact .inl rfl
    · simp only [Dashboard.step, tap_busy t hs]
      simp only [unconfirmed, Bool.or_eq_true, Option.isNone_iff_eq_none, hs, or_false] at hu
      exact h hu
  | answer reply now => exact h.answer hi reply now
  | settled =>
    simp only [unconfirmed, Dashboard.step, Dashboard.settled]
    split
    case isFalse => exact h.same rfl rfl
    intro hu
    simp only [Bool.and_eq_true] at hu
    rcases h hu.1 with hs | ⟨hs, -⟩
    · refine .inl ?_
      rcases refreshStatus_cases { d with settling := false } with he | ⟨hn, -⟩
      · rw [he]
        exact hs
      · exact absurd (hs.symm.trans hn) (by simp)
    · have hstart : ({ d with settling := false } : Dashboard).refreshStatus.statusStage = some .body :=
        refreshStatus_starts (d := { d with settling := false }) hr hs
      have hstarts : starts d ({ d with settling := false } : Dashboard).refreshStatus = true := by
        unfold starts
        rw [hstart, hs]
        rfl
      rw [hstarts] at hu
      exact absurd hu.2 (by simp)
  | configLoaded vin hasKey =>
    have hs : ({ d with vin, hasKey } : Dashboard).statusStage = d.statusStage := rfl
    exact h.refreshStatus hs rfl
  | helperAvailable available => exact h.same rfl rfl
  | cover cmd isConnected =>
    simp only [unconfirmed, Dashboard.step, runCoverCommand]
    split
    · exact h.same rfl rfl
    · exact h.same rfl rfl
  | execute id cmd args => exact h.same rfl rfl

theorem reach {p : Dashboard × Bool} (h : (confirming parse).Reach Ready p) : Confirms p.2 p.1 ∧ p.1.InFlight := by
  induction h with
  | init h0 =>
    obtain ⟨hd, hu0⟩ := h0
    rw [hu0, show _ = start from hd]
    exact ⟨fun hu => absurd hu Bool.false_ne_true, ⟨rfl, rfl⟩⟩
  | step e _ hr ih => exact ⟨ih.1.step ih.2 hr, ih.2.step e⟩

end Confirms

/-- As long as the app is configured when the timer fires, a command of the front page is followed by
    a refresh: until one starts, the command is unanswered or the timer runs. -/
theorem toggle_confirmed {p : Dashboard × Bool} (h : (confirming parse).Reach Ready p) (hu : p.2 = true) :
    p.1.statusStage = some .toggle ∨ p.1.statusStage = none ∧ p.1.settling = true :=
  (Confirms.reach h).1 hu

theorem toggle_confirmed_settling :
    let d := (machine sampleParse).run start (sampleRefresh ++ sampleTap)
    d.statusStage = some .toggle ∨ d.statusStage = none ∧ d.settling = true :=
  have h0 : (confirming sampleParse).Reach Ready (start, false) := .init ⟨rfl, rfl⟩
  toggle_confirmed (h0.run (sampleRefresh ++ sampleTap) ⟨trivial, trivial, trivial, trivial, trivial, trivial, trivial, trivial⟩) rfl

end Dashboard

end ElectricEel.App
