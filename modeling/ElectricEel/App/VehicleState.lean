/-
  ElectricEel.App.VehicleState — the dashboard's status, from the JSON of `state` and
  `body-controller-state` (app/qml/js/VehicleState.js), and the rows of the catalog that
  depend on it (CommandCatalog.js `visibleWhen`, CategoryPage.qml `commandVisible`).

  `JSON.parse` is a parameter: the value of a text, or nothing where it throws. An object's
  fields stand in the order of the text, each key once. What a `try` block assigned before it
  threw stays, as in the code: of a charge state whose variant is no object only the battery
  level is taken.

  Proved: what each reading touches (`mergeClosuresState_shows`, `mergeClimateState_shows`,
  `mergeChargeState_shows`); of each pair of opposite commands the catalog lists exactly one,
  whatever is known (`one_listed`).
-/
import ElectricEel.Lib.QJson

namespace ElectricEel.App

open Lib Lib.QJson

/-! ## Values of a script -/

/-- `v.key` of a value that is not null; none is undefined. -/
def prop (v : QJsonValue) (key : String) : Option QJsonValue := value (toObject v) (qs key)

def truthy : Option QJsonValue → Bool
  | none => false
  | some .null => false
  | some (.bool b) => b
  | some (.double x) => x ≠ 0
  | some (.string s) => s ≠ []
  | some (.array _) => true
  | some (.object _) => true

/-- `v || dflt`. -/
def orElse (v : Option QJsonValue) (dflt : QJsonValue) : QJsonValue := if truthy v then v.getD dflt else dflt

/-- `v === text`. -/
def isText (v : Option QJsonValue) (text : String) : Bool :=
  match v with
  | some (.string s) => s = qs text
  | _ => false

/-! ## The status -/

structure VehicleStatus where
  locked : Option Bool
  doorsOpen : Bool
  trunkFrontOpen : Bool
  trunkRearOpen : Bool
  windowsOpen : Bool
  insideTemp : QJsonValue
  outsideTemp : QJsonValue
  isClimateOn : Bool
  driverTempSetting : QJsonValue
  batteryLevel : QJsonValue
  chargingState : QString
  chargePortOpen : Bool
  minutesToFullCharge : QJsonValue
  chargeLimitSoc : QJsonValue
  chargeCurrent : QJsonValue
  updatedAt : Int

def emptyStatus : VehicleStatus where
  locked := none
  doorsOpen := false
  trunkFrontOpen := false
  trunkRearOpen := false
  windowsOpen := false
  insideTemp := .null
  outsideTemp := .null
  isClimateOn := false
  driverTempSetting := .null
  batteryLevel := .null
  chargingState := []
  chargePortOpen := false
  minutesToFullCharge := .double 0
  chargeLimitSoc := .null
  chargeCurrent := .null
  updatedAt := 0

def closureIsOpen (state : Option QJsonValue) : Bool :=
  isText state "CLOSURESTATE_OPEN" || isText state "CLOSURESTATE_AJAR" || isText state "CLOSURESTATE_OPENING"

/-- None: `Object.keys` throws, for a value that is no object. -/
def oneofVariantName (oneofObj : Option QJsonValue) : Option QString :=
  if truthy oneofObj = false then some []
  else
    match oneofObj with
    | some (.object fields) => some ((fields.head?.map (·.1)).getD [])
    | some (.array xs) => some (if xs.isEmpty then [] else qs "0")
    | _ => none

section Merge

variable (parse : String → Option QJsonValue)

/-- `JSON.parse(jsonText).name || {}`; none where that throws. -/
def category (jsonText name : String) : Option QJsonValue :=
  match parse jsonText with
  | none => none
  | some .null => none
  | some v => some (orElse (prop v name) (.object []))

def mergeBodyControllerState (status : VehicleStatus) (jsonText : String) (now : Int) : VehicleStatus :=
  match parse jsonText with
  | none => status
  | some v =>
    let obj := orElse (some v) (.object [])
    let lock := prop obj "vehicleLockState"
    let s :=
      if isText lock "VEHICLELOCKSTATE_LOCKED" || isText lock "VEHICLELOCKSTATE_INTERNAL_LOCKED" then
        { status with locked := some true }
      else if isText lock "VEHICLELOCKSTATE_UNLOCKED" || isText lock "VEHICLELOCKSTATE_SELECTIVE_UNLOCKED" then
        { status with locked := some false }
      else status
    let s :=
      match prop obj "closureStatuses" with
      | none => s
      | some .null => s
      | some c =>
        { s with
          doorsOpen := closureIsOpen (prop c "frontDriverDoor") || closureIsOpen (prop c "frontPassengerDoor") ||
            closureIsOpen (prop c "rearDriverDoor") || closureIsOpen (prop c "rearPassengerDoor")
          trunkFrontOpen := closureIsOpen (prop c "frontTrunk")
          trunkRearOpen := closureIsOpen (prop c "rearTrunk") }
    { s with updatedAt := now }

def mergeClosuresState (status : VehicleStatus) (jsonText : String) (now : Int) : VehicleStatus :=
  match category parse jsonText "closuresState" with
  | none => status
  | some obj =>
    { status with
      locked := some (truthy (prop obj "locked"))
      doorsOpen := truthy (prop obj "doorOpenDriverFront") || truthy (prop obj "doorOpenDriverRear") ||
        truthy (prop obj "doorOpenPassengerFront") || truthy (prop obj "doorOpenPassengerRear") ||
        truthy (prop obj "doorOpenTrunkFront") || truthy (prop obj "doorOpenTrunkRear")
      trunkFrontOpen := truthy (prop obj "doorOpenTrunkFront")
      trunkRearOpen := truthy (prop obj "doorOpenTrunkRear")
      windowsOpen := truthy (prop obj "windowOpenDriverFront") || truthy (prop obj "windowOpenPassengerFront") ||
        truthy (prop obj "windowOpenDriverRear") || truthy (prop obj "windowOpenPassengerRear")
      updatedAt := now }

def mergeClimateState (status : VehicleStatus) (jsonText : String) (now : Int) : VehicleStatus :=
  match category parse jsonText "climateState" with
  | none => status
  | some obj =>
    { status with
      insideTemp := (prop obj "insideTempCelsius").getD .null
      outsideTemp := (prop obj "outsideTempCelsius").getD .null
      driverTempSetting := (prop obj "driverTempSetting").getD .null
      isClimateOn := truthy (prop obj "isClimateOn")
      updatedAt := now }

def mergeChargeState (status : VehicleStatus) (jsonText : String) (now : Int) : VehicleStatus :=
  match category parse jsonText "chargeState" with
  | none => status
  | some obj =>
    let s := { status with batteryLevel := (prop obj "batteryLevel").getD .null }
    match oneofVariantName (prop obj "chargingState") with
    | none => s
    | some name =>
      { s with
        chargingState := name
        chargePortOpen := truthy (prop obj "chargePortDoorOpen")
        minutesToFullCharge := orElse (prop obj "minutesToFullCharge") (.double 0)
        chargeLimitSoc := (prop obj "chargeLimitSoc").getD .null
        chargeCurrent := ((prop obj "chargeCurrentRequest").or (prop obj "chargingAmps")).getD .null
        updatedAt := now }

end Merge

/-! ## What a reading shows -/

/-- The fields of the closures, of the climate and of the charge; one text fills each group. -/
def VehicleStatus.closures (s : VehicleStatus) : Option Bool × Bool × Bool × Bool × Bool :=
  (s.locked, s.doorsOpen, s.trunkFrontOpen, s.trunkRearOpen, s.windowsOpen)

def VehicleStatus.climate (s : VehicleStatus) : QJsonValue × QJsonValue × QJsonValue × Bool :=
  (s.insideTemp, s.outsideTemp, s.driverTempSetting, s.isClimateOn)

def VehicleStatus.charge (s : VehicleStatus) : QJsonValue × QString × Bool × QJsonValue × QJsonValue × QJsonValue :=
  (s.batteryLevel, s.chargingState, s.chargePortOpen, s.minutesToFullCharge, s.chargeLimitSoc, s.chargeCurrent)

section

variable (parse : String → Option QJsonValue)

/-- The text is one that a reading can be taken from. -/
def readable (name text : String) : Bool := (category parse text name).isSome

def chargeReadable (text : String) : Bool :=
  (category parse text "chargeState").any fun obj => (oneofVariantName (prop obj "chargingState")).isSome

variable {parse} {s : VehicleStatus} {text : String} {now : Int}

/-- A readable text replaces the closures whatever they were, and leaves the other groups alone. -/
theorem mergeClosuresState_shows (h : readable parse "closuresState" text = true) :
    (mergeClosuresState parse s text now).closures = (mergeClosuresState parse emptyStatus text 0).closures := by
  obtain ⟨obj, hobj⟩ := Option.isSome_iff_exists.1 h
  simp only [mergeClosuresState, hobj, VehicleStatus.closures]

theorem mergeClosuresState_unread (h : readable parse "closuresState" text = false) : mergeClosuresState parse s text now = s := by
  have hnone : category parse text "closuresState" = none := by simpa [readable] using h
  simp only [mergeClosuresState, hnone]

theorem mergeClosuresState_frame (s : VehicleStatus) (text : String) (now : Int) :
    (mergeClosuresState parse s text now).climate = s.climate ∧ (mergeClosuresState parse s text now).charge = s.charge := by
  unfold mergeClosuresState
  split <;> exact ⟨rfl, rfl⟩

theorem mergeClimateState_shows (h : readable parse "climateState" text = true) :
    (mergeClimateState parse s text now).climate = (mergeClimateState parse emptyStatus text 0).climate := by
  obtain ⟨obj, hobj⟩ := Option.isSome_iff_exists.1 h
  simp only [mergeClimateState, hobj, VehicleStatus.climate]

theorem mergeClimateState_unread (h : readable parse "climateState" text = false) : mergeClimateState parse s text now = s := by
  have hnone : category parse text "climateState" = none := by simpa [readable] using h
  simp only [mergeClimateState, hnone]

theorem mergeClimateState_frame (s : VehicleStatus) (text : String) (now : Int) :
    (mergeClimateState parse s text now).closures = s.closures ∧ (mergeClimateState parse s text now).charge = s.charge := by
  unfold mergeClimateState
  split <;> exact ⟨rfl, rfl⟩

theorem mergeChargeState_shows (h : chargeReadable parse text = true) :
    (mergeChargeState parse s text now).charge = (mergeChargeState parse emptyStatus text 0).charge := by
  obtain ⟨obj, hobj, hname⟩ := (Option.any_eq_true _ _).1 h
  obtain ⟨name, hname⟩ := Option.isSome_iff_exists.1 hname
  simp only [mergeChargeState, hobj, hname, VehicleStatus.charge]

theorem mergeChargeState_unread (h : readable parse "chargeState" text = false) : mergeChargeState parse s text now = s := by
  have hnone : category parse text "chargeState" = none := by simpa [readable] using h
  simp only [mergeChargeState, hnone]

theorem mergeChargeState_frame (s : VehicleStatus) (text : String) (now : Int) :
    (mergeChargeState parse s text now).closures = s.closures ∧ (mergeChargeState parse s text now).climate = s.climate := by
  unfold mergeChargeState
  split
  · exact ⟨rfl, rfl⟩
  · dsimp only
    split <;> exact ⟨rfl, rfl⟩

theorem mergeBodyControllerState_frame (s : VehicleStatus) (text : String) (now : Int) :
    (mergeBodyControllerState parse s text now).climate = s.climate ∧
      (mergeBodyControllerState parse s text now).charge = s.charge := by
  unfold mergeBodyControllerState
  split
  · exact ⟨rfl, rfl⟩
  · dsimp only
    split
    all_goals
      split
      · exact ⟨rfl, rfl⟩
      · split <;> exact ⟨rfl, rfl⟩

end

/-! ## Rows of the catalog -/

namespace Catalog

def climateOn (s : VehicleStatus) : Bool := s.isClimateOn

def climateOff (s : VehicleStatus) : Bool := !s.isClimateOn

def nearlyCharging (s : VehicleStatus) : Bool :=
  s.chargingState = qs "Charging" || s.chargingState = qs "Starting" || s.chargingState = qs "Calibrating"

def charging (s : VehicleStatus) : Bool := nearlyCharging s

def notCharging (s : VehicleStatus) : Bool := !nearlyCharging s

def portOpen (s : VehicleStatus) : Bool := s.chargePortOpen

def portClosed (s : VehicleStatus) : Bool := !s.chargePortOpen

def lockedState (s : VehicleStatus) : Bool := s.locked ≠ some false

def unlockedState (s : VehicleStatus) : Bool := s.locked = some false

def windowsOpen (s : VehicleStatus) : Bool := s.windowsOpen

def windowsClosed (s : VehicleStatus) : Bool := !s.windowsOpen

def trunkOpen (s : VehicleStatus) : Bool := s.trunkRearOpen

def trunkClosed (s : VehicleStatus) : Bool := !s.trunkRearOpen

/-- The commands that the catalog gives a predicate. -/
def visibleWhen : String → Option (VehicleStatus → Bool)
  | "climate-on" => some climateOff
  | "climate-off" => some climateOn
  | "charging-start" => some notCharging
  | "charging-stop" => some charging
  | "charge-port-open" => some portClosed
  | "charge-port-close" => some portOpen
  | "lock" => some unlockedState
  | "unlock" => some lockedState
  | "trunk-open" => some trunkClosed
  | "trunk-close" => some trunkOpen
  | "windows-vent" => some windowsClosed
  | "windows-close" => some windowsOpen
  | _ => none

def commandVisible (status : Option VehicleStatus) (cmd : String) : Bool :=
  match status, visibleWhen cmd with
  | some s, some visible => visible s
  | _, _ => true

def togglePairs : List (String × String) :=
  [("climate-on", "climate-off"), ("charging-start", "charging-stop"), ("charge-port-open", "charge-port-close"), ("lock", "unlock"),
    ("trunk-open", "trunk-close"), ("windows-vent", "windows-close")]

/-- Of two opposite commands one is listed and the other is not. -/
theorem one_listed (s : VehicleStatus) :
    ∀ p ∈ togglePairs, commandVisible (some s) p.1 = !commandVisible (some s) p.2 := by
  intro p hp
  simp only [togglePairs, List.mem_cons, List.not_mem_nil, or_false] at hp
  rcases hp with rfl | rfl | rfl | rfl | rfl | rfl
  · simp [commandVisible, visibleWhen, climateOn, climateOff]
  · simp [commandVisible, visibleWhen, charging, notCharging]
  · simp [commandVisible, visibleWhen, portOpen, portClosed]
  · simp [commandVisible, visibleWhen, lockedState, unlockedState]
  · simp [commandVisible, visibleWhen, trunkOpen, trunkClosed]
  · simp [commandVisible, visibleWhen, windowsOpen, windowsClosed]

end Catalog

end ElectricEel.App
