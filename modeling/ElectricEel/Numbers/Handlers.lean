/-
  ElectricEel.Numbers.Handlers — the numbers a command hands to the vehicle
  (commands_vendor.go: `execute`, the handlers of the commands with bounds, `GetDegree`,
  `GetDays`, `MinutesAfterMidnight`; pkg/vehicle: `ScheduleCharging`, `SetVolume`,
  `ScheduleSoftwareUpdate`).
-/
import ElectricEel.Arguments
import ElectricEel.Commands
import ElectricEel.Numbers.GoText

namespace ElectricEel.Numbers

open Arguments Config Commands

/-! ## The vehicle's actions -/

structure ChargeSchedule where
  id : Nat
  enabled : Bool
  daysOfWeek : Nat
  startTime : Int
  startEnabled : Bool
  endTime : Int
  endEnabled : Bool
  latitude : F32
  longitude : F32
  oneTime : Bool
  deriving DecidableEq, Repr

structure PreconditionSchedule where
  id : Nat
  enabled : Bool
  daysOfWeek : Nat
  preconditionTime : Int
  latitude : F32
  longitude : F32
  oneTime : Bool
  deriving DecidableEq, Repr

/-- An action with the numbers it is sent with. -/
inductive Action where
  | chargingSetLimit (percent : Int)
  | setChargingAmps (chargingAmps : Int)
  | scheduledCharging (enabled : Bool) (chargingTime : Int)
  | mediaUpdateVolume (volumeAbsoluteFloat : F32)
  | hvacTemperatureAdjustment (driverTempCelsius passengerTempCelsius : F32)
  | vehicleControlScheduleSoftwareUpdate (offsetSec : Int)
  | addChargeSchedule (schedule : ChargeSchedule)
  | addPreconditionSchedule (schedule : PreconditionSchedule)
  deriving DecidableEq, Repr

def minute : Int := 60 * second

def scheduleCharging (enabled : Bool) (timeAfterMidnight : Int) : Action :=
  .scheduledCharging enabled (int32 (timeAfterMidnight.tdiv minute))

/-- Between 0 and 10, or an error; a NaN is neither below nor above. -/
def setVolume (volume : F32) : Option Action :=
  match volume with
  | .fin n => if n < 0 ∨ 10 * 2 ^ 149 < n then none else some (.mediaUpdateVolume volume)
  | .inf _ => none
  | .nan => some (.mediaUpdateVolume volume)

def scheduleSoftwareUpdate (delay : Int) : Action := .vehicleControlScheduleSoftwareUpdate (int32 (delay.tdiv second))

/-! ## Arguments -/

variable (intSize : Nat)

def getDegree (degStr : List Char) : Option F32 :=
  match parseFloat degStr with
  | some (.fin n) => if n < -180 * 2 ^ 149 ∨ 180 * 2 ^ 149 < n then none else some (.fin n)
  | some .nan => some .nan
  | _ => none

/-- `unicode.ToUpper`, as far as it has ASCII letters to answer. -/
def toUpper (c : Char) : Char := if c = 'ı' then 'I' else if c = 'ſ' then 'S' else c.toUpper

def dayNamesBitMask (name : List Char) : Option Nat :=
  ([("SUN", 1), ("SUNDAY", 1), ("MON", 2), ("MONDAY", 2), ("TUES", 4), ("TUESDAY", 4), ("WED", 8), ("WEDNESDAY", 8),
    ("THURS", 16), ("THURSDAY", 16), ("FRI", 32), ("FRIDAY", 32), ("SAT", 64), ("SATURDAY", 64), ("ALL", 127),
    ("WEEKDAYS", 62)].find? fun e => e.1.toList = name).map Prod.snd

def addDay (mask : Nat) (d : List Char) : Option Nat := (dayNamesBitMask (trimChars (d.map toUpper))).map (mask ||| ·)

def getDays (days : List Char) : Option Nat := (days.splitOn ',').foldlM addDay 0

def minutesAfterMidnight (hoursAndMinutes : List Char) : Option Int :=
  match hoursAndMinutes.splitOn ':' with
  | [h, m] =>
    match atoi intSize h, atoi intSize m with
    | some hours, some minutes =>
      if 23 < hours ∨ hours < 0 ∨ 59 < minutes ∨ minutes < 0 then none else some (int32 (60 * hours + minutes))
    | _, _ => none
  | _ => none

/-- A side of a time interval: left out, or a time. -/
def intervalTime (s : List Char) : Option (Bool × Int) :=
  if s = [] then some (false, 0) else (minutesAfterMidnight intSize s).map fun m => (true, m)

/-- `strconv.ParseUint(s, 10, 64)`. -/
def parseUint (s : List Char) : Option Nat :=
  if s ≠ [] ∧ s.all Char.isDigit ∧ Share.F64.digitsValue s < 2 ^ 64 then some (Share.F64.digitsValue s) else none

/-- `args[name]`. -/
def argument (args : Keywords) (name : String) : List Char := ((args name).getD "").toList

/-! ## Handlers -/

abbrev Handler := Keywords → Option Action

def handleSetLimit : Handler := fun args => (atoi intSize (argument args "PERCENT")).map fun limit => .chargingSetLimit (int32 limit)

def handleSetAmps : Handler := fun args => (atoi intSize (argument args "AMPS")).map fun limit => .setChargingAmps (int32 limit)

def handleSchedule : Handler := fun args =>
  (atoi intSize (argument args "MINS")).map fun minutes => scheduleCharging true (int64 (minutes * minute))

def handleVolume : Handler := fun args => (parseFloat (argument args "VOLUME")).bind setVolume

def handleTemp : Handler := fun args =>
  match sscanf intSize (argument args "TEMP") with
  | none => none
  | some (degrees, unit) =>
    if unit = ['F'] ∨ unit = ['f'] then
      let degrees := ((degrees.sub 32).mul 5).div 9
      some (.hvacTemperatureAdjustment degrees degrees)
    else if unit = ['C'] ∨ unit = ['c'] then some (.hvacTemperatureAdjustment degrees degrees)
    else none

def handleUpdate : Handler := fun args => (parseDuration (argument args "DELAY")).map scheduleSoftwareUpdate

def handleChargeSchedule (now : Nat) : Handler := fun args => do
  let days ← getDays (argument args "DAYS")
  match (argument args "TIME").splitOn '-' with
  | [a, b] =>
    let (startEnabled, startTime) ← intervalTime intSize a
    let (endEnabled, endTime) ← intervalTime intSize b
    let latitude ← getDegree (argument args "LATITUDE")
    let longitude ← getDegree (argument args "LONGITUDE")
    some (.addChargeSchedule
      { id := now, enabled := (args "ENABLED").elim true (· == "true"), daysOfWeek := days, startTime, startEnabled, endTime,
        endEnabled, latitude, longitude, oneTime := args "REPEAT" == some "once" })
  | _ => none

def handlePreconditionSchedule (now : Nat) : Handler := fun args => do
  let id ← (args "ID").elim (some now) fun id => parseUint id.toList
  let days ← getDays (argument args "DAYS")
  let preconditionTime ← (args "TIME").bind fun t => minutesAfterMidnight intSize t.toList
  let latitude ← getDegree (argument args "LATITUDE")
  let longitude ← getDegree (argument args "LONGITUDE")
  some (.addPreconditionSchedule
    { id, enabled := (args "ENABLED").elim true (· == "true"), daysOfWeek := days, preconditionTime, latitude, longitude,
      oneTime := args "REPEAT" == some "once" })

/-! ## execute -/

def oneArgument (name : String) : Shape := { args := [name], optional := [], nodup := by simp }

theorem scheduleNames_nodup : (["DAYS", "TIME", "LATITUDE", "LONGITUDE"] ++ ["REPEAT", "ID", "ENABLED"]).Nodup := by decide

def chargingScheduleAdd : Shape where
  args := ["DAYS", "TIME", "LATITUDE", "LONGITUDE"]
  optional := ["REPEAT", "ID", "ENABLED"]
  nodup := scheduleNames_nodup

/-- The commands with bounds: their arguments and their handlers. -/
def boundedCommand (now : Nat) : Vendor → Option (Shape × Handler)
  | .chargingSetLimit => some (oneArgument "PERCENT", handleSetLimit intSize)
  | .chargingSetAmps => some (oneArgument "AMPS", handleSetAmps intSize)
  | .chargingSchedule => some (oneArgument "MINS", handleSchedule intSize)
  | .mediaSetVolume => some (oneArgument "VOLUME", handleVolume)
  | .climateSetTemp => some (oneArgument "TEMP", handleTemp intSize)
  | .softwareUpdateStart => some (oneArgument "DELAY", handleUpdate)
  | .chargingScheduleAdd => some (chargingScheduleAdd, handleChargeSchedule intSize now)
  | .preconditionScheduleAdd => some (preconditionScheduleAdd, handlePreconditionSchedule intSize now)
  | _ => none

/-- `execute`, for these; `now` is the time in seconds. -/
def execute (now : Nat) (cmd : Vendor) (args : List String) : Option Action :=
  (boundedCommand intSize now cmd).bind fun c => if arityOk c.1 args then c.2 (keywordArguments c.1 args) else none

example : execute 64 0 .climateSetTemp ["77F"] =
    some (.hvacTemperatureAdjustment (.fin (25 * 2 ^ 149)) (.fin (25 * 2 ^ 149))) := by decide +kernel

end ElectricEel.Numbers
