/-
  ElectricEel.Numbers.Validate — the parent's bounds on a command's numbers
  (helper/src/core.rs: `validate_arg_ranges`).

  The function is one of the `Checks` that `run` makes before anything reaches the session
  (`run_validated`).
-/
import ElectricEel.Core.Core
import ElectricEel.Numbers.GoText

namespace ElectricEel.Numbers

open Config Commands Control Share

/-! ## Reading -/

/-- `str::parse::<i64>`. -/
def parseI64 (s : List Char) : Option Int := (parseSigned s).filter (fitsInt 64)

def parseIntArg (arg : List Char) : Option Int := parseI64 (trimChars arg)

def parseFloatArg (arg : List Char) : Option F64 := (F64.parse (trimChars arg)).filter F64.isFinite

/-- Strip an optional single-letter unit suffix. -/
def stripUnit (arg : List Char) : List Char × Option Char :=
  let t := trimChars arg
  match t.getLast? with
  | some c => if c.isAlpha then (t.dropLast, some c) else (t, none)
  | none => (t, none)

/-- `(lo..=hi).contains(&value)`. -/
def floatIn (lo hi : Int) : F64 → Bool
  | .fin n => decide (lo * 2 ^ 1074 ≤ n ∧ n ≤ hi * 2 ^ 1074)
  | _ => false

/-! ## Errors -/

def invalid (cmd : Cmd) (arg : String) : HelperError :=
  .invalidArgument (cmd.name ++ " argument out of range or invalid: " ++ arg)

def requiresNumeric (cmd : Cmd) : HelperError := .invalidArgument (cmd.name ++ " requires a numeric argument")

def mustBeInteger (cmd : Cmd) (arg : String) : HelperError :=
  .invalidArgument (cmd.name ++ " argument must be an integer: " ++ arg)

def outOfRange (cmd : Cmd) (value lo hi : Int) : HelperError :=
  .invalidArgument (cmd.name ++ " argument " ++ toString value ++ " out of range [" ++ toString lo ++ ", " ++ toString hi ++ "]")

/-! ## Bounds -/

/-- charging-set-limit, charging-set-amps. -/
def validateInteger (lo hi : Int) (cmd : Cmd) (args : List String) : Except HelperError Unit :=
  match args.head? with
  | none => .error (requiresNumeric cmd)
  | some arg =>
    match parseIntArg arg.toList with
    | none => .error (mustBeInteger cmd arg)
    | some value => if lo ≤ value ∧ value ≤ hi then .ok () else .error (outOfRange cmd value lo hi)

def validateMinutes (cmd : Cmd) (args : List String) : Except HelperError Unit :=
  match args.head? with
  | none => .error (requiresNumeric cmd)
  | some arg =>
    match parseIntArg arg.toList with
    | none => .error (invalid cmd arg)
    | some value => if 0 ≤ value ∧ value ≤ 1439 then .ok () else .error (invalid cmd arg)

def validateVolume (cmd : Cmd) (args : List String) : Except HelperError Unit :=
  match args.head? with
  | none => .error (requiresNumeric cmd)
  | some arg =>
    match parseFloatArg arg.toList with
    | none => .error (invalid cmd arg)
    | some value => if floatIn 0 10 value then .ok () else .error (invalid cmd arg)

def validateTemp (cmd : Cmd) (args : List String) : Except HelperError Unit :=
  match args.head? with
  | none => .error (requiresNumeric cmd)
  | some arg =>
    let r := stripUnit arg.toList
    match parseFloatArg r.1 with
    | none => .error (invalid cmd arg)
    | some value =>
      -- QML only sends Celsius, but upstream also accepts Fahrenheit.
      let fahrenheit := r.2.map Char.toUpper = some 'F'
      if if fahrenheit then floatIn 59 82 value else floatIn 15 28 value then .ok () else .error (invalid cmd arg)

def validateDelay (cmd : Cmd) (args : List String) : Except HelperError Unit :=
  match args.head? with
  | none => .error (requiresNumeric cmd)
  | some arg =>
    if (trimChars arg.toList).head? = some '-' then .error (invalid cmd arg)
    else
      let r := stripUnit arg.toList
      if r.2.map Char.toLower = some 's' ∨ r.2 = none then
        -- Seconds form QML sends ("600s").
        match parseIntArg (if r.2.isSome then r.1 else arg.toList) with
        | none => .error (invalid cmd arg)
        | some value => if 0 ≤ value ∧ value ≤ 3600 then .ok () else .error (invalid cmd arg)
      else
        -- Go durations ("10m", "2h"): let upstream parse them.
        .ok ()

/-- A coordinate, if it is there. -/
def validateDegree (cmd : Cmd) (bound : Int) : Option String → Except HelperError Unit
  | none => .ok ()
  | some arg =>
    match parseFloatArg arg.toList with
    | none => .error (invalid cmd arg)
    | some value => if floatIn (-bound) bound value then .ok () else .error (invalid cmd arg)

/-- DAYS, TIME, LATITUDE, LONGITUDE. -/
def validateSchedule (cmd : Cmd) (args : List String) : Except HelperError Unit :=
  match validateDegree cmd 90 args[2]? with
  | .error e => .error e
  | .ok () => validateDegree cmd 180 args[3]?

def validateArgRanges (cmd : Cmd) (args : List String) : Except HelperError Unit :=
  match cmd with
  | .vendor .chargingSetLimit => validateInteger 50 100 cmd args
  | .vendor .chargingSetAmps => validateInteger 1 48 cmd args
  | .vendor .chargingSchedule => validateMinutes cmd args
  | .vendor .mediaSetVolume => validateVolume cmd args
  | .vendor .climateSetTemp => validateTemp cmd args
  | .vendor .softwareUpdateStart => validateDelay cmd args
  | .vendor .chargingScheduleAdd | .vendor .preconditionScheduleAdd => validateSchedule cmd args
  | _ => .ok ()

example : validateArgRanges (.vendor .chargingSetLimit) ["101"] =
    .error (.invalidArgument "charging-set-limit argument 101 out of range [50, 100]") := by decide +kernel

/-- The checks of `run`, with any share parser and any JSON reader. -/
def checks (parseSharedText : String → Except String Control.Destination) (builds : Lib.Json → Bool) : Checks :=
  { validateArgRanges, parseSharedText, builds }

/-- A run that changes anything, or answers with an outcome, is of validated arguments. -/
theorem run_validated {parse : String → Except String Control.Destination} {builds : Lib.Json → Bool} {c : Core} {cmd : Cmd}
    {args : List String} {e : SectionEnv}
    (h : (c.run (checks parse builds) cmd args e).1 ≠ c ∨ ∃ out, (c.run (checks parse builds) cmd args e).2 = .ok out) :
    validateArgRanges cmd args = .ok () := by
  cases hv : validateArgRanges cmd args with
  | ok => rfl
  | error err =>
    have hchecks : (checks parse builds).validateArgRanges cmd args = .error err := hv
    have hrun : ∃ err, c.run (checks parse builds) cmd args e = (c, .error err) := by
      unfold Core.run
      rw [hchecks]
      split
      · exact ⟨_, rfl⟩
      · exact ⟨_, rfl⟩
    obtain ⟨err, hrun⟩ := hrun
    rw [hrun] at h
    obtain hne | ⟨out, hout⟩ := h
    · exact absurd rfl hne
    · cases hout

end ElectricEel.Numbers
