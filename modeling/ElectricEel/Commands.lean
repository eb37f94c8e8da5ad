/-
  ElectricEel.Commands — the command names and what the two sides know about them
  (helper/src/commands.rs, `commands` in helper/session/commands_vendor.go).

  `Vendor` is the set of names in the child's command table. The parent's
  COMMAND_CATALOG is that table without `get` and `post`; the other names the child's
  dispatcher answers (`pair`, `keygen`, `presence-start`, `presence-stop`, `navigate`)
  are in neither list, so `Core::run` never sends them.

  `sends` is read off the vehicle package: the domain to which the command's
  authenticated message goes, none when it sends no authenticated message.

  Proved: the parent's catalog is exactly the names it may pass on (`isKnownCommand_iff`);
  a command that names its domain in the table sends to no other (`sends_of_domain`).
-/
import Mathlib.Data.List.Basic

namespace ElectricEel.Commands

inductive Vendor where
  | valetModeOn | valetModeOff | unlock | lock | drive
  | climateOn | climateOff | climateSetTemp
  | addKey | addKeyRequest | removeKey | renameKey
  | get | post
  | listKeys | honk | ping | flashLights | keepAccessoryPower | lowPowerMode
  | chargingSetLimit | chargingSetAmps | chargingStart | chargingStop
  | chargingSchedule | chargingScheduleCancel | chargingScheduleAdd | chargingScheduleRemove
  | mediaSetVolume | mediaVolumeUp | mediaVolumeDown | mediaNextFavorite | mediaNextTrack
  | mediaPreviousTrack | mediaPreviousFavorite | mediaTogglePlayback
  | softwareUpdateStart | softwareUpdateCancel | sentryMode | wake
  | tonneauOpen | tonneauClose | tonneauStop | trunkOpen | trunkMove | trunkClose | frunkOpen
  | chargePortOpen | chargePortClose | autosecureModelx | sessionInfo
  | seatHeater | steeringWheelHeater | autoSeatAndClimate | windowsVent | windowsClose
  | bodyControllerState | guestModeOn | guestModeOff | eraseGuestData
  | preconditionScheduleAdd | preconditionScheduleRemove | productInfo | state
  deriving DecidableEq, Repr

/-- A command as it stands in a request. -/
inductive Cmd where
  | pair
  | keygen
  | presenceStart
  | presenceStop
  | navigate
  | vendor (v : Vendor)
  /-- A name neither side knows. -/
  | other (name : String)
  deriving DecidableEq, Repr

def Vendor.name : Vendor → String
  | .valetModeOn => "valet-mode-on"
  | .valetModeOff => "valet-mode-off"
  | .unlock => "unlock"
  | .lock => "lock"
  | .drive => "drive"
  | .climateOn => "climate-on"
  | .climateOff => "climate-off"
  | .climateSetTemp => "climate-set-temp"
  | .addKey => "add-key"
  | .addKeyRequest => "add-key-request"
  | .removeKey => "remove-key"
  | .renameKey => "rename-key"
  | .get => "get"
  | .post => "post"
  | .listKeys => "list-keys"
  | .honk => "honk"
  | .ping => "ping"
  | .flashLights => "flash-lights"
  | .keepAccessoryPower => "keep-accessory-power"
  | .lowPowerMode => "low-power-mode"
  | .chargingSetLimit => "charging-set-limit"
  | .chargingSetAmps => "charging-set-amps"
  | .chargingStart => "charging-start"
  | .chargingStop => "charging-stop"
  | .chargingSchedule => "charging-schedule"
  | .chargingScheduleCancel => "charging-schedule-cancel"
  | .chargingScheduleAdd => "charging-schedule-add"
  | .chargingScheduleRemove => "charging-schedule-remove"
  | .mediaSetVolume => "media-set-volume"
  | .mediaVolumeUp => "media-volume-up"
  | .mediaVolumeDown => "media-volume-down"
  | .mediaNextFavorite => "media-next-favorite"
  | .mediaNextTrack => "media-next-track"
  | .mediaPreviousTrack => "media-previous-track"
  | .mediaPreviousFavorite => "media-previous-favorite"
  | .mediaTogglePlayback => "media-toggle-playback"
  | .softwareUpdateStart => "software-update-start"
  | .softwareUpdateCancel => "software-update-cancel"
  | .sentryMode => "sentry-mode"
  | .wake => "wake"
  | .tonneauOpen => "tonneau-open"
  | .tonneauClose => "tonneau-close"
  | .tonneauStop => "tonneau-stop"
  | .trunkOpen => "trunk-open"
  | .trunkMove => "trunk-move"
  | .trunkClose => "trunk-close"
  | .frunkOpen => "frunk-open"
  | .chargePortOpen => "charge-port-open"
  | .chargePortClose => "charge-port-close"
  | .autosecureModelx => "autosecure-modelx"
  | .sessionInfo => "session-info"
  | .seatHeater => "seat-heater"
  | .steeringWheelHeater => "steering-wheel-heater"
  | .autoSeatAndClimate => "auto-seat-and-climate"
  | .windowsVent => "windows-vent"
  | .windowsClose => "windows-close"
  | .bodyControllerState => "body-controller-state"
  | .guestModeOn => "guest-mode-on"
  | .guestModeOff => "guest-mode-off"
  | .eraseGuestData => "erase-guest-data"
  | .preconditionScheduleAdd => "precondition-schedule-add"
  | .preconditionScheduleRemove => "precondition-schedule-remove"
  | .productInfo => "product-info"
  | .state => "state"

def Cmd.name : Cmd → String
  | .pair => "pair"
  | .keygen => "keygen"
  | .presenceStart => "presence-start"
  | .presenceStop => "presence-stop"
  | .navigate => "navigate"
  | .vendor v => v.name
  | .other name => name

/-! ## The parent's catalog -/

open Vendor in
def commandCatalog : List Vendor :=
  [valetModeOn, valetModeOff, unlock, lock, drive, climateOn, climateOff, climateSetTemp,
   addKey, addKeyRequest, removeKey, renameKey, listKeys, honk, ping, flashLights,
   keepAccessoryPower, lowPowerMode, chargingSetLimit, chargingSetAmps, chargingStart,
   chargingStop, chargingSchedule, chargingScheduleCancel, chargingScheduleAdd,
   chargingScheduleRemove, mediaSetVolume, mediaVolumeUp, mediaVolumeDown, mediaNextFavorite,
   mediaNextTrack, mediaPreviousTrack, mediaPreviousFavorite, mediaTogglePlayback,
   softwareUpdateStart, softwareUpdateCancel, sentryMode, wake, tonneauOpen, tonneauClose,
   tonneauStop, trunkOpen, trunkMove, trunkClose, frunkOpen, chargePortOpen, chargePortClose,
   autosecureModelx, sessionInfo, seatHeater, steeringWheelHeater, autoSeatAndClimate,
   windowsVent, windowsClose, bodyControllerState, guestModeOn, guestModeOff, eraseGuestData,
   preconditionScheduleAdd, preconditionScheduleRemove, productInfo, state]

def isKnownCommand : Cmd → Bool
  | .vendor v => commandCatalog.contains v
  | _ => false

theorem isKnownCommand_iff {c : Cmd} : isKnownCommand c = true ↔ ∃ v, c = .vendor v ∧ v ≠ .get ∧ v ≠ .post := by
  cases c with
  | vendor v => cases v <;> simp [isKnownCommand, commandCatalog]
  | _ => simp [isKnownCommand]

/-! ## The child's command table -/

inductive Domain where
  | vcsec
  | infotainment
  deriving DecidableEq, Repr

/-- `Command` without its help texts and handler; `args` and `optional` are counts. -/
structure Command where
  requiresAuth : Bool
  requiresFleetAPI : Bool := false
  args : Nat := 0
  optional : Nat := 0
  domain : Option Domain := none
  deriving DecidableEq, Repr

def commands : Vendor → Command
  | .valetModeOn => { requiresAuth := true, args := 1 }
  | .valetModeOff => { requiresAuth := true }
  | .unlock => { requiresAuth := true }
  | .lock => { requiresAuth := true }
  | .drive => { requiresAuth := true }
  | .climateOn => { requiresAuth := true }
  | .climateOff => { requiresAuth := true }
  | .climateSetTemp => { requiresAuth := true, args := 1 }
  | .addKey => { requiresAuth := true, args := 3 }
  | .addKeyRequest => { requiresAuth := false, args := 3 }
  | .removeKey => { requiresAuth := true, args := 1 }
  | .renameKey => { requiresAuth := false, requiresFleetAPI := true, args := 2 }
  | .get => { requiresAuth := false, requiresFleetAPI := true, args := 1 }
  | .post => { requiresAuth := false, requiresFleetAPI := true, args := 1, optional := 1 }
  | .listKeys => { requiresAuth := false }
  | .honk => { requiresAuth := true }
  | .ping => { requiresAuth := true }
  | .flashLights => { requiresAuth := true }
  | .keepAccessoryPower => { requiresAuth := true, args := 1 }
  | .lowPowerMode => { requiresAuth := true, args := 1 }
  | .chargingSetLimit => { requiresAuth := true, args := 1 }
  | .chargingSetAmps => { requiresAuth := true, args := 1 }
  | .chargingStart => { requiresAuth := true }
  | .chargingStop => { requiresAuth := true }
  | .chargingSchedule => { requiresAuth := true, args := 1 }
  | .chargingScheduleCancel => { requiresAuth := true }
  | .chargingScheduleAdd => { requiresAuth := true, args := 4, optional := 3 }
  | .chargingScheduleRemove => { requiresAuth := true, args := 1, optional := 1 }
  | .mediaSetVolume => { requiresAuth := true, args := 1 }
  | .mediaVolumeUp => { requiresAuth := true }
  | .mediaVolumeDown => { requiresAuth := true }
  | .mediaNextFavorite => { requiresAuth := true }
  | .mediaNextTrack => { requiresAuth := true }
  | .mediaPreviousTrack => { requiresAuth := true }
  | .mediaPreviousFavorite => { requiresAuth := true }
  | .mediaTogglePlayback => { requiresAuth := true }
  | .softwareUpdateStart => { requiresAuth := true, args := 1 }
  | .softwareUpdateCancel => { requiresAuth := true }
  | .sentryMode => { requiresAuth := true, args := 1 }
  | .wake => { requiresAuth := false }
  | .tonneauOpen => { requiresAuth := true }
  | .tonneauClose => { requiresAuth := true }
  | .tonneauStop => { requiresAuth := true }
  | .trunkOpen => { requiresAuth := true }
  | .trunkMove => { requiresAuth := true }
  | .trunkClose => { requiresAuth := true }
  | .frunkOpen => { requiresAuth := true }
  | .chargePortOpen => { requiresAuth := true }
  | .chargePortClose => { requiresAuth := true }
  | .autosecureModelx => { requiresAuth := true }
  | .sessionInfo => { requiresAuth := false, args := 2 }
  | .seatHeater => { requiresAuth := true, args := 2 }
  | .steeringWheelHeater => { requiresAuth := true, args := 1 }
  | .autoSeatAndClimate => { requiresAuth := true, args := 1, optional := 1 }
  | .windowsVent => { requiresAuth := true }
  | .windowsClose => { requiresAuth := true }
  | .bodyControllerState => { requiresAuth := false, domain := some .vcsec }
  | .guestModeOn => { requiresAuth := true }
  | .guestModeOff => { requiresAuth := true }
  | .eraseGuestData => { requiresAuth := true }
  | .preconditionScheduleAdd => { requiresAuth := true, args := 4, optional := 3 }
  | .preconditionScheduleRemove => { requiresAuth := true, args := 1, optional := 1 }
  | .productInfo => { requiresAuth := false, requiresFleetAPI := true }
  | .state => { requiresAuth := true, args := 1 }

/-! ## Where the message goes -/

/-- The domain whose session signs the command's message (pkg/vehicle): RKE, closures and
    whitelist changes go to VCSEC, car-server actions and state to infotainment. -/
def Vendor.sends : Vendor → Option Domain
  | .unlock | .lock | .drive | .wake | .autosecureModelx => some .vcsec
  | .trunkOpen | .trunkMove | .trunkClose | .frunkOpen | .tonneauOpen | .tonneauClose | .tonneauStop => some .vcsec
  | .addKey | .removeKey => some .vcsec
  | .addKeyRequest | .renameKey | .get | .post | .productInfo | .listKeys | .sessionInfo | .bodyControllerState => none
  | _ => some .infotainment

def Cmd.sends : Cmd → Option Domain
  | .vendor v => v.sends
  | .navigate => some .infotainment
  | _ => none

theorem sends_of_domain {v : Vendor} {d : Domain} (h : (commands v).domain = some d) : v.sends = none ∨ v.sends = some d := by
  cases v <;> simp_all [commands, Vendor.sends]

end ElectricEel.Commands
