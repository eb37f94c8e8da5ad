/-
  ElectricEel.Bluez.Connect — connecting to the vehicle (bluez/gatt.go `connect`,
  `tryConnect` and what they call; bluez.go `IsAdapterError`).

  The caller stands at a `Pc` until the bus answers the call it is in, or one case of the
  select it is in is ready; the context may expire wherever it is looked at. An answer that
  does not fit where it stands changes nothing. `scan` is one call here: it leaves no rule
  behind and connects nothing. So are the property reads that only a diagnostic sees left
  out. A `Discovering` read is kept in the log as it was answered.
-/
import Mathlib.Data.List.Infix
import ElectricEel.Lib.Runs
import ElectricEel.Bluez.Connection

namespace ElectricEel.Bluez.Connect

open Lib

abbrev Err := String

/-! ## The object tree -/

/-- The interfaces of an object that are looked at; a property is none where it does not decode. -/
structure Object where
  /-- Adapter1 and its Powered. -/
  adapter : Option (Option Bool) := none
  /-- GattService1 and its UUID. -/
  service : Option (Option String) := none
  /-- GattCharacteristic1 and its UUID. -/
  characteristic : Option (Option String) := none
  deriving DecidableEq, Repr

/-- In the order of the range loop. -/
abbrev Objects := List (Path × Object)

def adapterPoweredIn (o : Object) : Bool := o.adapter == some (some true)

/-- The first in path order. -/
def least : List Path → Option Path
  | [] => none
  | p :: rest =>
    match least rest with
    | some q => if q.toList < p.toList then some q else some p
    | none => some p

def orgBluez : List Char := "/org/bluez/".toList

/-- `strings.TrimPrefix(path, "/org/bluez/")`. -/
def base (path : Path) : List Char := if orgBluez.isPrefixOf path.toList then path.toList.drop orgBluez.length else path.toList

def findAdapter (adapterID : String) (objects : Objects) : Except Err Path :=
  let adapters := objects.filter (·.2.adapter.isSome)
  let found :=
    if adapterID ≠ "" then (adapters.find? (base ·.1 = adapterID.toList)).map (·.1)
    else (least ((adapters.filter (adapterPoweredIn ·.2)).map (·.1))).or (least ((adapters.filter (!adapterPoweredIn ·.2)).map (·.1)))
  match found with
  | some path => .ok path
  | none => .error ("bluez: no Bluetooth adapter found (wanted \"" ++ adapterID ++ "\")")

def findDevice (adapterPath target : Path) (objects : Objects) : Except Err Path :=
  if isDevice adapterPath target ∧ (objects.any (·.1 == target)) = true then .ok target
  else .error ("bluez: device " ++ target ++ " not found after scan")

def vehicleServiceUUID : String := "00000211b2d143f09b88960cebf8b91e"
def toVehicleUUID : String := "00000212b2d143f09b88960cebf8b91e"
def fromVehicleUUID : String := "00000213b2d143f09b88960cebf8b91e"

def isUUID (uuid : Option String) (want : String) : Bool :=
  match uuid with
  | some s => (s.toList.map Char.toLower).filter (· ≠ '-') == want.toList
  | none => false

/-- The service, TX and RX paths so far; a later match replaces an earlier one. -/
def visit (found : Option Path × Option Path × Option Path) (o : Path × Object) : Option Path × Option Path × Option Path :=
  let (svc, tx, rx) := found
  if o.2.service.any (isUUID · vehicleServiceUUID) then (some o.1, tx, rx)
  else if o.2.characteristic.any (isUUID · toVehicleUUID) then (svc, some o.1, rx)
  else if o.2.characteristic.any (isUUID · fromVehicleUUID) then (svc, tx, some o.1)
  else found

def discoverGATT (devPath : Path) (objects : Objects) : Except Err Gatt :=
  match objects.foldl visit (none, none, none) with
  | (some svcPath, some txPath, some rxPath) => .ok { devPath, svcPath, txPath, rxPath }
  | (some _, tx, rx) => .error ("bluez: vehicle characteristics not found (tx=" ++ tx.getD "" ++ " rx=" ++ rx.getD "" ++ ")")
  | (none, _, _) => .error "bluez: vehicle service not found"

/-- A permanent failure, by its text. -/
def isAdapterError (err : Err) : Bool :=
  ["operation not permitted", "org.bluez.Error.NotReady", "org.bluez.Error.NotPowered", "org.freedesktop.DBus.Error.ServiceUnknown",
    "no Bluetooth adapter found"].any fun s => decide (s.toList <:+: err.toList)

/-! ## tryConnect and connect -/

inductive Reply where
  /-- The call fails; in a select, the context's error. -/
  | failed (err : Err)
  /-- The call succeeds; in a select, the timer. -/
  | ok
  /-- `scan`'s result. -/
  | found (path : Path)
  | objects (objects : Objects)
  | value (b : Bool)
  | mtu (n : Nat)
  /-- A value of another type. -/
  | mistyped (type : String)
  /-- Not one value. -/
  | malformed
  deriving DecidableEq, Repr

/-- GetManagedObjects' answer; none: it does not fit. -/
def managedObjects : Reply → Option (Except Err Objects)
  | .failed err => some (.error ("bluez: enumerate objects: " ++ err))
  | .mistyped type => some (.error ("bluez: unexpected GetManagedObjects reply type " ++ type))
  | .malformed => some (.error "bluez: unexpected GetManagedObjects reply")
  | .objects objects => some (.ok objects)
  | _ => none

/-- Where the caller stands. -/
inductive Pc where
  | scan
  | findAdapter (target : Path)
  | findDevice (target adapterPath : Path)
  | stopDiscovery (adapterPath devPath : Path)
  /-- waitDiscoveryStopped reads Discovering. -/
  | discovering (adapterPath devPath : Path)
  | discoveringSelect (adapterPath devPath : Path)
  /-- Connected, of an old link. -/
  | oldLink (devPath : Path)
  | abortOld (devPath : Path)
  /-- waitDeviceDisconnected reads Connected. -/
  | disconnected (devPath : Path)
  | disconnectedSelect (devPath : Path)
  /-- The select of 150 ms. -/
  | settle (devPath : Path)
  | connectDevice (devPath : Path)
  /-- waitServicesResolved reads ServicesResolved. -/
  | resolved (devPath : Path)
  | resolvedSelect (devPath : Path)
  | discoverGATT (devPath : Path)
  | addMatch (gatt : Gatt)
  | addDeviceMatch (gatt : Gatt)
  | startNotify (gatt : Gatt)
  | removeMatch (gatt : Gatt) (err : Err)
  | removeDeviceMatch (gatt : Gatt) (err : Err)
  /-- abortDeviceConnect, and then `err` is returned. -/
  | abort (err : Err)
  | mtu (gatt : Gatt)
  /-- tryConnect has returned an error. -/
  | failed (err : Err) (retry : Bool)
  /-- connect's select. -/
  | pause (err : Err)
  /-- connect has returned it. -/
  | returned (err : Err)
  /-- connect has returned the connection. -/
  | ready (c : Connection)
  deriving DecidableEq, Repr

/-- `backoff` in milliseconds; `queue` and `hungUp` are of the attempt's signal channel,
    which is named by the attempt, `subscribed` while the bus has it. -/
structure State where
  adapterID : String
  target : Option Path
  bus : Bus
  attempts : Nat
  backoff : Nat
  pc : Pc
  subscribed : Bool := false
  queue : List Notice := []
  hungUp : Bool := false
  deriving DecidableEq, Repr

inductive Event where
  /-- The call or select that tryConnect, connect or Close is in. -/
  | reply (r : Reply)
  /-- The bus has a signal for the channel. -/
  | signal (sig : Notice)
  /-- The bus closes the channel. -/
  | hangUp
  /-- rxLoop. -/
  | take (now : Nat)
  | flush
  | quit
  /-- Close is called. -/
  | close
  | join
  /-- The inbox's consumer. -/
  | receive
  deriving DecidableEq, Repr

def maxExpectedMTU : Nat := 515
def connectRetryInitial : Nat := 500
def connectRetryMax : Nat := 3000

namespace State

def goto (s : State) (pc : Pc) : State := { s with pc }

def note (s : State) (call : Call) : State := { s with bus := s.bus.note call }

/-- tryConnect is called. -/
def tryConnect (s : State) : State :=
  { s.note .attempt with
    attempts := s.attempts + 1
    pc := match s.target with
      | some path => .findAdapter path
      | none => .scan }

/-- abortDeviceConnect, then tryConnect returns the error. -/
def abort (s : State) (err : Err) : State := (s.note .disconnect).goto (.abort err)

/-- A fresh channel is subscribed and StartNotify issued. -/
def subscribe (s : State) (gatt : Gatt) : State :=
  { (s.note (.subscribe s.attempts)).note .startNotify with subscribed := true, queue := [], hungUp := false, pc := .startNotify gatt }

/-- tryConnect returns the connection, its rxLoop started. -/
def connected (s : State) (gatt : Gatt) (blockLength : Nat) : State :=
  s.goto (.ready { gatt, blockLength, signalCh := s.attempts, queue := s.queue, hungUp := s.hungUp })

def addMatch (s : State) (rule : Rule) (ok : Bool) : State := { s with bus := s.bus.addMatch rule ok }

def removeMatch (s : State) (rule : Rule) (ok : Bool) : State := { s with bus := s.bus.removeMatch rule ok }

/-- Whatever the call ends in. -/
def answered (s : State) (r : Reply) (k : Bool → State) : State :=
  match r with
  | .ok => k true
  | .failed _ => k false
  | _ => s

/-- After a look at the object tree. -/
def withObjects (s : State) (r : Reply) (fail : Err → State) (k : Objects → Except Err Pc) : State :=
  match managedObjects r with
  | some (.ok objects) =>
    match k objects with
    | .ok pc => s.goto pc
    | .error err => fail err
  | some (.error err) => fail err
  | none => s

def reply (s : State) (r : Reply) : State :=
  match s.pc, r with
  | .scan, .found path => s.goto (.findAdapter path)
  | .scan, .failed err => s.goto (.failed err true)
  -- no controller is not a transient condition
  | .findAdapter target, r =>
    s.withObjects r (fun err => s.goto (.failed err false)) fun objects => (findAdapter s.adapterID objects).map (.findDevice target)
  | .findDevice target adapterPath, r =>
    s.withObjects r (fun err => s.goto (.failed err true)) fun objects =>
      (findDevice adapterPath target objects).map (.stopDiscovery adapterPath)
  | .stopDiscovery adapterPath devPath, r => s.answered r fun _ => s.goto (.discovering adapterPath devPath)
  | .discovering adapterPath devPath, .value true => (s.note (.discovering true)).goto (.discoveringSelect adapterPath devPath)
  | .discovering _ devPath, .value false => (s.note (.discovering false)).goto (.oldLink devPath)
  | .discovering _ _, .mistyped type => s.goto (.failed ("bluez: decode adapter Discovering: got " ++ type) true)
  | .discovering _ _, .failed err => s.goto (.failed ("bluez: read adapter Discovering: " ++ err) true)
  | .discoveringSelect _ _, .failed err => s.goto (.failed err true)
  | .discoveringSelect adapterPath devPath, .ok => s.goto (.discovering adapterPath devPath)
  | .oldLink devPath, .value true => (s.note .disconnect).goto (.abortOld devPath)
  | .oldLink devPath, .value false | .oldLink devPath, .mistyped _ | .oldLink devPath, .failed _ => s.goto (.settle devPath)
  | .abortOld devPath, r => s.answered r fun _ => s.goto (.disconnected devPath)
  | .disconnected devPath, .value true => s.goto (.disconnectedSelect devPath)
  | .disconnected devPath, .value false => s.goto (.settle devPath)
  | .disconnected _, .mistyped _ => s.goto (.failed "bluez: invalid Connected property" true)
  | .disconnected _, .failed err => s.goto (.failed err true)
  | .disconnectedSelect _, .failed err => s.goto (.failed err true)
  | .disconnectedSelect devPath, .ok => s.goto (.disconnected devPath)
  | .settle _, .failed err => s.goto (.failed err true)
  | .settle devPath, .ok => (s.note .connect).goto (.connectDevice devPath)
  | .connectDevice _, .failed err => s.abort ("bluez: connect to vehicle: " ++ err)
  | .connectDevice devPath, .ok => s.goto (.resolved devPath)
  | .resolved _, .failed err => s.abort ("bluez: read ServicesResolved: " ++ err)
  | .resolved devPath, .value true => s.goto (.discoverGATT devPath)
  | .resolved devPath, .value false | .resolved devPath, .mistyped _ => s.goto (.resolvedSelect devPath)
  | .resolvedSelect _, .failed err => s.abort err
  | .resolvedSelect devPath, .ok => s.goto (.resolved devPath)
  | .discoverGATT devPath, r => s.withObjects r s.abort fun objects => (discoverGATT devPath objects).map .addMatch
  | .addMatch gatt, .failed err =>
    (s.addMatch (rxMatch gatt.rxPath) false).abort ("bluez: subscribe to vehicle RX characteristic: " ++ err)
  | .addMatch gatt, .ok => (s.addMatch (rxMatch gatt.rxPath) true).goto (.addDeviceMatch gatt)
  -- best-effort
  | .addDeviceMatch gatt, r => s.answered r fun ok => (s.addMatch (deviceMatch gatt.devPath) ok).subscribe gatt
  | .startNotify gatt, .failed err =>
    { s.note (.unsubscribe s.attempts) with subscribed := false }.goto
      (.removeMatch gatt ("bluez: subscribe to vehicle RX characteristic: " ++ err))
  | .startNotify gatt, .ok => s.goto (.mtu gatt)
  | .removeMatch gatt err, r => s.answered r fun ok => (s.removeMatch (rxMatch gatt.rxPath) ok).goto (.removeDeviceMatch gatt err)
  | .removeDeviceMatch gatt err, r => s.answered r fun ok => (s.removeMatch (deviceMatch gatt.devPath) ok).abort err
  | .abort err, r => s.answered r fun _ => s.goto (.failed err true)
  | .mtu gatt, .mtu n => s.connected gatt (if Framing.defaultMTU ≤ n then n - 3 else maxExpectedMTU - 3)
  | .mtu gatt, .mistyped _ | .mtu gatt, .failed _ => s.connected gatt (maxExpectedMTU - 3)
  -- in connect
  | .failed err retry, _ => s.goto (if !retry || isAdapterError err then .returned err else .pause err)
  | .pause err, .failed _ => s.goto (.returned err)
  | .pause _, .ok => { s with backoff := min (s.backoff * 2) connectRetryMax }.tryConnect
  | _, _ => s

/-! ## The machine -/

/-- What is done with the connection, once there is one. -/
def withConnection (s : State) (f : Connection → Connection) : State :=
  match s.pc with
  | .ready c => s.goto (.ready (f c))
  | _ => s

def step (s : State) : Event → State
  | .reply r =>
    match s.pc with
    | .ready c => s.answered r fun ok =>
      let (c, bus) := c.answer s.bus ok
      { s with bus, pc := .ready c }
    | _ => s.reply r
  | .signal sig =>
    if s.subscribed && !s.hungUp then
      { s with queue := s.queue ++ [sig] }.withConnection fun c => { c with queue := c.queue ++ [sig] }
    else s
  | .hangUp => { s with hungUp := true }.withConnection fun c => { c with hungUp := true }
  | .take now => s.withConnection (·.take now)
  | .flush => s.withConnection (·.flush)
  | .quit => s.withConnection (·.quit)
  | .close => s.withConnection (·.close)
  | .join =>
    match s.pc with
    | .ready c => if c.joined then { s with bus := c.release s.bus, subscribed := false, pc := .ready { c with closing := .stopNotify } } else s
    | _ => s
  | .receive => s.withConnection (·.receive)

/-- connect is called; `rules` are the process's others. -/
def start (adapterID : String) (target : Option Path) (rules : List Rule) : State :=
  { adapterID, target, bus := { rules }, attempts := 0, backoff := connectRetryInitial, pc := .scan : State }.tryConnect

end State

def machine (adapterID : String) (target : Option Path) (rules : List Rule) : Machine State Event :=
  { init := fun s => s = State.start adapterID target rules, step := State.step }

end ElectricEel.Bluez.Connect
