/-
  ElectricEel.Session.State — the session under its mutex (helper/session/main.go
  `session` and the functions whose names end in Locked).

  Each function here is what one goroutine does between two blocking calls while it holds
  `mu`. `car` and `conn` are set and cleared together: `car` names the connection, counted
  as they are made. `authCancel` is set exactly while `authInbox` is; inboxes are counted
  too, each with the connection it was made on and the context its responder runs under.
  The idle timer is left out: its callback is a teardown at any time.

  Times are milliseconds of the monotonic clock; the zero time is `none`. `log` is what
  has happened so far, newest first.
-/
import ElectricEel.Child.Watcher
import ElectricEel.Session.Auth

namespace ElectricEel.Session

open Lib.Protowire Commands Wire Child

/-! ## Data -/

structure Config extends PresenceConfig where
  scanInterval : Int
  deriving DecidableEq, Repr

def defaultPresenceConfig : Config := { nearRSSI := -90, nearConfirm := 1, farTimeout := 15000, scanInterval := 2000 }

/-- `vcsec.UserPresence_E`. -/
inductive UserPresence where
  | unknown
  | notPresent
  | present
  deriving DecidableEq, Repr

/-- A result of `Watcher.Wait`; `ref` is the pointer. -/
structure Result where
  ref : Nat
  /-- None: HasRSSI is false. -/
  rssi : Option Int
  deriving DecidableEq, Repr

/-- A datagram an observer was given, with where it came from. -/
structure Datagram where
  ref : Nat
  link : Nat
  inbox : Nat
  bytes : Bytes
  deriving DecidableEq, Repr

/-- One passive-entry responder: its connection and, if not the background, its parent context. -/
structure Tap where
  link : Nat
  parent : Option Nat
  deriving DecidableEq, Repr

/-- Of a `bluez.Watcher`. -/
structure Scanner where
  paused : Bool := false
  /-- `discoveryMu` is held by ensureDiscovering. -/
  busy : Bool := false
  deriving DecidableEq, Repr

inductive Happened where
  /-- Adapter1.StartDiscovery is called. -/
  | startDiscovery
  /-- Device1.Connect is called. -/
  | dial
  /-- The attempt failed; Device1.Disconnect. -/
  | hangUp
  | connected (link : Nat)
  /-- ensureConnectedLocked is done with a new connection. -/
  | ready (link : Nat) (time : Int)
  /-- Torn down. -/
  | closed (link : Nat)
  /-- An exchange with the vehicle begins. -/
  | used (link : Nat)
  /-- BodyControllerState was answered. -/
  | status (link : Nat) (time : Int) (presence : UserPresence)
  | primeFailed (link : Nat)
  | presenceOn (generation : Nat)
  | presenceOff
  | received (d : Datagram)
  /-- AuthenticationResponse is sent. -/
  | answered (link : Nat) (d : Datagram) (payload : Bytes)
  /-- presence_inside is emitted. -/
  | inside (link : Nat) (time : Int)
  /-- Another event. -/
  | event (kind : EventKind)
  deriving DecidableEq, Repr

structure State where
  bleBackend : Backend
  car : Option Nat := none
  links : Nat := 0
  /-- `presenceCancel`: the loop whose context it cancels. -/
  presence : Option Nat := none
  presenceGeneration : Nat := 0
  presenceCfg : Config := defaultPresenceConfig
  /-- Loops whose context is cancelled. -/
  cancelled : List Nat := []
  /-- Loops up to this one were started before presence mode was last stopped. -/
  stopped : Nat := 0
  watcher : Option Nat := none
  watchers : Nat → Scanner := fun _ => {}
  /-- Watchers made. -/
  made : Nat := 0
  authInbox : Option Nat := none
  taps : List Tap := []
  /-- Responders cancelled by stopAuthTapLocked. -/
  untapped : List Nat := []
  /-- `inboundObserver` of the connection: the inbox it feeds. -/
  observer : Option Nat := none
  lastBeacon : Option Result := none
  lastBeaconAt : Option Int := none
  connectBackoffUntil : Option Int := none
  connectBackoff : Int := 0
  lastVCSECPrime : Option Int := none
  connectedAt : Option Int := none
  lastUserPresence : UserPresence := .unknown
  insideEmitted : Bool := false
  now : Int := 0
  log : List Happened := []

def upd {α : Type} (f : Nat → α) (i : Nat) (v : α) : Nat → α := fun j => if j = i then v else f j

@[simp] theorem upd_same {α : Type} (f : Nat → α) (i : Nat) (v : α) : upd f i v i = v := by simp [upd]

theorem upd_ne {α : Type} (f : Nat → α) {i j : Nat} (v : α) (h : j ≠ i) : upd f i v j = f j := by simp [upd, h]

namespace State

def note (s : State) (h : Happened) : State := { s with log := h :: s.log }

def emit (s : State) (kind : EventKind) : State := s.note (.event kind)

/-! ## Teardown and presence-stop -/

def stopAuthTap (s : State) : State := { s with observer := none, untapped := s.authInbox.toList ++ s.untapped, authInbox := none }

def teardown (s : State) : State :=
  let s := { s.stopAuthTap with lastVCSECPrime := none, connectedAt := none, lastUserPresence := .unknown, insideEmitted := false }
  match s.car with
  | some link => { s with car := none }.note (.closed link)
  | none => s

def clearConnectBackoff (s : State) : State := { s with connectBackoffUntil := none, connectBackoff := 0 }

def stopPresence (s : State) : State :=
  let s := { s with stopped := s.presenceGeneration }
  let s :=
    match s.presence with
    | some g => { s with presence := none, cancelled := g :: s.cancelled }.note .presenceOff
    | none => s
  { s with presenceGeneration := s.presenceGeneration + 1, lastBeacon := none, lastBeaconAt := none }.stopAuthTap.clearConnectBackoff

def emitPresenceDisconnected (s : State) : State := if s.presence.isSome then s.emit .presenceDisconnected else s

/-- Tear down and say so. -/
def dropLink (s : State) : State := s.teardown.emitPresenceDisconnected

/-- `dispatchPresenceStart`, without its goroutine. -/
def startPresence (s : State) (cfg : Config) : State :=
  { s with
    presenceGeneration := s.presenceGeneration + 1, presence := some (s.presenceGeneration + 1), presenceCfg := cfg
  }.note (.presenceOn (s.presenceGeneration + 1))

/-- The loop's deferred cleanup, where it is still the current one. -/
def endPresence (s : State) : State := { s with presence := none }.note .presenceOff

/-! ## Connecting -/

/-- A tap only on a bluez connection. -/
def ensureAuthTap (s : State) (parent : Option Nat) : State :=
  match s.car, s.bleBackend with
  | some link, .bluez =>
    match s.authInbox with
    | some inbox => { s with observer := some inbox }
    | none => { s with authInbox := some s.taps.length, observer := some s.taps.length, taps := s.taps ++ [{ link, parent }] }
  | _, _ => s

/-- The responder's context is done. -/
def tapDone (s : State) (inbox : Nat) : Bool :=
  s.untapped.contains inbox || (s.taps[inbox]?.bind Tap.parent).any s.cancelled.contains

def presenceLiveNear (live : Option Int) (nearRSSI : Int) : Bool := live.any (nearRSSI ≤ ·)

def presenceTargetReady (s : State) (target : Option Result) : Bool :=
  let cfg := if s.presenceCfg.scanInterval ≤ 0 then defaultPresenceConfig else s.presenceCfg
  target.isSome && target == s.lastBeacon && presenceLiveNear (target.bind (·.rssi)) cfg.nearRSSI &&
    s.lastBeaconAt.any (fun t => s.now - t ≤ 2 * cfg.scanInterval)

def presenceBeaconTarget (s : State) : Option Result := if s.presence.isNone then none else s.lastBeacon

def connectTarget (s : State) (peek : Option Result) : Option Result := if peek.isSome then peek else s.lastBeacon

/-- Where ensureConnectedLocked stands when it first blocks. -/
inductive Entry where
  | done (ok : Bool)
  /-- StartSession on the live connection. -/
  | handshake
  /-- On to the transport. -/
  | dial
  deriving DecidableEq, Repr

/-- `key`: the private key file loads. -/
def enterConnect (s : State) (cmd : Option Cmd) (target : Option Result) (key : Bool) : State × Entry :=
  match s.car with
  | some link =>
    if withoutSession cmd then (s, .done true)
    else if sessionDomains cmd = [] then (s.ensureAuthTap none, .done true)
    else ((s.ensureAuthTap none).note (.used link), .handshake)
  | none =>
    if s.presence.isSome && s.bleBackend == .bluez && !s.presenceTargetReady target then (s, .done false)
    else if key then (s, .dial)
    else (s, .done false)

/-- `s.connectedAt = time.Now()`. -/
def markReady (s : State) (link : Nat) : State := { s with connectedAt := some s.now }.note (.ready link s.now)

/-- The transport is up; true: StartSession is next. -/
def linkUp (s : State) (cmd : Option Cmd) : State × Bool :=
  let s' := { s with car := some s.links, links := s.links + 1 }.note (.connected s.links)
  if withoutSession cmd then (s'.markReady s.links, false)
  else ((s'.ensureAuthTap none).note (.used s.links), true)

def connectBackoffActive (s : State) (now : Int) : Bool := s.connectBackoffUntil.any (now < ·)

def scheduleConnectBackoff (s : State) : State :=
  let backoff := min (max (s.connectBackoff * 2) 1000) 60000
  { s with connectBackoff := backoff, connectBackoffUntil := some (s.now + backoff) }

/-! ## The VCSEC prime and presence_inside -/

def vcsecPrimeInterval : Int := 15000

def vcsecPrimeDue (s : State) (now : Int) : Bool :=
  match s.lastVCSECPrime with
  | none => true
  | some t => vcsecPrimeInterval ≤ now - t

/-- Up to the call of BodyControllerState. -/
def primeBegin (s : State) (link : Nat) : State := { s with lastUserPresence := .unknown }.note (.used link)

inductive PrimeReply where
  | status (presence : UserPresence)
  /-- `dropped`: sessionDroppedError. -/
  | failed (dropped : Bool)
  deriving DecidableEq, Repr

def primeEnd (s : State) (link : Nat) : PrimeReply → State
  | .status presence => { s with lastVCSECPrime := some s.now, lastUserPresence := presence }.note (.status link s.now presence)
  | .failed dropped => if dropped then (s.note (.primeFailed link)).dropLink else s.note (.primeFailed link)

def insideSettleDuration : Int := 45000

def readyForInside (connectedAt statusAt : Option Int) (now : Int) (presence : UserPresence) : Bool :=
  match connectedAt, statusAt with
  | some c, some t => presence == .present && c + insideSettleDuration ≤ now && t ≤ now && now - t ≤ 2 * vcsecPrimeInterval
  | _, _ => false

def emitInside (s : State) : State :=
  match s.car with
  | some link =>
    if s.presence.isNone || s.insideEmitted || !readyForInside s.connectedAt s.lastVCSECPrime s.now s.lastUserPresence then s
    else { s with insideEmitted := true }.note (.inside link s.now)
  | none => s

end State

end ElectricEel.Session
