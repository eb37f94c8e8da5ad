/-
  ElectricEel.Session.Guarded — the session child by its critical sections
  (helper/session/main.go, navigate.go, pairing.go: everything under `session.mu`).

  Session.Process has what happens inside a section while the lock is held. Here a section
  is taken as a whole, between `lock` and `done`, with what that machine leaves out: `car`
  and `conn` apart, every point at which connecting fails, each connection's inbound
  observer, and the idle timer with its callback.

  A section's effect is computed when it is done; nobody reads the fields before. Time
  passes and timers expire while it lasts. The answers it gets from the radio, the vehicle
  and the disk are the environment's (`Reply`).

  Timers: time.AfterFunc starts its callback in a goroutine of its own at some time from
  the deadline on, and Stop recalls it only before that. A callback then waits for `mu`.

  Requests come one at a time. `navigate` takes `mu` twice. A presence loop is named by its
  generation, and may take its sections in any order; what it holds between them (the beacon
  it heard, the connection it looked at) is any value. Events, watchers, the connect backoff
  and enableTrustedLocked, which no field here depends on, are left out, and the shutdown:
  the process ends with it.
-/
import ElectricEel.Lib.Runs
import ElectricEel.Session.State

namespace ElectricEel.Guarded

open Lib Commands Child
open Session (UserPresence Result upd)
open Session.State (PrimeReply)

/-! ## Data -/

/-- A connector; `bluez`: it is a `*bluez.Connection`. -/
structure Connector where
  id : Nat
  bluez : Bool
  deriving DecidableEq, Repr

/-- A `vehicle.Vehicle` on its connector. -/
structure Vehicle where
  conn : Connector
  deriving DecidableEq, Repr

/-- A started `time.AfterFunc`; `link`: the connection that was up then. -/
structure Timer where
  id : Nat
  deadline : Int
  link : Option Nat
  deriving DecidableEq, Repr

structure State where
  bleBackend : Backend
  idleTimeout : Int
  car : Option Vehicle := none
  conn : Option Connector := none
  idleTimer : Option Nat := none
  /-- The bus is open. -/
  bluez : Bool := false
  /-- The responder it cancels. -/
  authCancel : Option Nat := none
  authInbox : Option Nat := none
  /-- The loop whose context it cancels. -/
  presenceCancel : Option Nat := none
  presenceGeneration : Nat := 0
  presenceCfg : Session.Config := Session.defaultPresenceConfig
  lastBeacon : Option Result := none
  lastBeaconAt : Option Int := none
  lastVCSECPrime : Option Int := none
  connectedAt : Option Int := none
  lastUserPresence : UserPresence := .unknown
  insideEmitted : Bool := false
  /-- `inboundObserver` of each connection: the inbox it feeds. -/
  observers : Nat → Option Nat := fun _ => none
  /-- Connections, inboxes and timers made. -/
  conns : Nat := 0
  inboxes : Nat := 0
  timers : Nat := 0
  /-- Timers that have not expired. -/
  armed : List Timer := []
  /-- Expired ones whose callback waits for `mu`. -/
  waiting : List Timer := []
  /-- Loops whose context is cancelled. -/
  cancelled : List Nat := []
  /-- Connections on which StartSession has succeeded. -/
  started : List Nat := []
  /-- When commands completed, each with the connection it left up. -/
  completed : List (Nat × Int) := []
  now : Int := 0

/-- What a section is told; it reads what it asks for. -/
structure Reply where
  /-- The private key file loads. -/
  key : Bool := true
  /-- `bluez.Open`. -/
  bus : Bool := true
  /-- `ble.InitAdapterWithID`. -/
  adapter : Bool := true
  /-- `bluez.Connect` or `ble.NewConnection`. -/
  transport : Bool := true
  /-- `vehicle.NewVehicle`. -/
  vehicle : Bool := true
  /-- `car.Connect`. -/
  link : Bool := true
  /-- StartSession. -/
  session : Bool := true
  /-- The command, the vehicle call or the key's replacement. -/
  ok : Bool := true
  prime : PrimeReply := .status .unknown
  /-- Dropped() has fired, or the send failed with a sessionDroppedError. -/
  dropped : Bool := false
  deriving DecidableEq, Repr

namespace State

/-! ## Teardown, the idle timer and presence-stop -/

def stopIdleTimer (s : State) : State :=
  match s.idleTimer with
  | some id => { s with armed := s.armed.filter (·.id ≠ id), idleTimer := none }
  | none => s

def stopAuthTap (s : State) : State :=
  let s :=
    match s.conn with
    | some conn => if conn.bluez then { s with observers := upd s.observers conn.id none } else s
    | none => s
  { s with authCancel := none, authInbox := none }

def teardown (s : State) : State :=
  { s.stopIdleTimer.stopAuthTap with
    car := none, conn := none, lastVCSECPrime := none, connectedAt := none, lastUserPresence := .unknown, insideEmitted := false }

def resetIdleTimer (s : State) : State :=
  if s.presenceCancel.isSome then s.stopIdleTimer
  else
    let s := s.stopIdleTimer
    { s with
      idleTimer := some s.timers, timers := s.timers + 1,
      armed := ⟨s.timers, s.now + s.idleTimeout, s.car.map (·.conn.id)⟩ :: s.armed }

def stopPresence (s : State) : State :=
  let s :=
    match s.presenceCancel with
    | some g => { s with presenceCancel := none, cancelled := g :: s.cancelled }
    | none => s
  { ({ s with presenceGeneration := s.presenceGeneration + 1 }.stopAuthTap) with lastBeacon := none, lastBeaconAt := none }

def startPresence (s : State) (cfg : Session.Config) : State :=
  if s.bleBackend = .bluez ∧ s.presenceCancel = none then
    { s with presenceGeneration := s.presenceGeneration + 1, presenceCancel := some (s.presenceGeneration + 1), presenceCfg := cfg }
  else s

/-- The deferred cleanup of presenceLoop. -/
def endPresence (s : State) (g : Nat) : State := if s.presenceGeneration = g then { s with presenceCancel := none } else s

/-! ## Connecting -/

def ensureAuthTap (s : State) : State :=
  match s.conn with
  | some conn =>
    if conn.bluez then
      match s.authCancel with
      | none =>
        { s with
          authInbox := some s.inboxes, authCancel := some s.inboxes, inboxes := s.inboxes + 1,
          observers := upd s.observers conn.id (some s.inboxes) }
      | some _ => { s with observers := upd s.observers conn.id s.authInbox }
    else s
  | none => s

def ensureBluez (s : State) (r : Reply) : State := if s.bluez then s else { s with bluez := r.bus }

def presenceBeaconTarget (s : State) : Option Result := if s.presenceCancel.isNone then none else s.lastBeacon

def presenceTargetReady (s : State) (target : Option Result) (now : Int) : Bool :=
  let cfg := if s.presenceCfg.scanInterval ≤ 0 then Session.defaultPresenceConfig else s.presenceCfg
  target.isSome && target == s.lastBeacon && Session.State.presenceLiveNear (target.bind (·.rssi)) cfg.nearRSSI &&
    s.lastBeaconAt.any (fun t => now - t ≤ 2 * cfg.scanInterval)

/-- StartSession on the live vehicle. -/
def startSession (s : State) : State := { s with started := (s.car.map (·.conn.id)).toList ++ s.started }

/-- `s.connectedAt = time.Now()`, where the connection is ready. -/
def ready (s : State) : State := { s with connectedAt := some s.now }

/-- The transport, from the bus or the adapter on; none: it failed. -/
def openTransport (s : State) (r : Reply) : State × Option Connector :=
  if s.bleBackend = .bluez then
    let s := s.ensureBluez r
    if s.bluez && r.transport then ({ s with conns := s.conns + 1 }, some ⟨s.conns, true⟩) else (s, none)
  else if r.adapter && r.transport then ({ s with conns := s.conns + 1 }, some ⟨s.conns, false⟩)
  else (s, none)

/-- From the cached vehicle on. -/
def openSession (s : State) (cmd : Option Cmd) (conn : Connector) (r : Reply) : State × Bool :=
  let s := { s with car := some ⟨conn⟩, conn := some conn }
  if withoutSession cmd then (s.ready, true)
  else if r.session then (s.ensureAuthTap.startSession.ready, true)
  else (s.ensureAuthTap.teardown, false)

/-- `since`: when the section began. -/
def ensureConnected (s : State) (cmd : Option Cmd) (target : Option Result) (since : Int) (r : Reply) : State × Bool :=
  if s.car.isSome then
    if withoutSession cmd then (s, true)
    else if sessionDomains cmd = [] then (s.ensureAuthTap, true)
    else if r.session then (s.ensureAuthTap.startSession, true)
    else (s.ensureAuthTap, false)
  else if s.presenceCancel.isSome && s.bleBackend == .bluez && !s.presenceTargetReady target since then (s, false)
  else if !r.key then (s, false)
  else
    match s.openTransport r with
    | (s, none) => (s, false)
    | (s, some conn) => if r.vehicle && r.link then s.openSession cmd conn r else (s, false)

/-! ## The sections -/

/-- The request's response is next. -/
def complete (s : State) : State := { s with completed := (s.car.map fun v => (v.conn.id, s.now)).toList ++ s.completed }

def dispatch (s : State) (cmd : Cmd) (since : Int) (r : Reply) : State :=
  match s.ensureConnected (some cmd) s.presenceBeaconTarget since r with
  | (s, false) => s.complete
  | (s, true) => if withoutSession (some cmd) then s.complete.teardown else s.complete.resetIdleTimer

/-- `dispatchKeygen`; only a forced replacement touches the session. -/
def keygen (s : State) (force : Bool) (r : Reply) : State := if force && r.ok then s.stopPresence.teardown else s

def navigateConnect (s : State) (since : Int) (r : Reply) : State × Bool :=
  match s.ensureConnected none s.presenceBeaconTarget since r with
  | (s, false) => (s.complete, false)
  | (s, true) => (s, true)

def navigateSend (s : State) (r : Reply) : State :=
  if s.car.isNone then s else if r.ok then s.complete.resetIdleTimer else s.complete

/-- primeVCSECLocked. -/
def prime (s : State) (r : Reply) : State :=
  if s.car.isNone then s
  else
    match r.prime with
    | .status presence => { s with lastVCSECPrime := some s.now, lastUserPresence := presence }
    | .failed dropped => if dropped then s.teardown else { s with lastUserPresence := .unknown }

def vcsecPrimeDue (s : State) (now : Int) : Bool :=
  match s.lastVCSECPrime with
  | none => true
  | some t => Session.State.vcsecPrimeInterval ≤ now - t

def emitInside (s : State) : State :=
  if s.car.isNone || s.presenceCancel.isNone || s.insideEmitted ||
      !Session.State.readyForInside s.connectedAt s.lastVCSECPrime s.now s.lastUserPresence then s
  else { s with insideEmitted := true }

/-- A turn of the loop with the link up; `now`: when it began. -/
def refresh (s : State) (now : Int) (r : Reply) : State :=
  (if s.car.isSome then (if s.vcsecPrimeDue now then s.prime r else s).resetIdleTimer else s).emitInside

/-- The loop's connect. -/
def presenceConnect (s : State) (target : Option Result) (since : Int) (r : Reply) : State :=
  match s.ensureConnected none target since r with
  | (s, false) => s
  | (s, true) => (s.ensureAuthTap.prime r).resetIdleTimer

/-- Dropped() of the connection is looked at. -/
def look (s : State) (r : Reply) : State := if s.conn.any Connector.bluez && r.dropped then s.teardown else s

/-- The connection the loop saw is gone. -/
def dropSeen (s : State) (conn : Connector) : State := if conn.bluez && s.conn == some conn then s.teardown else s

def hear (s : State) (result : Option Result) : State :=
  { s with lastBeacon := result, lastBeaconAt := if result.isSome then some s.now else none }

/-- authResponderLoop with a request; one whose context is done returns as for a replaced inbox. -/
def respond (s : State) (inbox : Nat) (r : Reply) : State :=
  if s.authInbox ≠ some inbox ∨ s.car.isNone then s else if r.dropped then s.teardown else s

end State

/-- What `mu` is taken for. -/
inductive Job where
  /-- A manual command; `pair` is add-key-request once it has read the keys. -/
  | command (cmd : Cmd)
  | keygen (force : Bool)
  | presenceStart (cfg : Session.Config)
  | presenceStop
  /-- `navigate`, to connect. -/
  | navigate
  /-- `navigate`, with the vehicle call. -/
  | navigateSend
  | responder (inbox : Nat)
  /-- presenceLoop's ensureBluezLocked. -/
  | openBus (g : Nat)
  | look (g : Nat)
  | dropSeen (g : Nat) (conn : Connector)
  | refresh (g : Nat) (now : Int)
  | hear (g : Nat) (result : Option Result)
  | connect (g : Nat) (target : Option Result)
  | depart (g : Nat)
  | cleanup (g : Nat)
  deriving DecidableEq, Repr

/-- Where a presence loop is. -/
inductive Stage where
  | absent
  /-- Before ensureBluezLocked. -/
  | fresh
  /-- It failed; the deferred cleanup is next. -/
  | failing
  /-- It has the bus; the context check is next. -/
  | opened
  | running
  /-- It saw its context done. -/
  | leaving
  | over
  deriving DecidableEq, Repr

def State.run (s : State) (since : Int) (r : Reply) : Job → State
  | .command cmd => s.dispatch cmd since r
  | .keygen force => s.keygen force r
  | .presenceStart cfg => s.startPresence cfg
  | .presenceStop => s.stopPresence.teardown
  | .navigate => (s.navigateConnect since r).1
  | .navigateSend => s.navigateSend r
  | .responder inbox => s.respond inbox r
  | .openBus _ => s.ensureBluez r
  | .look _ => s.look r
  | .dropSeen _ conn => s.dropSeen conn
  | .refresh _ now => s.refresh now r
  | .hear _ result => s.hear result
  | .connect _ target => s.presenceConnect target since r
  | .depart _ => s.teardown
  | .cleanup g => s.endPresence g

/-! ## The machine -/

structure Proc where
  session : State
  /-- Who holds the lock, and since when. -/
  mu : Option (Job × Int) := none
  loops : Nat → Stage := fun _ => .absent
  /-- `navigate` is between its sections. -/
  navigating : Bool := false

inductive Event where
  | tick (ms : Nat)
  /-- A timer's callback starts. -/
  | expire (t : Timer)
  /-- It gets `mu`. -/
  | callback (t : Timer)
  | lock (j : Job)
  | done (r : Reply)
  /-- A loop with the bus looks at its context. -/
  | enter (g : Nat)
  /-- A running one does. -/
  | exit (g : Nat)
  deriving DecidableEq, Repr

namespace Proc

/-- Whoever takes the lock for it is there. -/
def may (p : Proc) : Job → Bool
  | .command _ | .keygen _ | .presenceStart _ | .presenceStop | .navigate => !p.navigating
  | .navigateSend => p.navigating
  | .responder inbox => inbox < p.session.inboxes
  | .openBus g => p.loops g == .fresh
  | .look g | .dropSeen g _ | .refresh g _ | .hear g _ | .connect g _ | .depart g => p.loops g == .running
  | .cleanup g => p.loops g == .failing || p.loops g == .leaving

/-- The loop a section belongs to. -/
def loopOf : Job → Option Nat
  | .openBus g | .look g | .dropSeen g _ | .refresh g _ | .hear g _ | .connect g _ | .depart g | .cleanup g => some g
  | _ => none

/-- Where the loops are after a section. -/
def loopsAfter (p : Proc) (r : Reply) : Job → Nat → Stage
  | .presenceStart _ =>
    if p.session.bleBackend = .bluez ∧ p.session.presenceCancel = none then upd p.loops (p.session.presenceGeneration + 1) .fresh else p.loops
  | .openBus g => upd p.loops g (if (p.session.ensureBluez r).bluez then .opened else .failing)
  | .cleanup g => upd p.loops g .over
  | _ => p.loops

def navigatingAfter (p : Proc) (since : Int) (r : Reply) : Job → Bool
  | .navigate => (p.session.navigateConnect since r).2
  | .navigateSend => false
  | _ => p.navigating

def finish (p : Proc) (j : Job) (since : Int) (r : Reply) : Proc :=
  { session := p.session.run since r j, mu := none, loops := p.loopsAfter r j, navigating := p.navigatingAfter since r j }

/-- The callback's goroutine tears down whatever it finds. -/
def fire (p : Proc) (t : Timer) : Proc := { p with session := { p.session with waiting := p.session.waiting.erase t }.teardown }

def step (p : Proc) : Event → Proc
  | .tick ms => { p with session := { p.session with now := p.session.now + ms } }
  | .expire t =>
    if t ∈ p.session.armed ∧ t.deadline ≤ p.session.now then
      { p with session := { p.session with armed := p.session.armed.erase t, waiting := t :: p.session.waiting } }
    else p
  | .callback t => if p.mu = none ∧ t ∈ p.session.waiting then p.fire t else p
  | .lock j => if p.mu = none ∧ p.may j = true then { p with mu := some (j, p.session.now) } else p
  | .done r =>
    match p.mu with
    | some (j, since) => p.finish j since r
    | none => p
  | .enter g => if p.loops g = .opened then { p with loops := upd p.loops g (if g ∈ p.session.cancelled then .leaving else .running) } else p
  | .exit g =>
    if p.loops g = .running ∧ g ∈ p.session.cancelled ∧ p.mu.bind (loopOf ·.1) ≠ some g then { p with loops := upd p.loops g .leaving } else p

def start (bleBackend : Backend) (idleTimeout : Int) : Proc := { session := { bleBackend, idleTimeout } }

def machine : Machine Proc Event := { init := fun p => ∃ b t, p = start b t, step }

/-- A request is being dispatched. -/
def dispatching (p : Proc) : Bool :=
  p.navigating ||
    match p.mu with
    | some (.command _, _) | some (.keygen _, _) | some (.presenceStart _, _) | some (.presenceStop, _) | some (.navigate, _)
    | some (.navigateSend, _) => true
    | _ => false

end Proc

end ElectricEel.Guarded
