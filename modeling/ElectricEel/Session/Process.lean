/-
  ElectricEel.Session.Process — the session child's goroutines over one session record
  (main.go `presenceLoop`, `runPresenceWatcher`, `authResponderLoop`, `dispatch*`;
  bluez/connection.go `flush`; bluez/scan.go `ensureDiscovering`, `Pause`, `Resume`, `Stop`).

  Actors. The request loop takes a request and, but for `navigate`, holds `mu` until it is
  answered. A presence loop is named by its generation; `Pc` is where it stands between two
  steps, and a stopped one runs on until it next looks at its context. Each connection's RX
  loop hands a datagram to the observer it has read; each inbox has its responder.

  `mu`: a section without a blocking call is one step, taken while `mu` is free; in one with
  blocking calls the holder stands at a `Locked` and everyone else goes on without `mu`.
  Replies, timers and the order of steps are the environment's. A step that is not possible
  where it is asked for changes nothing.

  A `select` may take any ready case. A result of `Wait` is any result (Bluez.Watcher has
  which); of the watcher, only who may call StartDiscovery is kept here.
-/
import ElectricEel.Lib.Runs
import ElectricEel.Session.State

namespace ElectricEel.Session

open Lib Lib.Protowire Commands Wire Child

/-! ## Where everyone stands -/

/-- Who called ensureConnectedLocked. -/
inductive Caller where
  | command (cmd : Cmd)
  | navigate
  | loop (g : Nat)
  deriving DecidableEq, Repr

def Caller.cmd : Caller → Option Cmd
  | command cmd => some cmd
  | _ => none

/-- The blocking call in which the holder of `mu` is. -/
inductive Locked where
  /-- `bluez.Connect`, before Device1.Connect. -/
  | dial (c : Caller) (target : Option Result)
  /-- Device1.Connect, until the connection is there. -/
  | dialling (c : Caller) (target : Option Result)
  /-- StartSession; `fresh`: on a new connection. -/
  | handshake (c : Caller) (link : Nat) (fresh : Bool)
  /-- A manual command. -/
  | execute (cmd : Cmd)
  /-- BodyControllerState; `connecting`: after a connect. -/
  | prime (g link : Nat) (connecting : Bool)
  | send (inbox : Nat)
  /-- `bluez.Watch`. -/
  | watch (g : Nat)
  deriving DecidableEq, Repr

inductive Reply where
  /-- StartDiscovery is called. -/
  | scan
  /-- Device1.Connect is called. -/
  | attempt
  /-- It failed; `connect` tries again. -/
  | retry
  | ok
  | failed (dropped : Bool)
  | status (presence : UserPresence)
  deriving DecidableEq, Repr

inductive Pc where
  | absent
  /-- `ensureBluezLocked`. -/
  | bus
  /-- The outer loop's context check. -/
  | top
  | watch
  /-- The select after a failed Watch. -/
  | rest
  /-- runPresenceWatcher begins. -/
  | entered
  /-- The inner loop's context check. -/
  | check
  | snapshot
  | pausing
  | linkSelect
  /-- Dropped() fired in the select. -/
  | droppedLink
  | readConnected
  /-- Connected was false twice. -/
  | disconnected
  /-- The prime section. -/
  | refresh
  /-- The section with Resume. -/
  | resume
  /-- Wait, on its way to ensureDiscovering. -/
  | wait
  /-- ensureDiscovering, holding discoveryMu. -/
  | discovering
  /-- Wait's select. -/
  | listening
  | waitFailed
  | stopOld
  | rewatch
  /-- Wait returned. -/
  | heard
  | target
  | connect (target : Option Result)
  | depart
  /-- pauseAfterBeacon. -/
  | settle
  /-- runPresenceWatcher returns; its deferred section. -/
  | leave
  | stopWatcher
  /-- presenceLoop returns; its deferred section. -/
  | cleanup
  | over
  /-- An event is emitted outside the lock. -/
  | tell (kind : EventKind) (next : Pc)
  deriving DecidableEq, Repr

/-- Its next step takes `mu`. -/
def Pc.locks : Pc → Bool
  | bus | watch | entered | snapshot | droppedLink | disconnected | refresh | resume | rewatch | heard | target | connect _ | depart
  | leave | cleanup => true
  | _ => false

structure Loop where
  pc : Pc := .absent
  cfg : Config := defaultPresenceConfig
  watcher : Nat := 0
  near : Bool := false
  consecNear : Int := 0
  lastSeen : Option Int := none
  peekErrors : Nat := 0
  linkDownStreak : Nat := 0
  /-- `bzConn`. -/
  link : Option Nat := none
  result : Option Result := none
  /-- The local `now`. -/
  now : Int := 0
  deriving DecidableEq, Repr

inductive Choice where
  | go
  | fail
  /-- `ctx.Done()`. -/
  | done
  | timer
  | dropped
  | connected (b : Option Bool)
  /-- Wait's result, none for (nil, nil). -/
  | result (rssi : Option (Option Int))
  | wake
  /-- StartDiscovery is called and fails. -/
  | refused
  deriving DecidableEq, Repr

/-- An RX loop in `enqueueAuthDatagram`. -/
inductive Rx where
  | idle
  | offering (d : Datagram) (again : Bool)
  | full (d : Datagram)
  deriving DecidableEq, Repr

inductive Responder where
  | waiting
  | holding (d : Datagram) (level : Int)
  | sending
  | telling (ok : Bool)
  | gone
  deriving DecidableEq, Repr

structure Proc where
  session : State
  mu : Option Locked := none
  loops : Nat → Loop := fun _ => {}
  rx : Nat → Rx := fun _ => .idle
  inbox : Nat → List Datagram := fun _ => []
  responder : Nat → Responder := fun _ => .waiting
  /-- Results and datagrams made. -/
  results : Nat := 0
  datagrams : Nat := 0

inductive Event where
  | tick (ms : Nat)
  | loop (g : Nat) (c : Choice)
  /-- The blocking call of `mu`'s holder goes on. -/
  | locked (r : Reply)
  | command (cmd : Cmd) (key : Bool)
  | navigate (key : Bool)
  /-- Its second section. -/
  | navigateSend
  | presenceStart (cfg : Config)
  /-- presence-stop; keygen -f and the shutdown do the same. -/
  | stop
  /-- The idle timer. -/
  | idle
  | receive (bytes : Bytes)
  | offer (link : Nat)
  | evict (link : Nat)
  | take (inbox : Nat)
  | quit (inbox : Nat)
  | grab (inbox : Nat)
  | tell (inbox : Nat)
  deriving DecidableEq, Repr

namespace State

/-- Pause, unless its discoveryMu is taken. -/
def pauseWatcher (s : State) (w : Nat) : State := { s with watchers := upd s.watchers w { s.watchers w with paused := true } }

def setBusy (s : State) (w : Nat) (busy : Bool) : State := { s with watchers := upd s.watchers w { s.watchers w with busy } }

/-- Watch succeeds: discovery is on, and off again if a connection is up. -/
def newWatcher (s : State) : State :=
  { s with
    made := s.made + 1, watcher := some s.made,
    watchers := upd s.watchers s.made { s.watchers s.made with paused := s.car.isSome }
  }.note .startDiscovery

def resumeWatcher (s : State) (w : Nat) : State := { s with watchers := upd s.watchers w { s.watchers w with paused := false } }

def forgetWatcher (s : State) (w : Nat) : State := if s.watcher = some w then { s with watcher := none } else s

def setLastBeacon (s : State) (result : Option Result) : State :=
  { s with lastBeacon := result, lastBeaconAt := if result.isSome then some s.now else none }

end State

namespace Proc

def setLoop (p : Proc) (g : Nat) (l : Loop) : Proc := { p with loops := upd p.loops g l }

def goto (p : Proc) (g : Nat) (pc : Pc) : Proc := p.setLoop g { p.loops g with pc }

def onSession (p : Proc) (f : State → State) : Proc := { p with session := f p.session }

def unlock (p : Proc) : Proc := { p with mu := none }

/-! ## The holder of `mu` -/

/-- The connect section failed: the presence loop goes back and says so. -/
def connectFailed (p : Proc) (g : Nat) : Proc :=
  (p.onSession State.scheduleConnectBackoff).setLoop g
    { p.loops g with near := false, consecNear := 0, pc := .tell .presenceError .check }

/-- After ensureConnectedLocked, for its caller. -/
def connected (p : Proc) (c : Caller) (ok : Bool) : Proc :=
  match c, ok, p.session.car with
  | .command cmd, true, some link => { p with mu := some (.execute cmd) }.onSession (·.note (.used link))
  | .loop g, true, some link =>
    { p with mu := some (.prime g link true) }.onSession fun s => (s.clearConnectBackoff.ensureAuthTap (some g)).primeBegin link
  | .loop g, _, _ => p.unlock.connectFailed g
  | _, _, _ => p.unlock

def ensureConnected (p : Proc) (c : Caller) (target : Option Result) (key : Bool) : Proc :=
  match p.session.enterConnect c.cmd target key with
  | (s, .done ok) => { p with session := s }.connected c ok
  | (s, .handshake) => { p with session := s, mu := some (.handshake c (s.car.getD 0) false) }
  | (s, .dial) =>
    match s.watcher with
    | some w => if (s.watchers w).busy then p else { p with session := s.pauseWatcher w, mu := some (.dial c target) }
    | none => { p with session := s, mu := some (.dial c target) }

/-- The prime is over, after a connect or in a turn with the link up. -/
def primed (p : Proc) (g : Nat) (connecting : Bool) : Proc :=
  if connecting then
    if p.session.car.isNone then p.unlock.connectFailed g else p.unlock.goto g (.tell .presenceNear .settle)
  else (p.unlock.onSession State.emitInside).goto g .check

def watched (p : Proc) (g : Nat) (ok : Bool) : Proc :=
  let l := p.loops g
  let w := p.session.made
  match l.pc, ok with
  | .watch, true => (p.unlock.onSession State.newWatcher).setLoop g { l with watcher := w, pc := .entered }
  | .watch, false => p.unlock.goto g (.tell .presenceError .rest)
  | .rewatch, true => (p.unlock.onSession State.newWatcher).setLoop g { l with watcher := w, peekErrors := 0, pc := .check }
  | .rewatch, false => p.unlock.goto g (.tell .presenceError .leave)
  | _, _ => p.unlock

def stepLocked (p : Proc) (r : Reply) : Proc :=
  match p.mu, r with
  | some (.dial _ none), .scan => p.onSession (·.note .startDiscovery)
  | some (.dial c target), .attempt => { p with mu := some (.dialling c target) }.onSession (·.note .dial)
  | some (.dial c _), .failed _ => p.connected c false
  | some (.dialling c target), .retry => { p with mu := some (.dial c target) }.onSession (·.note .hangUp)
  | some (.dialling c _), .failed _ => (p.onSession (·.note .hangUp)).connected c false
  | some (.dialling c _), .ok =>
    let link := p.session.links
    match p.session.linkUp c.cmd with
    | (s, true) => { p with session := s, mu := some (.handshake c link true) }
    | (s, false) => { p with session := s }.connected c true
  | some (.handshake c link true), .ok => (p.onSession (·.markReady link)).connected c true
  | some (.handshake c _ true), .failed _ => (p.onSession State.teardown).connected c false
  | some (.handshake c _ false), .ok => p.connected c true
  | some (.handshake c _ false), .failed _ => p.connected c false
  | some (.execute cmd), .ok | some (.execute cmd), .failed _ =>
    if withoutSession (some cmd) then (p.onSession State.teardown).unlock else p.unlock
  | some (.prime g link connecting), .status presence => (p.onSession (·.primeEnd link (.status presence))).primed g connecting
  | some (.prime g link connecting), .failed dropped => (p.onSession (·.primeEnd link (.failed dropped))).primed g connecting
  | some (.send inbox), .ok => { p.unlock with responder := upd p.responder inbox (.telling true) }
  | some (.send inbox), .failed dropped =>
    { (if dropped then p.onSession State.dropLink else p).unlock with responder := upd p.responder inbox (.telling false) }
  | some (.watch _), .scan => p.onSession (·.note .startDiscovery)
  | some (.watch g), .ok => p.watched g true
  | some (.watch g), .failed _ => p.watched g false
  | _, _ => p

/-! ## A presence loop -/

/-- Wait returned: the section that keeps the beacon, and presenceStep. -/
def hear (p : Proc) (g : Nat) : Proc :=
  let l := p.loops g
  let rssi := l.result.bind (·.rssi)
  let out := presenceStep l.cfg.toPresenceConfig l.near l.consecNear l.lastSeen l.now rssi.isSome (rssi.getD 0) false
  let l := { l with peekErrors := 0, near := out.1, consecNear := out.2.1, lastSeen := out.2.2.1 }
  let pc : Pc :=
    match out.2.2.2 with
    | .arrive | .stayNear => if State.presenceLiveNear rssi l.cfg.nearRSSI then .target else .settle
    | .depart => .depart
    | .none => .settle
  (p.onSession (·.setLastBeacon l.result)).setLoop g { l with pc }

def snapshot (p : Proc) (g : Nat) (c : Choice) : Proc :=
  let l := p.loops g
  match p.session.car, c with
  | some _, .dropped => (p.onSession State.dropLink).setLoop g { l with link := none, pc := .resume }
  | some link, _ => p.setLoop g { l with link := some link, pc := .pausing }
  | none, _ => p.setLoop g { l with link := none, pc := .resume }

/-- The link the loop saw, if it is still the session's, is torn down. -/
def dropSeen (p : Proc) (g : Nat) : Proc :=
  let l := p.loops g
  (if p.session.car.isSome && p.session.car == l.link then p.onSession State.dropLink else p).setLoop g
    { l with linkDownStreak := 0, pc := .check }

def refresh (p : Proc) (g : Nat) : Proc :=
  match p.session.car with
  | some link =>
    if p.session.vcsecPrimeDue (p.loops g).now then
      { p with mu := some (.prime g link false) }.onSession (·.primeBegin link)
    else (p.onSession State.emitInside).goto g .check
  | none => (p.onSession State.emitInside).goto g .check

/-- `cancelled`: the loop's context is done. -/
def stepLoop (p : Proc) (g : Nat) (c : Choice) : Proc :=
  let l := p.loops g
  let s := p.session
  let cancelled := s.cancelled.contains g
  if l.pc.locks && p.mu.isSome then p
  else
    match l.pc with
    | .absent | .over => p
    | .bus => p.goto g (if c = .fail then .tell .presenceError .cleanup else .top)
    | .top => p.goto g (if cancelled then .cleanup else .watch)
    | .watch | .rewatch => { p with mu := some (.watch g) }
    | .rest => if c = .done then (if cancelled then p.goto g .cleanup else p) else p.goto g .top
    | .entered =>
      (p.onSession ({ · with watcher := some l.watcher })).setLoop g { pc := .check, cfg := l.cfg, watcher := l.watcher }
    | .check => p.goto g (if cancelled then .leave else .snapshot)
    | .snapshot => p.snapshot g c
    | .pausing =>
      if (s.watchers l.watcher).busy then p
      else (p.onSession (·.pauseWatcher l.watcher)).setLoop g { l with near := true, lastSeen := some s.now, pc := .linkSelect }
    | .linkSelect =>
      match c with
      | .done => if cancelled then p.goto g .leave else p
      | .dropped => if l.link.isSome then p.goto g .droppedLink else p
      | _ => if l.link.isSome then p.goto g .readConnected else p.setLoop g { l with now := s.now, pc := .refresh }
    | .droppedLink | .disconnected => p.dropSeen g
    | .readConnected =>
      match c with
      | .connected (some true) => p.setLoop g { l with linkDownStreak := 0, now := s.now, pc := .refresh }
      | .connected (some false) =>
        if 2 ≤ l.linkDownStreak + 1 then p.setLoop g { l with linkDownStreak := l.linkDownStreak + 1, pc := .disconnected }
        else p.setLoop g { l with linkDownStreak := l.linkDownStreak + 1, now := s.now, pc := .refresh }
      | _ => p.setLoop g { l with now := s.now, pc := .refresh }
    | .refresh => p.refresh g
    | .resume =>
      if s.car.isSome then p.setLoop g { l with linkDownStreak := 0, pc := .check }
      else (p.onSession (·.resumeWatcher l.watcher)).setLoop g { l with linkDownStreak := 0, now := s.now, pc := .wait }
    | .wait =>
      if (s.watchers l.watcher).busy then p
      else if (s.watchers l.watcher).paused then p.goto g .listening
      else (p.onSession (·.setBusy l.watcher true)).goto g .discovering
    | .discovering =>
      let p := p.onSession (·.setBusy l.watcher false)
      match c with
      | .wake => p.goto g .listening
      | .go => (p.onSession (·.note .startDiscovery)).goto g .listening
      | .refused => (p.onSession (·.note .startDiscovery)).goto g .waitFailed
      | _ => p.goto g .waitFailed
    | .listening =>
      match c with
      | .result (some rssi) =>
        { p with results := p.results + 1 }.setLoop g { l with result := some { ref := p.results, rssi }, pc := .heard }
      | .result none => p.setLoop g { l with result := none, pc := .heard }
      | .wake => p.goto g .wait
      | .fail => p.goto g .waitFailed
      | _ => p
    | .waitFailed => p.setLoop g { l with peekErrors := l.peekErrors + 1, pc := if 5 ≤ l.peekErrors + 1 then .stopOld else .check }
    | .stopOld => (p.onSession (·.pauseWatcher l.watcher)).goto g .rewatch
    | .heard => p.hear g
    | .target =>
      let target := s.connectTarget l.result
      p.goto g (if s.connectBackoffActive l.now || target.isNone then .settle else .connect target)
    | .connect target => p.ensureConnected (.loop g) target (c != .fail)
    | .depart => (p.onSession fun s => s.clearConnectBackoff.teardown).goto g (.tell .presenceFar .settle)
    | .settle =>
      if l.result.isNone then p.goto g (if cancelled then .leave else .check)
      else if c = .done then (if cancelled then p.goto g .leave else p)
      else p.goto g .check
    | .leave => (p.onSession (·.forgetWatcher l.watcher)).goto g .stopWatcher
    | .stopWatcher => (p.onSession (·.pauseWatcher l.watcher)).goto g .top
    | .cleanup =>
      if s.presenceGeneration = g then (p.onSession State.endPresence).goto g (.tell .presenceStopped .over) else p.goto g .over
    | .tell kind next => (p.onSession (·.emit kind)).goto g next

/-! ## Passive entry -/

/-- `flush` reads the observer; with none the datagram goes no further. -/
def receive (p : Proc) (bytes : Bytes) : Proc :=
  match p.session.car, p.session.observer with
  | some link, some inbox =>
    if p.rx link = .idle then
      let d : Datagram := { ref := p.datagrams, link, inbox, bytes }
      { p with datagrams := p.datagrams + 1, rx := upd p.rx link (.offering d false) }.onSession (·.note (.received d))
    else p
  | _, _ => p

def inboxSize : Nat := 64

def offer (p : Proc) (link : Nat) : Proc :=
  match p.rx link with
  | .offering d again =>
    if (p.inbox d.inbox).length < inboxSize then
      { p with inbox := upd p.inbox d.inbox (p.inbox d.inbox ++ [d]), rx := upd p.rx link .idle }
    else { p with rx := upd p.rx link (if again then .idle else .full d) }
  | _ => p

/-- The oldest makes room. -/
def evict (p : Proc) (link : Nat) : Proc :=
  match p.rx link with
  | .full d => { p with inbox := upd p.inbox d.inbox (p.inbox d.inbox).tail, rx := upd p.rx link (.offering d true) }
  | _ => p

section

variable (decoders : Decoders)

/-- A responder takes a datagram and reads it. -/
def take (p : Proc) (inbox : Nat) : Proc :=
  match p.responder inbox, p.inbox inbox with
  | .waiting, d :: rest =>
    let p := { p with inbox := upd p.inbox inbox rest }
    match parseAuthenticationRequest decoders d.bytes with
    | some req =>
      if req.requestedLevel = authLevelNone then p
      else { p with responder := upd p.responder inbox (.holding d req.requestedLevel) }
    | none => p
  | _, _ => p

def quit (p : Proc) (inbox : Nat) : Proc :=
  if p.responder inbox = .waiting ∧ p.session.tapDone inbox = true then { p with responder := upd p.responder inbox .gone } else p

/-- With `mu`: not for a replaced link, and only a level it may grant. -/
def grab (p : Proc) (inbox : Nat) : Proc :=
  match p.responder inbox, p.mu with
  | .holding d level, none =>
    if p.session.tapDone inbox = true ∨ p.session.authInbox ≠ some inbox then { p with responder := upd p.responder inbox .gone }
    else
      match p.session.car, responsePayload decoders.protowire level with
      | some link, some payload =>
        { p with mu := some (.send inbox), responder := upd p.responder inbox .sending }.onSession
          (·.note (.answered link d payload))
      | _, _ => { p with responder := upd p.responder inbox (.telling false) }
  | _, _ => p

def tell (p : Proc) (inbox : Nat) : Proc :=
  match p.responder inbox with
  | .telling ok =>
    { p with responder := upd p.responder inbox .waiting }.onSession (·.emit (if ok then .presenceAuthOk else .presenceAuthFailed))
  | _ => p

/-! ## The machine -/

/-- With `mu` free. -/
def sectionNow (p : Proc) (f : Proc → Proc) : Proc := if p.mu.isSome then p else f p

def startPresence (p : Proc) (cfg : Config) : Proc :=
  if p.session.bleBackend = .bluez ∧ p.session.presence = none then
    let g := p.session.presenceGeneration + 1
    (p.onSession (·.startPresence cfg)).setLoop g { pc := .bus, cfg }
  else p

def navigateSend (p : Proc) : Proc :=
  match p.session.car with
  | some link => { p with mu := some (.execute .navigate) }.onSession (·.note (.used link))
  | none => p

def step (p : Proc) : Event → Proc
  | .tick ms => p.onSession fun s => { s with now := s.now + ms }
  | .loop g c => p.stepLoop g c
  | .locked r => p.stepLocked r
  | .command cmd key => p.sectionNow fun p => p.ensureConnected (.command cmd) p.session.presenceBeaconTarget key
  | .navigate key => p.sectionNow fun p => p.ensureConnected .navigate p.session.presenceBeaconTarget key
  | .navigateSend => p.sectionNow navigateSend
  | .presenceStart cfg => p.sectionNow (·.startPresence cfg)
  | .stop => p.sectionNow (·.onSession fun s => s.stopPresence.teardown)
  | .idle => p.sectionNow (·.onSession State.teardown)
  | .receive bytes => p.receive bytes
  | .offer link => p.offer link
  | .evict link => p.evict link
  | .take inbox => p.take decoders inbox
  | .quit inbox => p.quit inbox
  | .grab inbox => p.grab decoders inbox
  | .tell inbox => p.tell inbox

def start (bleBackend : Backend) : Proc := { session := { bleBackend } }

def machine : Machine Proc Event := { init := fun p => ∃ b, p = start b, step := step decoders }

end

end Proc

/-- No datagram decodes as a RoutableMessage. -/
def plainDecoders : Decoders := { routable := fun _ => none, protowire := wire }

end ElectricEel.Session
