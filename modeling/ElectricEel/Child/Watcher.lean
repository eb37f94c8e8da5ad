/-
  ElectricEel.Child.Watcher — the presence loop's iterations (main.go `presenceStep`,
  `presenceLoop`, `runPresenceWatcher`).

  One `Iteration` is one turn of the loop with everything it meets: whether the link's
  Dropped signal fired, what `Connected` reads, what the scan returns, how the connect and
  the VCSEC prime go, which requests the child serves while the scanner waits. Between
  iterations the request loop and the idle timer act on the session (`Errand`). Presence
  mode needs the bluez backend, so a live link is always a bluez connection. After five
  peek errors in a row the watcher is replaced; where that fails runPresenceWatcher returns,
  and presenceLoop enters it again, its locals fresh, as soon as a watcher starts.

  Times are those of the monotonic clock; the zero time is `none`, before every other.
  Ghosts: `clock`, and `lastNear`, the last moment an advertisement at or above nearRSSI
  was heard or the link was up.

  Proved: while the vehicle counts as near and lastSeen has expired, presenceStep
  departs (`presenceStep_depart`); it departs or stays only when it was near, and arrives
  only when it was not (`presenceStep_cases`).
-/
import ElectricEel.Child.Dispatch

namespace ElectricEel.Child

open Wire

/-! ## presenceStep -/

structure PresenceConfig where
  nearRSSI : Int
  nearConfirm : Int
  farTimeout : Int
  deriving DecidableEq, Repr

inductive PresenceAction where
  | none
  | arrive
  | stayNear
  | depart
  deriving DecidableEq, Repr

/-- `now.Sub(lastSeen) > farTimeout`. -/
def expired (cfg : PresenceConfig) (lastSeen : Option Int) (now : Int) : Bool :=
  match lastSeen with
  | .none => true
  | some t => cfg.farTimeout < now - t

def presenceStep (cfg : PresenceConfig) (near : Bool) (consecNear : Int) (lastSeen : Option Int) (now : Int) (seen : Bool)
    (rssi : Int) (gattUp : Bool) : Bool × Int × Option Int × PresenceAction :=
  let (lastSeen, consecNear) :=
    if seen && cfg.nearRSSI ≤ rssi then (some now, consecNear + 1)
    else if gattUp then (some now, 0)
    else (lastSeen, 0)
  if !near && cfg.nearConfirm ≤ consecNear then (true, 0, lastSeen, .arrive)
  else if !near && gattUp then (true, 0, lastSeen, .arrive)
  else if near && expired cfg lastSeen now then (false, 0, lastSeen, .depart)
  else if near then (true, consecNear, lastSeen, .stayNear)
  else (near, consecNear, lastSeen, .none)

theorem presenceStep_cases (cfg : PresenceConfig) (near : Bool) (consecNear : Int) (lastSeen : Option Int) (now : Int)
    (seen : Bool) (rssi : Int) :
    let out := presenceStep cfg near consecNear lastSeen now seen rssi false
    out.2.2.1 = (if seen && cfg.nearRSSI ≤ rssi then some now else lastSeen) ∧
    (out.2.2.2 = .arrive ∧ near = false ∧ out.1 = true ∨ out.2.2.2 = .stayNear ∧ near = true ∧ out.1 = true ∨
      out.2.2.2 = .depart ∧ out.1 = false ∨ out.2.2.2 = .none ∧ near = false ∧ out.1 = false) := by
  unfold presenceStep
  cases near <;> cases hs : (seen && decide (cfg.nearRSSI ≤ rssi)) <;> dsimp only <;> split <;> simp_all <;> split <;> simp_all

theorem presenceStep_depart {cfg : PresenceConfig} {consecNear : Int} {lastSeen : Option Int} {now : Int} {seen : Bool} {rssi : Int}
    (h : expired cfg (presenceStep cfg true consecNear lastSeen now seen rssi false).2.2.1 now = true) :
    (presenceStep cfg true consecNear lastSeen now seen rssi false).2.2.2 = .depart := by
  rw [(presenceStep_cases cfg true consecNear lastSeen now seen rssi).1] at h
  unfold presenceStep
  cases hs : (seen && decide (cfg.nearRSSI ≤ rssi)) <;> simp_all

/-! ## State and events -/

inductive LoopPhase where
  /-- presenceLoop is starting a watcher. -/
  | starting
  /-- runPresenceWatcher runs. -/
  | watching
  /-- presenceLoop has returned. -/
  | stopped
  deriving DecidableEq, Repr

structure Watch where
  sess : Sess
  /-- The presence generation this loop runs for. -/
  generation : Nat
  near : Bool
  consecNear : Int
  lastSeen : Option Int
  peekErrors : Nat
  linkDownStreak : Nat
  phase : LoopPhase
  emitted : List EventKind
  clock : Int
  lastNear : Option Int
  deriving DecidableEq, Repr

/-- presenceLoop as it starts its first watcher; the locals are those that runPresenceWatcher starts with. -/
def Watch.start (sess : Sess) (t : Int) : Watch :=
  { sess, generation := sess.presenceGeneration, near := false, consecNear := 0, lastSeen := none, peekErrors := 0,
    linkDownStreak := 0, phase := .starting, emitted := [], clock := t, lastNear := none }

/-- A scan result; `rssi` is none for a cached device without one. -/
structure Beacon where
  rssi : Option Int
  deriving DecidableEq, Repr

/-- What else acts on the session. -/
inductive Errand where
  | request (w : World) (l : Line) (e : ServeEnv)
  /-- The idle timer, or a session error. -/
  | teardown
  deriving DecidableEq, Repr

def Sess.errand (s : Sess) : Errand → Sess
  | .request w l e => (serveLine w s l e).1
  | .teardown => s.teardown

structure Iteration where
  now : Int
  /-- When the scan returned. -/
  heard : Int
  disk : Disk
  /-- Dropped had fired before the turn. -/
  dropped : Bool := false
  /-- Dropped fires during the turn. -/
  lost : Bool := false
  /-- BlueZ's Connected property; none is a failed read. -/
  connected : Option Bool := some true
  /-- Requests and timers while the scanner waits. -/
  meanwhile : List Errand := []
  /-- None is a peek error. -/
  scan : Option (Option Beacon) := some none
  /-- A new watcher could be started after five peek errors. -/
  restarted : Bool := true
  /-- `connectBackoffActive`. -/
  backoff : Bool := false
  connect : ConnectEnv := {}
  /-- The VCSEC prime after the connect finds the session dropped. -/
  primeDrops : Bool := false
  deriving DecidableEq, Repr

inductive Beat where
  | errand (time : Int) (a : Errand)
  /-- presenceLoop starts a watcher, or fails to. -/
  | watch (time : Int) (started : Bool)
  | iterate (i : Iteration)
  deriving DecidableEq, Repr

/-! ## One turn of the loop -/

namespace Watch

def emit (s : Watch) (kind : EventKind) : Watch := { s with emitted := s.emitted ++ [kind] }

def emitDisconnected (s : Watch) : Watch := if s.sess.presence then s.emit .presenceDisconnected else s

/-- Tear the link down and say so. -/
def dropLink (s : Watch) : Watch := { s with sess := s.sess.teardown }.emitDisconnected

/-- `ctx.Err() != nil`: presence mode was stopped, or stopped and started again. -/
def cancelled (s : Watch) : Bool := !s.sess.presence || s.sess.presenceGeneration != s.generation

/-- Ghost: the link is up at time `t`. -/
def note (s : Watch) (t : Int) : Watch :=
  { s with clock := t, lastNear := if s.sess.car.isSome then some t else s.lastNear }

/-- The branch with the link up. -/
def gattTick (s : Watch) (i : Iteration) : Watch :=
  let s := { s with near := true, lastSeen := some i.now }
  if i.lost then { s.dropLink with linkDownStreak := 0 }
  else
    match i.connected with
    | none => s
    | some true => { s with linkDownStreak := 0 }
    | some false =>
      if 2 ≤ s.linkDownStreak + 1 then { s.dropLink with linkDownStreak := 0 }
      else { s with linkDownStreak := s.linkDownStreak + 1 }

/-- runPresenceWatcher returns to presenceLoop, and its locals are gone. -/
def leave (s : Watch) : Watch :=
  { s with phase := .starting, near := false, consecNear := 0, lastSeen := none, peekErrors := 0, linkDownStreak := 0 }

def peekError (s : Watch) (i : Iteration) : Watch :=
  let s := { s with peekErrors := s.peekErrors + 1 }
  if s.peekErrors < 5 then s
  else if i.restarted then { s with peekErrors := 0 }
  else (s.emit .presenceError).leave

/-- ensureConnectedLocked and the prime; `none` is no error. -/
def connectNow (s : Watch) (i : Iteration) : Watch × Bool :=
  let out := s.sess.ensureConnected i.disk none i.connect
  let s := { s with sess := out.1 }
  match out.2 with
  | .error _ => (s, false)
  | .ok () => if i.primeDrops then (s.dropLink, false) else (s, true)

/-- The arrive and stay branches. -/
def approach (cfg : PresenceConfig) (s : Watch) (i : Iteration) (live : Bool) (rssi : Int) : Watch :=
  if !(live && cfg.nearRSSI ≤ rssi) || i.backoff then s
  else
    match s.connectNow i with
    | (s, true) => s.emit .presenceNear
    | (s, false) => { s with near := false, consecNear := 0 }.emit .presenceError

def depart (s : Watch) : Watch := { s with sess := s.sess.teardown }.emit .presenceFar

/-- What the scan heard. -/
def live (b : Option Beacon) : Bool := (b.bind Beacon.rssi).isSome

def rssi (b : Option Beacon) : Int := (b.bind Beacon.rssi).getD 0

/-- An advertisement at or above nearRSSI. -/
def strong (cfg : PresenceConfig) (b : Option Beacon) : Bool := live b && cfg.nearRSSI ≤ rssi b

/-- From the scan result on. -/
def judge (cfg : PresenceConfig) (s : Watch) (i : Iteration) (b : Option Beacon) : Watch :=
  let out := presenceStep cfg s.near s.consecNear s.lastSeen i.now (live b) (rssi b) false
  let s := { s with near := out.1, consecNear := out.2.1, lastSeen := out.2.2.1 }
  match out.2.2.2 with
  | .arrive | .stayNear => s.approach cfg i (live b) (rssi b)
  | .depart => s.depart
  | .none => s

/-- The scanner waits. -/
def scanning (s : Watch) (i : Iteration) : Watch :=
  { s with linkDownStreak := 0, sess := i.meanwhile.foldl Sess.errand s.sess }

/-- The scan returned; ghost: that is when the advertisement was heard. -/
def hear (cfg : PresenceConfig) (s : Watch) (i : Iteration) (b : Option Beacon) : Watch :=
  { s with peekErrors := 0, clock := i.heard, lastNear := if strong cfg b then some i.heard else s.lastNear }

/-- The branch without a link. -/
def scanTick (cfg : PresenceConfig) (s : Watch) (i : Iteration) : Watch :=
  match i.scan with
  | none => (s.scanning i).peekError i
  | some b => ((s.scanning i).hear cfg i b).judge cfg i b

/-- The link as the top of the loop finds it. -/
def snapshot (s : Watch) (i : Iteration) : Watch := if s.sess.car.isSome && i.dropped then s.dropLink else s

def iterate (cfg : PresenceConfig) (s : Watch) (i : Iteration) : Watch :=
  if s.phase ≠ .watching then s
  else if s.cancelled then { s with phase := .stopped }
  else
    let s := (s.snapshot i).note i.now
    if s.sess.car.isSome then (s.gattTick i).note i.heard
    else (s.scanTick cfg i).note i.heard

/-- A turn of presenceLoop. -/
def watch (s : Watch) (t : Int) (started : Bool) : Watch :=
  if s.phase ≠ .starting then s
  else if s.cancelled then { s with phase := .stopped }
  else if started then { s with phase := .watching }.note t
  else (s.emit .presenceError).note t

def step (cfg : PresenceConfig) (s : Watch) : Beat → Watch
  | .errand t a => { s with sess := s.sess.errand a }.note t
  | .watch t started => s.watch t started
  | .iterate i => s.iterate cfg i

end Watch

end ElectricEel.Child
