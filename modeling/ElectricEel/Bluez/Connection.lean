/-
  ElectricEel.Bluez.Connection — a GATT link's receiver and its end (bluez/connection.go
  `rxLoop`, `handleSignal`, `Close`), and the D-Bus calls that leave something behind.

  rxLoop takes signals from the link's channel, oldest first, and hands complete messages
  over one at a time (Bluez.Framing). Close may be called from anywhere, any number of
  times; the first call does the work and the others wait for it (`closeOnce`). It goes
  past `<-c.loopDone` when rxLoop has returned, and then makes its calls one after the
  other, each ending as the bus likes.

  The bus keeps this process's match rules as a list: AddMatch adds one more, RemoveMatch
  takes one away, and is refused where there is none.
-/
import ElectricEel.Bluez.Framing
import ElectricEel.Bluez.Signals

namespace ElectricEel.Bluez

open Framing (Bytes Link)

/-! ## The bus -/

def bluezService : String := "org.bluez"
def propsIface : String := "org.freedesktop.DBus.Properties"
def deviceIface : String := "org.bluez.Device1"
def gattChrIface : String := "org.bluez.GattCharacteristic1"

inductive Scope where
  | pathNamespace (path : Path)
  | objectPath (path : Path)
  deriving DecidableEq, Repr

structure Rule where
  sender : String
  iface : String
  member : String
  scope : Scope
  deriving DecidableEq, Repr

def propertiesChanged (scope : Scope) : Rule := { sender := bluezService, iface := propsIface, member := "PropertiesChanged", scope }

/-- `match` of the RX characteristic. -/
def rxMatch (rxPath : Path) : Rule := propertiesChanged (.pathNamespace rxPath)

def deviceMatch (devPath : Path) : Rule := propertiesChanged (.objectPath devPath)

/-- What is kept of the calls; a method call when it is issued, a rule's when it is answered. -/
inductive Call where
  /-- tryConnect begins. -/
  | attempt
  /-- Adapter1.Discovering was read. -/
  | discovering (b : Bool)
  | connect
  | disconnect
  | startNotify
  | stopNotify
  | addMatch (rule : Rule) (ok : Bool)
  | removeMatch (rule : Rule) (ok : Bool)
  | subscribe (ch : Nat)
  | unsubscribe (ch : Nat)
  deriving DecidableEq, Repr

/-- `log`: newest first. -/
structure Bus where
  rules : List Rule
  log : List Call := []
  deriving DecidableEq, Repr

namespace Bus

def note (b : Bus) (call : Call) : Bus := { b with log := call :: b.log }

def addMatch (b : Bus) (rule : Rule) (ok : Bool) : Bus :=
  { b with rules := if ok then rule :: b.rules else b.rules }.note (.addMatch rule ok)

/-- `ok`: the bus would remove the rule, had it one. -/
def removeMatch (b : Bus) (rule : Rule) (ok : Bool) : Bus :=
  { b with rules := if ok then b.rules.erase rule else b.rules }.note (.removeMatch rule (ok && b.rules.contains rule))

end Bus

/-! ## The connection -/

/-- What rxLoop finds in its channel. -/
inductive Notice where
  /-- PropertiesChanged: the changed Value and Connected, where they decode. -/
  | changed (path : Path) (iface : String) (value : Option Bytes) (connected : Option Bool)
  /-- nil, or a body that does not decode. -/
  | other
  deriving DecidableEq, Repr

structure Gatt where
  devPath : Path
  svcPath : Path
  txPath : Path
  rxPath : Path
  deriving DecidableEq, Repr

inductive RxLoop where
  | select
  /-- In rx's loop. -/
  | flushing
  | ended
  deriving DecidableEq, Repr

/-- Where Close stands: `done` is closed from the first call on. -/
inductive Closing where
  | notYet
  | joining
  | stopNotify
  | disconnect
  | removeMatch
  | removeDeviceMatch
  | closed
  deriving DecidableEq, Repr

structure Connection where
  gatt : Gatt
  blockLength : Nat
  signalCh : Nat
  /-- In the channel. -/
  queue : List Notice
  /-- The channel is closed. -/
  hungUp : Bool
  link : Link := {}
  loop : RxLoop := .select
  /-- `dropped` is closed. -/
  dropped : Bool := false
  closing : Closing := .notYet
  deriving DecidableEq, Repr

namespace Connection

def notifyDropped (c : Connection) : Connection := { c with dropped := true }

/-- Up to rx's loop. -/
def append (c : Connection) (now : Nat) (p : Bytes) : Connection :=
  { c with link := c.link.append now p, loop := .flushing }

def handleSignal (c : Connection) (now : Nat) : Notice → Connection
  | .changed path iface value connected =>
    if path = c.gatt.devPath then (if iface = deviceIface ∧ connected = some false then c.notifyDropped else c)
    else if path = c.gatt.rxPath ∧ iface = gattChrIface then
      match value with
      | some b => c.append now b
      | none => c
    else c
  | .other => c

/-- rxLoop takes a signal. -/
def take (c : Connection) (now : Nat) : Connection :=
  match c.loop, c.queue with
  | .select, sig :: rest => { c with queue := rest }.handleSignal now sig
  | _, _ => c

/-- rxLoop finds `done` closed, or the channel. -/
def quit (c : Connection) : Connection :=
  match c.loop with
  | .select =>
    if c.closing ≠ .notYet then { c with loop := .ended }
    else if c.hungUp ∧ c.queue = [] then { c.notifyDropped with loop := .ended }
    else c
  | _ => c

/-- `connector.BufferSize`. -/
def bufferSize : Nat := 5

def flush (c : Connection) : Connection :=
  match c.loop with
  | .flushing =>
    match c.link.flush bufferSize with
    | (link, true) => { c with link }
    | (link, false) => { c with link, loop := .select }
  | _ => c

def receive (c : Connection) : Connection := { c with link := c.link.step bufferSize .receive }

/-- A call of Close: only the first does anything. -/
def close (c : Connection) : Connection := if c.closing = .notYet then { c.notifyDropped with closing := .joining } else c

/-- Past `<-c.loopDone`. -/
def joined (c : Connection) : Bool := c.closing == .joining && c.loop == .ended

/-- The subscription is released and StopNotify issued. -/
def release (c : Connection) (b : Bus) : Bus := (b.note (.unsubscribe c.signalCh)).note .stopNotify

/-- The call Close is in has ended, `ok` or not. -/
def answer (c : Connection) (b : Bus) (ok : Bool) : Connection × Bus :=
  match c.closing with
  | .stopNotify => ({ c with closing := .disconnect }, b.note .disconnect)
  | .disconnect => ({ c with closing := .removeMatch }, b)
  | .removeMatch => ({ c with closing := .removeDeviceMatch }, b.removeMatch (rxMatch c.gatt.rxPath) ok)
  | .removeDeviceMatch => ({ c with closing := .closed }, b.removeMatch (deviceMatch c.gatt.devPath) ok)
  | _ => (c, b)

end Connection

end ElectricEel.Bluez
