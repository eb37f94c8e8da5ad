/-
  ElectricEel.Vehicle.Dispatcher — requests to the vehicle and their responses
  (vehicle-command/internal/dispatcher: dispatcher.go, session.go, receiver.go).

  Callers of Send, their receivers and the one listening goroutine run concurrently. A
  step is what one of them does under one lock: a sender begins, attempts to authorise its
  message, registers its receiver; the listener looks up a message's receiver, takes the
  session info in it, decrypts it, hands it over. Receivers are numbered in the order they were
  made, as the code's pointers tell them apart, so the listener may still hold one that was
  closed. `readySignal` is closed exactly when `ready` is set. The transport's outcome
  changes nothing here but that a failed Send closes its receiver.

  What a receiver was given and the counters its window accepted are kept, for the results
  to speak about (`delivered`, `accepted`), and the counters of the commands that were
  authorised (`issued`).
-/
import ElectricEel.Lib.Runs
import ElectricEel.Vehicle.Signer
import ElectricEel.Vehicle.Window

namespace ElectricEel.Vehicle

open Lib

inductive AuthMethod where
  | none
  | gcm
  | hmac
  deriving DecidableEq, Repr

/-- Addresses and UUIDs have the length of an epoch. -/
abbrev Uuid := EpochId

def uuidLength : Nat := 16

def addressLength : Nat := 16

def receiverBufferSize : Nat := 10

structure ReceiverKey where
  address : Uuid
  uuid : Uuid
  domain : Domain
  deriving DecidableEq

/-- A message handed to a receiver; `counter`: that of the response it was decrypted from. -/
structure Delivery where
  message : RoutableMessage
  counter : Option UInt32
  deriving DecidableEq

structure Receiver where
  key : ReceiverKey
  ch : List Delivery
  requestSentAt : Instant
  antireplay : SlidingWindow
  requestId : Option Bytes
  delivered : List Delivery
  accepted : List UInt32

def Receiver.new (key : ReceiverKey) (requestId : Option Bytes) (now : Instant) : Receiver :=
  { key, ch := [], requestSentAt := now, antireplay := .new, requestId, delivered := [], accepted := [] }

def Receiver.expired (r : Receiver) (lifetime : Int) (now : Instant) : Bool :=
  (r.requestSentAt.add lifetime).monotonic < now.monotonic

structure DispatchSession where
  ctx : Option Signer
  ready : Bool
  deriving DecidableEq

def DispatchSession.new : DispatchSession := { ctx := none, ready := false }

/-- A call of Send before its receiver is registered. -/
structure Sending where
  key : ReceiverKey
  message : RoutableMessage
  auth : AuthMethod
  authorized : Bool

/-- Where the listening goroutine is with a message; receivers by number. -/
inductive Listener where
  | idle
  | found (message : RoutableMessage) (id : Nat)
  | updated (message : RoutableMessage) (id : Nat)
  | decrypted (delivery : Delivery) (id : Nat)
  /-- A nil session was dereferenced. -/
  | panicked

structure Dispatcher where
  vin : Bytes
  hasKey : Bool
  address : Uuid
  maxLatency : Int
  listening : Bool
  sessions : Domain → Option DispatchSession
  handlers : ReceiverKey → Option Nat
  receivers : List Receiver
  sending : List Sending
  listener : Listener
  issued : List (Domain × UInt32)

inductive SendError where
  | notConnected
  | noDestinationDomain
  | noSession
  | requiresKey
  deriving DecidableEq, Repr

inductive Drop where
  | missingSource
  | invalidRequestUuid
  | missingDestination
  | toDomain
  | unrecognizedDestination
  | invalidAddress
  deriving DecidableEq, Repr

/-! ## Routing -/

/-- Responses of VCSEC are matched by address alone. -/
def receiverKey (message : RoutableMessage) : Except Drop ReceiverKey :=
  if message.fromDestination = none then .error .missingSource
  else
    let domain := Destination.getDomain message.fromDestination
    let requestUuid := message.requestUuid.getD []
    if requestUuid.length ≠ uuidLength ∧ requestUuid.length ≠ 0 then .error .invalidRequestUuid
    else
      let uuid := if domain ≠ domainVehicleSecurity then EpochId.zero.copy requestUuid else EpochId.zero
      match message.toDestination with
      | none => .error .missingDestination
      | some destination =>
        match destination.subDestination with
        | some (.domain _) => .error .toDomain
        | none => .error .unrecognizedDestination
        | some (.routingAddress addr) =>
          if addr.length ≠ addressLength then .error .invalidAddress
          else .ok { address := EpochId.zero.copy addr, uuid, domain }

/-- The request's key and addresses; `uuid` and `addr` are what the random source gave. -/
def prepare (d : Dispatcher) (message : RoutableMessage) (uuid addr : Uuid) : Except SendError (ReceiverKey × RoutableMessage) :=
  if d.listening then
    let domain := Destination.getDomain message.toDestination
    if domain = domainBroadcast then .error .noDestinationDomain
    else
      let vcsec := domain = domainVehicleSecurity
      let addr := if vcsec then addr else d.address
      let key := { address := addr, uuid := if vcsec then EpochId.zero else uuid, domain }
      .ok (key,
        { message with
          uuid := some uuid.1
          fromDestination := some { subDestination := some (.routingAddress addr.1) } })
  else .error .notConnected

namespace Dispatcher

def setReceiver (d : Dispatcher) (id : Nat) (r : Receiver) : Dispatcher := { d with receivers := d.receivers.set id r }

def setSession (d : Dispatcher) (domain : Domain) (s : DispatchSession) : Dispatcher :=
  { d with sessions := fun x => if x = domain then some s else d.sessions x }

/-! ## Senders -/

def begin (d : Dispatcher) (message : RoutableMessage) (auth : AuthMethod) (uuid addr : Uuid) : Dispatcher × Option SendError :=
  match prepare d message uuid addr with
  | .error e => (d, some e)
  | .ok (key, message) =>
    if auth = .none then ({ d with sending := d.sending ++ [⟨key, message, auth, true⟩] }, none)
    else
      match d.sessions key.domain with
      | some s =>
        if s.ready then ({ d with sending := d.sending ++ [⟨key, message, auth, false⟩] }, none) else (d, some .noSession)
      | none => (d, some .noSession)

def sessionInfoRequest (domain : Domain) (publicBytes : Bytes) : RoutableMessage :=
  { toDestination := some { subDestination := some (.domain domain) }
    fromDestination := none
    payload := some (.sessionInfoRequest publicBytes)
    subSigData := none
    signedMessageStatus := none
    requestUuid := none
    uuid := none
    flags := 0 }

def requestSessionInfo (d : Dispatcher) (domain : Domain) (publicBytes : Bytes) (uuid addr : Uuid) : Dispatcher × Option SendError :=
  if d.hasKey then d.begin (sessionInfoRequest domain publicBytes) .none uuid addr else (d, some .requiresKey)

/-- The session exists from here on; true: it was ready. -/
def startSession (d : Dispatcher) (domain : Domain) : Dispatcher × Bool :=
  match d.sessions domain with
  | none => (d.setSession domain .new, false)
  | some s => (d, s.ctx.isSome)

section

variable (P : Primitives)

def authorizeWith (ctx : Signer) (s : Sending) (lifetime : Int) (now : Instant) (random : RandomRead) :
    Signer × RoutableMessage × Option AuthError :=
  if s.auth = .gcm then ctx.encrypt P s.message lifetime now random else ctx.authorizeHmac P s.message lifetime now

/-- One turn of `authorize`'s loop, which goes on until an attempt succeeds. -/
def attempt (d : Dispatcher) (i : Nat) (lifetime : Int) (now : Instant) (random : RandomRead) : Dispatcher :=
  match d.sending[i]? with
  | none => d
  | some s =>
    if s.authorized then d
    else
      match d.sessions s.key.domain with
      | some ⟨some ctx, true⟩ =>
        let (ctx, message, err) := authorizeWith P ctx s lifetime now random
        let d := d.setSession s.key.domain { ctx := some ctx, ready := true }
        let issued := if err = none then (s.key.domain, ctx.peer.counter) :: d.issued else d.issued
        { d with sending := d.sending.set i { s with message, authorized := err = none }, issued }
      | _ => d

end

def register (d : Dispatcher) (i : Nat) (now : Instant) : Dispatcher :=
  match d.sending[i]? with
  | none => d
  | some s =>
    if s.authorized then
      { d with
        sending := d.sending.eraseIdx i
        receivers := d.receivers ++ [Receiver.new s.key (Vehicle.requestId s.message) now]
        handlers := fun key => if key = s.key then some d.receivers.length else d.handlers key }
    else d

def closeHandler (d : Dispatcher) (id : Nat) : Dispatcher :=
  match d.receivers[id]? with
  | none => d
  | some r => { d with handlers := fun key => if key = r.key then none else d.handlers key }

/-- The caller reads its channel. -/
def take (d : Dispatcher) (id : Nat) : Dispatcher :=
  match d.receivers[id]? with
  | none => d
  | some r => d.setReceiver id { r with ch := r.ch.tail }

def setMaxLatency (d : Dispatcher) (latency : Int) : Dispatcher := if latency > 0 then { d with maxLatency := latency } else d

/-! ## The listener -/

/-- A datagram that was parsed as `message`. -/
def receive (d : Dispatcher) (message : RoutableMessage) : Dispatcher :=
  match receiverKey message with
  | .error _ => d
  | .ok key =>
    match d.handlers key with
    | none => d
    | some id => { d with listener := .found message id }

section

variable (P : Primitives) (unmarshal : Bytes → Option SessionInfo) (exchange : Bytes → Except String Session)

/-- Verifies a session info; true: it was taken. -/
def processHello (vin : Bytes) (s : DispatchSession) (challenge : Option Bytes) (info tag : Bytes) (now : Instant) :
    DispatchSession × Bool :=
  match s.ctx with
  | none =>
    match newAuthenticatedSigner P unmarshal exchange vin challenge info tag now with
    | .error _ => (s, false)
    | .ok ctx => ({ ctx := some ctx, ready := true }, true)
  | some ctx =>
    match ctx.updateSignedSessionInfo P unmarshal challenge info tag now with
    | (ctx, some _) => ({ s with ctx := some ctx }, false)
    | (ctx, none) => ({ ctx := some ctx, ready := true }, true)

def checkForSessionUpdate (d : Dispatcher) (message : RoutableMessage) (handler : Receiver) (now : Instant) : Dispatcher :=
  match message.getSessionInfo with
  | none => d
  | some sessionInfo =>
    if d.hasKey = false then d
    else if handler.expired d.maxLatency now then d
    else
      match message.getSessionInfoTag with
      | none => d
      | some tag =>
        match d.sessions handler.key.domain with
        | none => d
        | some s => d.setSession handler.key.domain (processHello P unmarshal exchange d.vin s message.requestUuid sessionInfo tag now).1

inductive DecryptResult where
  | plain
  | decrypted (message : RoutableMessage) (counter : UInt32)
  | replayed
  | failed
  | panicked

/-- `decrypt`, the receiver's window last. -/
def decrypt (d : Dispatcher) (message : RoutableMessage) (handler : Receiver) : Receiver × DecryptResult :=
  match message.getAesGcmResponseData with
  | none => (handler, .plain)
  | some _ =>
    match d.sessions handler.key.domain with
    | none => (handler, .failed)
    | some s =>
      match s.ctx with
      | none => (handler, .panicked)
      | some ctx =>
        match ctx.decrypt P message handler.requestId with
        | (_, .error _) => (handler, .failed)
        | (message, .ok counter) =>
          match handler.antireplay.update counter with
          | (antireplay, false) => ({ handler with antireplay }, .replayed)
          | (antireplay, true) =>
            ({ handler with antireplay, accepted := counter :: handler.accepted }, .decrypted message counter)

/-- A full channel drops the message. -/
def deliver (handler : Receiver) (delivery : Delivery) : Receiver :=
  if handler.ch.length < receiverBufferSize then
    { handler with ch := handler.ch ++ [delivery], delivered := handler.delivered ++ [delivery] }
  else handler

/-- The listener's next step. -/
def listen (d : Dispatcher) (now : Instant) : Dispatcher :=
  match d.listener with
  | .found message id =>
    match d.receivers[id]? with
    | none => d
    | some handler => { d.checkForSessionUpdate P unmarshal exchange message handler now with listener := .updated message id }
  | .updated message id =>
    match d.receivers[id]? with
    | none => d
    | some handler =>
      match d.decrypt P message handler with
      | (_, .plain) => { d with listener := .decrypted ⟨message, none⟩ id }
      | (handler, .decrypted message counter) =>
        { d.setReceiver id handler with listener := .decrypted ⟨message, some counter⟩ id }
      | (handler, .replayed) => { d.setReceiver id handler with listener := .idle }
      | (_, .failed) => { d with listener := .idle }
      | (_, .panicked) => { d with listener := .panicked }
  | .decrypted delivery id =>
    match d.receivers[id]? with
    | none => d
    | some handler => { d.setReceiver id (deliver handler delivery) with listener := .idle }
  | .idle => d
  | .panicked => d

end

end Dispatcher

inductive DispatchEvent where
  | begin (message : RoutableMessage) (auth : AuthMethod) (uuid addr : Uuid)
  | requestSessionInfo (domain : Domain) (publicBytes : Bytes) (uuid addr : Uuid)
  | startSession (domain : Domain)
  | attempt (i : Nat) (lifetime : Int) (now : Instant) (random : RandomRead)
  /-- The caller's context is done. -/
  | abandon (i : Nat)
  | register (i : Nat) (now : Instant)
  | close (id : Nat)
  | take (id : Nat)
  | setMaxLatency (latency : Int)
  | receive (message : RoutableMessage)
  | listen (now : Instant)
  | stop

namespace Dispatcher

variable (P : Primitives) (unmarshal : Bytes → Option SessionInfo) (exchange : Bytes → Except String Session)

/-- A goroutine that died takes the process with it; the listener is busy between messages. -/
def enabled (d : Dispatcher) (e : DispatchEvent) : Bool :=
  match d.listener, e with
  | .panicked, _ => false
  | .idle, .receive _ => d.listening
  | _, .receive _ => false
  | .idle, .stop => true
  | _, .stop => false
  | _, _ => true

def act (d : Dispatcher) : DispatchEvent → Dispatcher
  | .begin message auth uuid addr => (d.begin message auth uuid addr).1
  | .requestSessionInfo domain publicBytes uuid addr => (d.requestSessionInfo domain publicBytes uuid addr).1
  | .startSession domain => (d.startSession domain).1
  | .attempt i lifetime now random => d.attempt P i lifetime now random
  | .abandon i => { d with sending := d.sending.eraseIdx i }
  | .register i now => d.register i now
  | .close id => d.closeHandler id
  | .take id => d.take id
  | .setMaxLatency latency => d.setMaxLatency latency
  | .receive message => d.receive message
  | .listen now => d.listen P unmarshal exchange now
  | .stop => { d with listening := false }

def step (d : Dispatcher) (e : DispatchEvent) : Dispatcher := if d.enabled e then d.act P unmarshal exchange e else d

/-- As `New` and `Start` leave it. -/
structure Started (d : Dispatcher) : Prop where
  sessions : ∀ domain, d.sessions domain = none
  handlers : ∀ key, d.handlers key = none
  receivers : d.receivers = []
  sending : d.sending = []
  listener : d.listener = .idle
  issued : d.issued = []

def machine : Machine Dispatcher DispatchEvent where
  init := Started
  step := step P unmarshal exchange

end Dispatcher

/-! ## A run -/

/-- To evaluate a run with: the key of a tag is left out. -/
def keylessPrimitives : Primitives := { openPrimitives with hmacSha256 := fun _ text => text }

def sampleStart : Dispatcher where
  vin := [86]
  hasKey := true
  address := EpochId.zero
  maxLatency := 4 * second
  listening := true
  sessions := fun _ => none
  handlers := fun _ => none
  receivers := []
  sending := []
  listener := .idle
  issued := []

def sampleInfo : SessionInfo := { counter := 20, publicKey := [3], epoch := [5], clockTime := 1, status := 0, handle := 0 }

def sampleSession : Session := { key := [1], localPublic := [2] }

/-- The UUIDs of the handshake and of the command. -/
def helloUuid : Uuid := ⟨List.replicate 16 1, List.length_replicate⟩

def commandUuid : Uuid := ⟨List.replicate 16 2, List.length_replicate⟩

def sampleResponse (uuid : Uuid) (payload : Payload) : RoutableMessage where
  toDestination := some { subDestination := some (.routingAddress EpochId.zero.1) }
  fromDestination := some { subDestination := some (.domain domainInfotainment) }
  payload := some payload
  subSigData := none
  signedMessageStatus := none
  requestUuid := some uuid.1
  uuid := none
  flags := 0

def sampleHello : RoutableMessage :=
  match sampleSession.sessionInfoHmac keylessPrimitives (some [86]) (some helloUuid.1) [30] with
  | .error _ => sampleResponse helloUuid (.sessionInfo [30])
  | .ok tag =>
    { sampleResponse helloUuid (.sessionInfo [30]) with
      subSigData := some { signerIdentity := none, sigType := some (.sessionInfoTag (some tag)) } }

def sampleCommand : RoutableMessage where
  toDestination := some { subDestination := some (.domain domainInfotainment) }
  fromDestination := none
  payload := some (.protobufMessageAsBytes [42])
  subSigData := none
  signedMessageStatus := none
  requestUuid := none
  uuid := none
  flags := 2

/-- The vehicle's answer to the command with that request id, `text` its plaintext. -/
def sampleSeal (id : Option Bytes) (text : Bytes) : RoutableMessage :=
  let message := sampleResponse commandUuid (.protobufMessageAsBytes text)
  match responseMetadata (samplePeer domainBroadcast) message id 1 with
  | .error _ => message
  | .ok m =>
    let (nonce, ciphertext, tag) := sampleSession.encrypt keylessPrimitives [9] text (keylessPrimitives.sha256 (m.checksum []))
    { message with
      payload := some (.protobufMessageAsBytes ciphertext)
      subSigData := some { signerIdentity := none, sigType := some (.aesGcmResponseData { nonce, counter := 1, tag }) } }

/-- The handshake. -/
def sampleHandshake : List DispatchEvent :=
  [.startSession domainInfotainment, .requestSessionInfo domainInfotainment [2] helloUuid EpochId.zero, .register 0 sampleInstant,
    .receive sampleHello, .listen sampleInstant, .listen sampleInstant, .listen sampleInstant]

/-- A command. -/
def sampleSend : List DispatchEvent :=
  [.begin sampleCommand .gcm commandUuid EpochId.zero,
    .attempt 0 (5 * second) sampleInstant { buffer := [7], err := none }, .register 0 sampleInstant]

abbrev sampleDispatch : Machine Dispatcher DispatchEvent :=
  Dispatcher.machine keylessPrimitives (fun _ => some sampleInfo) fun _ => .ok sampleSession

def sampleSent : Dispatcher := sampleDispatch.run sampleStart (sampleHandshake ++ sampleSend)

theorem sampleStart_started : sampleStart.Started := ⟨fun _ => rfl, fun _ => rfl, rfl, rfl, rfl, rfl⟩

end ElectricEel.Vehicle
