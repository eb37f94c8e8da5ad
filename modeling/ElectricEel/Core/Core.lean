/-
  ElectricEel.Core.Core — the control core (helper/src/core.rs).

  Every operation is a sequence of sections under `phone_key_gate`; each section is one
  function here. `pair`, `set_config`, `handle_resume` and `poll_phone_key_event` release
  the gate and go on with the section of `start_phone_key`; how sections of several
  callers interleave is Core.System's.

  `SectionEnv` is what the environment decides within one section: whether `ble_sem` is
  taken, what each `session.run` meets, which step of a write fails, what the children do
  meanwhile. The two pure argument checks and serde_json's reader are parameters (`Checks`):
  nothing here depends on what they accept. Log lines and the timeouts handed to
  `session.run` are left out; that a deadline passes is the environment's choice. An
  io::Error's own text is left out of the messages it ends.

  Ghosts: the one-shot binaries run, and the automatic restarts.
-/
import ElectricEel.Client.Session

namespace ElectricEel.Control

open Commands Wire Config Client

/-! ## Errors -/

inductive HelperError where
  | busy (text : String)
  | notConfigured (text : String)
  | noKey (text : String)
  | unknownCommand (text : String)
  | invalidArgument (text : String)
  | sessionUnavailable (text : String)
  deriving DecidableEq, Repr

/-- The part of `OperationError` that `start_phone_key` returns. -/
inductive StartError where
  | notPaired
  | noSession
  | requiresBluez
  | presenceFailed (text : String)
  deriving DecidableEq, Repr

def StartError.text : StartError → String
  | notPaired => "phone key is waiting for a configured VIN and completed pairing"
  | noSession => "persistent BLE session is unavailable"
  | requiresBluez => "automatic phone key requires the BlueZ backend"
  | presenceFailed text => text

inductive OperationError where
  | start (e : StartError)
  | keygenFailed (text : String)
  | config (e : ConfigError)
  | persist (e : IoError)
  | writePubkey (e : IoError)
  deriving DecidableEq, Repr

/-! ## Parameters and environment -/

/-- `Destination`, the coordinates as they are sent. -/
inductive Destination where
  | latLon (lat lon : String)
  | address (text : String)
  deriving DecidableEq, Repr

structure Checks where
  validateArgRanges : Cmd → List String → Except HelperError Unit
  /-- The error is ShareParseError's text. -/
  parseSharedText : String → Except String Destination
  /-- serde_json reads the document as a tree. -/
  builds : Lib.Json → Bool

/-- One run of tesla-keygen. -/
structure TeslaKeygenEnv where
  spawn : Bool := true
  key : Key := 0
  /-- private_key.pem exists and cannot be read. -/
  unreadable : Bool := false
  generate : Bool := true
  save : Option FsStep := none
  /-- What `-output` holds afterwards; none: it could not be created. -/
  output : Option Text := none
  /-- The deadline passes; what was written stays. -/
  killed : Bool := false
  stderr : String := ""
  deriving DecidableEq, Repr

structure StartEnv where
  /-- Between the two liveness checks. -/
  checking : List Move := []
  invalidating : List Move := []
  /-- Up to `session.run`'s liveness check. -/
  starting : List Move := []
  run : RunEnv := {}
  deriving DecidableEq, Repr

structure StopEnv where
  run : RunEnv := {}
  invalidating : List Move := []
  deriving DecidableEq, Repr

structure SectionEnv where
  /-- `ble_sem` is taken. -/
  busy : Bool := false
  save : Option FsStep := none
  stop : StopEnv := {}
  /-- After the stop, before the request. -/
  mid : List Move := []
  run : RunEnv := {}
  invalidating : List Move := []
  /-- The second invalidate of a key rotation. -/
  again : List Move := []
  pubSave : Option FsStep := none
  /-- What the one-shot tesla-control comes to. -/
  oneShot : RunOutcome := ⟨false, .str "", "", -1⟩
  teslaKeygen : TeslaKeygenEnv := {}
  start : StartEnv := {}
  deriving DecidableEq, Repr

/-! ## State -/

inductive OneShot where
  | control (common : List String) (cmd : Cmd) (args : List String)
  | keygen (force : Bool)
  deriving DecidableEq, Repr

/-- A process other than the session child, and what it came to. -/
structure OneShotRun where
  what : OneShot
  out : RunOutcome
  deriving DecidableEq, Repr

/-- One automatic restart: when it began and ended, and whether presence started. -/
structure Restart where
  began : Nat
  ended : Nat
  ok : Bool
  deriving DecidableEq, Repr

structure Core where
  cfg : Config
  /-- `session` is Some. -/
  session : Bool
  /-- The session client, and what lies outside the process. -/
  host : Host
  phoneKeyStarted : Bool
  phoneKeyEnabled : Bool
  phoneKeyRetryAt : Option Nat
  /-- Ghost. -/
  oneShots : List OneShotRun
  /-- Ghost. -/
  restarts : List Restart

namespace Core

def disk (c : Core) : Disk := c.host.world.disk

def now (c : Core) : Nat := c.host.world.now

def setHost (c : Core) (s : Host) : Core := { c with host := s }

def setWorld (c : Core) (w : World) : Core := c.setHost (c.host.setWorld w)

def moves (c : Core) (ms : List Move) : Core := c.setHost (c.host.moves ms)

/-! ## The session client, if there is one -/

def call (c : Core) (cmd : Cmd) (args : List String) : Call :=
  { cmd, args, vin := c.cfg.vin, connectTimeoutSec := c.cfg.connectTimeoutSec, commandTimeoutSec := c.cfg.commandTimeoutSec }

def sessionRun (c : Core) (cmd : Cmd) (args : List String) (e : RunEnv) : Core × Except SessionError RunOutcome :=
  let r := c.host.run (c.call cmd args) e
  (c.setHost r.1, r.2)

def invalidate (c : Core) (during : List Move) : Core := if c.session then c.setHost (c.host.invalidate during) else c

def clearEvents (c : Core) : Core := if c.session then c.setHost c.host.clearEvents else c

def isPresenceActive (c : Core) : Bool := c.session && c.host.isPresenceActive

def isAlive (c : Core) : Bool := c.session && c.host.isAlive

/-! ## Configuration -/

def saveConfig (c : Core) (cfg : Config) (fault : Option FsStep) : Core × Except IoError Unit :=
  let r := save cfg c.disk.config fault
  (c.setWorld (c.host.world.setConfig r.1), r.2)

/-- Core::new; the error is wrapped in SessionUnavailable. -/
def new (builds : Lib.Json → Bool) (w : World) (backend : Option Backend) (unreadable : Bool) (fault : Option FsStep) :
    World × Except IoError Core :=
  match load builds unreadable w.disk.config with
  | .error err => (w, .error err)
  | .ok cfg =>
    let migrates := cfg.version == .v0 && cfg.vinState == .unpaired && cfg.vin != "" && w.disk.keyFiles
    let cfg := if migrates then { cfg with vinState := .paired } else cfg
    let older := cfg.version.older
    let cfg := if older then { cfg with version := .current } else cfg
    let w := if migrates || older then w.setConfig (save cfg w.disk.config fault).1 else w
    (w, .ok { cfg, session := backend.isSome, host := ⟨.new (backend.getD .hci), w⟩, phoneKeyStarted := false,
              phoneKeyEnabled := false, phoneKeyRetryAt := none, oneShots := [], restarts := [] })

def seconds (n : Int) : String := toString n ++ "s"

def commonArgsLocked (c : Core) : Except HelperError (List String) :=
  if c.cfg.vin = "" then .error (.notConfigured "VIN is not set; call SetConfig first")
  else if c.disk.priv.isNone then .error (.noKey "no private key; call GenerateKey first")
  else
    .ok ["-ble", "-keyring-type", "file", "-key-file", "private_key.pem", "-key-name", c.cfg.keyName, "-vin", c.cfg.vin,
      "-connect-timeout", seconds c.cfg.connectTimeoutSec, "-command-timeout", seconds c.cfg.commandTimeoutSec]

/-! ## Phone key: start and stop -/

/-- VIN set, paired, and a key file. -/
def eligible (c : Core) : Bool := c.cfg.vin != "" && c.cfg.vinState == .paired && c.disk.priv.isSome

def schedulePhoneKeyRetry (c : Core) : Core := { c with phoneKeyRetryAt := some (c.now + 5000) }

/-- The section's end: what the presence-start request came to. -/
def presenceStarted (c : Core) : Except SessionError RunOutcome → Core × Except StartError Unit
  | .ok out =>
    if out.ok then ({ c with phoneKeyStarted := true, phoneKeyRetryAt := none }, .ok ())
    else ({ c with phoneKeyStarted := false }.schedulePhoneKeyRetry, .error (.presenceFailed (trim out.stderr)))
  | .error err => ({ c with phoneKeyStarted := false }.schedulePhoneKeyRetry, .error (.presenceFailed err.text))

/-- From the second liveness check on. -/
def startPresence (c : Core) (wasStarted : Bool) (e : StartEnv) : Core × Except StartError Unit :=
  let c := if wasStarted && !c.isPresenceActive then c.invalidate e.invalidating else c
  let c := { c with phoneKeyEnabled := true }.moves e.starting
  let r := c.sessionRun .presenceStart [] e.run
  r.1.presenceStarted r.2

def startPhoneKey (c : Core) (e : StartEnv) : Core × Except StartError Unit :=
  if c.phoneKeyStarted && c.isPresenceActive then (c, .ok ())
  else
    let wasStarted := c.phoneKeyStarted
    let c := { c with phoneKeyStarted := false }.moves e.checking
    if !c.eligible then (c, .error .notPaired)
    else if !c.session then (c, .error .noSession)
    else if c.host.client.bleBackend ≠ .bluez then (c, .error .requiresBluez)
    else c.startPresence wasStarted e

def stopPhoneKeyLocked (c : Core) (e : StopEnv) : Core :=
  let c := { c with phoneKeyEnabled := false, phoneKeyRetryAt := none }
  if !c.phoneKeyStarted then c
  else
    let c :=
      if c.session then
        match c.sessionRun .presenceStop [] e.run with
        | (c, .ok _) => c
        | (c, .error _) => c.invalidate e.invalidating
      else c
    { c with phoneKeyStarted := false }

/-- Core::drop. -/
def drop (c : Core) (e : SectionEnv) : Core := (c.stopPhoneKeyLocked e.stop).invalidate e.invalidating

/-! ## run -/

def runBinary (c : Core) (b : OneShot) (out : RunOutcome) : Core × RunOutcome := ({ c with oneShots := c.oneShots ++ [⟨b, out⟩] }, out)

def run (K : Checks) (c : Core) (cmd : Cmd) (args : List String) (e : SectionEnv) : Core × Except HelperError RunOutcome :=
  if !isKnownCommand cmd then (c, .error (.unknownCommand cmd.name))
  else
    match K.validateArgRanges cmd args with
    | .error err => (c, .error err)
    | .ok () =>
      if e.busy then (c, .error (.busy "another BLE command is in progress"))
      else
        match c.commonArgsLocked with
        | .error err => (c, .error err)
        | .ok common =>
          if c.session then
            match c.sessionRun cmd args e.run with
            | (c, .ok out) => (c, .ok out)
            | (c, .error err) =>
              if c.host.client.bleBackend = .bluez then
                (c, .error (.sessionUnavailable ("bluez persistent session failed for " ++ cmd.name ++ ": " ++ err.text)))
              else
                let r := c.runBinary (.control common cmd args) e.oneShot
                (r.1, .ok r.2)
          else
            let r := c.runBinary (.control common cmd args) e.oneShot
            (r.1, .ok r.2)

/-! ## share_destination -/

def Destination.args : Destination → List String
  | .latLon lat lon => ["gps", lat, lon]
  | .address text => ["address", text]

def shareDestination (K : Checks) (c : Core) (text : String) (e : SectionEnv) :
    Core × Except HelperError (Bool × Text × String) :=
  match K.parseSharedText text with
  | .error err => (c, .error (.invalidArgument err))
  | .ok dest =>
    if e.busy then (c, .error (.busy "another BLE command is in progress"))
    else if c.cfg.vin = "" then (c, .error (.notConfigured "VIN is not set; call SetConfig first"))
    else if !c.session then (c, .error (.sessionUnavailable "persistent BLE session is unavailable"))
    else
      match c.sessionRun .navigate (Destination.args dest) e.run with
      | (c, .ok out) => (c, .ok (out.ok, out.stdout, out.stderr))
      | (c, .error err) => (c, .error (.sessionUnavailable ("navigation share failed: " ++ err.text)))

/-! ## generate_key -/

/-- `str::trim`; a PEM text has no blanks around it but its final newline. -/
def trimText : Text → Text
  | .pem k => .pem k
  | .str s => .str (trim s)

/-- tesla-keygen create: the private key it leaves, and the key it prints. -/
def teslaKeygenKey (w : World) (force : Bool) (e : TeslaKeygenEnv) : World × Option Key :=
  let fresh :=
    if !e.generate then (w, none)
    else
      match writeAtomic w.disk.priv (some (.key e.key)) e.save with
      | (file, .ok ()) => (w.setPriv file, some e.key)
      | (file, .error _) => (w.setPriv file, none)
  if force then fresh
  else
    match w.disk.priv with
    | none => fresh
    | some (.key k) => (w, if e.unreadable then none else some k)
    | some .junk => (w, none)

def teslaKeygen (w : World) (force : Bool) (e : TeslaKeygenEnv) : World × RunOutcome :=
  if !e.spawn then (w, ⟨false, .str "", "", -1⟩)
  else
    match teslaKeygenKey w force e with
    | (w, none) => (w, ⟨false, .str "", e.stderr, if e.killed then -1 else 1⟩)
    | (w, some _) =>
      match e.output with
      | none => (w, ⟨false, .str "", e.stderr, if e.killed then -1 else 1⟩)
      | some text => (w.setPub (some text), ⟨!e.killed, .str "", e.stderr, if e.killed then -1 else 0⟩)

/-- tesla-keygen, and public_key.pem read back. -/
def generateKeyOneShot (c : Core) (force : Bool) (e : SectionEnv) : Core × Except OperationError Text :=
  let r := teslaKeygen c.host.world force e.teslaKeygen
  let c := { (c.setWorld r.1) with oneShots := c.oneShots ++ [⟨.keygen force, r.2⟩] }
  if !r.2.ok then (c, .error (.keygenFailed (trim r.2.stderr)))
  else
    match c.disk.pub with
    | some pub => (c, .ok (trimText pub))
    | none => (c, .error (.keygenFailed "No such file or directory"))

/-- The keygen request, and the public half written to public_key.pem. -/
def keygen (c : Core) (force : Bool) (e : SectionEnv) : Core × Except OperationError Text :=
  if !c.session then c.generateKeyOneShot force e
  else
    match c.sessionRun .keygen (if force then ["-f"] else []) e.run with
    | (c, .error err) => (c, .error (.keygenFailed err.text))
    | (c, .ok out) =>
      if !out.ok then (c, .error (.keygenFailed (trim out.stderr)))
      else
        match writeAtomic c.disk.pub (some (trimText out.stdout)) e.pubSave with
        | (file, .error err) => (c.setWorld (c.host.world.setPub file), .error (.writePubkey err))
        | (file, .ok ()) => (c.setWorld (c.host.world.setPub file), .ok (trimText out.stdout))

/-- The enrollment reset is persisted before anything destructive. -/
def resetEnrollment (c : Core) (e : SectionEnv) : Core × Except IoError Unit :=
  let candidate := { c.cfg with vinState := .unpaired }
  match c.saveConfig candidate e.save with
  | (c, .error err) => (c, .error err)
  | (c, .ok ()) => ({ (c.stopPhoneKeyLocked e.stop) with cfg := candidate }.invalidate e.invalidating, .ok ())

def generateKey (c : Core) (force : Bool) (e : SectionEnv) : Core × Except OperationError Text :=
  match ensureWritable c.cfg with
  | .error err => (c, .error (.persist err))
  | .ok () =>
    if force || c.disk.priv.isNone then
      match c.resetEnrollment e with
      | (c, .error err) => (c, .error (.persist err))
      | (c, .ok ()) =>
        match c.keygen force e with
        | (c, .error err) => (c, .error err)
        | (c, .ok pubkey) => (c.invalidate e.again, .ok pubkey)
    else c.keygen force e

/-! ## pair -/

abbrev PairReply := Except HelperError (Bool × Text × String)

/-- The first section: its reply, or the confirmed request's stdout. -/
inductive PairStep where
  | done (r : PairReply)
  | confirmed (stdout : Text)

/-- `candidate.save` with the state Paired. -/
def persistPaired (c : Core) (stdout : Text) (e : SectionEnv) : Core × PairStep :=
  let candidate := { c.cfg with vinState := .paired }
  match c.saveConfig candidate e.save with
  | (c, .error _) => (c, .done (.error (.sessionUnavailable "paired key but could not persist phone-key state")))
  | (c, .ok ()) => ({ c with cfg := candidate }, .confirmed stdout)

def pairSection (c : Core) (e : SectionEnv) : Core × PairStep :=
  if e.busy then (c, .done (.ok (false, .str "", "another BLE command is in progress")))
  else if !c.session then
    (c, .done (.error (.sessionUnavailable "pairing requires a persistent session to confirm NFC enrollment")))
  else
    match ensureWritable c.cfg with
    | .error _ =>
      (c, .done (.error (.sessionUnavailable
        "config schema is newer than this build; update the app before changing settings or keys")))
    | .ok () =>
      let c := (c.stopPhoneKeyLocked e.stop).moves e.mid
      match c.commonArgsLocked with
      | .error err => (c, .done (.error err))
      | .ok _ =>
        if c.disk.pub.isNone then (c, .done (.ok (false, .str "", "no public key on file; call GenerateKey first")))
        else
          match c.sessionRun .pair [World.publicKeyPath, "owner", "android_device"] e.run with
          | (c, .error err) =>
            (c, .done (.error (.sessionUnavailable ("persistent session failed during pairing: " ++ err.text))))
          | (c, .ok out) =>
            if !out.ok then (c, .done (.ok (false, out.stdout, trim out.stderr))) else c.persistPaired out.stdout e

def pair (c : Core) (e : SectionEnv) : Core × PairReply :=
  match c.pairSection e with
  | (c, .done r) => (c, r)
  | (c, .confirmed stdout) =>
    match c.startPhoneKey e.start with
    | (c, .error err) => (c, .ok (false, stdout, "paired, but automatic phone key could not start: " ++ err.text))
    | (c, .ok ()) => (c, .ok (true, stdout, ""))

/-! ## set_config -/

structure ConfigRequest where
  vin : String
  model : String
  keyName : String
  connectTimeoutSec : Int
  commandTimeoutSec : Int
  deriving DecidableEq, Repr

def candidate (c : Core) (r : ConfigRequest) : Config :=
  { c.cfg with
    vin := trim r.vin, model := toAsciiLowercase (trim r.model), keyName := trim r.keyName,
    connectTimeoutSec := r.connectTimeoutSec, commandTimeoutSec := r.commandTimeoutSec,
    vinState := if c.cfg.vin ≠ trim r.vin then .unpaired else c.cfg.vinState }

/-- The first section; whether presence is started again. -/
def setConfigSection (c : Core) (r : ConfigRequest) (e : SectionEnv) : Core × Except OperationError Bool :=
  match validateConfig r.vin r.model r.keyName r.connectTimeoutSec r.commandTimeoutSec with
  | .error err => (c, .error (.config err))
  | .ok () =>
    let candidate := c.candidate r
    let vinChanged := c.cfg.vin ≠ trim r.vin
    match c.saveConfig candidate e.save with
    | (c, .error err) => (c, .error (.persist err))
    | (c, .ok ()) =>
      ({ (c.stopPhoneKeyLocked e.stop) with cfg := candidate }.invalidate e.invalidating, .ok (!vinChanged))

def setConfig (c : Core) (r : ConfigRequest) (e : SectionEnv) : Core × Except OperationError Unit :=
  match c.setConfigSection r e with
  | (c, .error err) => (c, .error err)
  | (c, .ok false) => (c, .ok ())
  | (c, .ok true) => ((c.startPhoneKey e.start).1, .ok ())

/-! ## handle_resume -/

def handleResumeSection (c : Core) (e : SectionEnv) : Core :=
  ({ c with phoneKeyStarted := false }.clearEvents.moves e.mid).invalidate e.invalidating

def handleResume (c : Core) (e : SectionEnv) : Core := ((c.handleResumeSection e).startPhoneKey e.start).1

/-! ## poll_phone_key_event -/

def pollEvent (c : Core) : Core × Option Entry :=
  if c.session then (c.setHost c.host.pollEvent.1, c.host.pollEvent.2) else (c, none)

def retryDue (c : Core) : Bool := c.phoneKeyRetryAt.any (· ≤ c.now)

/-- The entry popped, or the synthetic one of a due retry; its VIN filled in. -/
def polledEvent (c : Core) (popped : Option Entry) (due : Bool) : Option Entry :=
  let event :=
    if popped.isNone && due && c.phoneKeyEnabled then
      some ⟨{ kind := .presenceStopped, vin := c.cfg.vin }, .timer⟩
    else popped
  event.map fun x => if x.ev.vin = "" then { x with ev := { x.ev with vin := c.cfg.vin } } else x

/-- The poll's section under the gate; whether it goes on to restart. -/
def pollGate (c : Core) (during : List Move) : Core × Bool :=
  let c := { c with phoneKeyStarted := false }
  if !c.phoneKeyEnabled then (c, false)
  else if c.phoneKeyRetryAt.any (c.now < ·) then (c, false)
  else (c.invalidate during, true)

/-- The poll's `start_phone_key`. -/
def restart (c : Core) (e : StartEnv) : Core × Except StartError Unit :=
  let r := c.startPhoneKey e
  ({ r.1 with restarts := r.1.restarts ++ [⟨c.now, r.1.now, r.2.toBool⟩] }, r.2)

/-- What the poll returns after its restart. -/
def restartedEvent (ev : SessionEvent) : Except StartError Unit → SessionEvent
  | .ok () => { ev with kind := .presenceRestarted, error := "" }
  | .error err => if err.text = "" then ev else { ev with error := err.text }

structure PollEnv where
  /-- Between the pop and the reads of the two flags. -/
  reading : List Move := []
  judging : List Move := []
  /-- Until the gate is taken. -/
  waiting : List Move := []
  invalidating : List Move := []
  /-- Between the two sections. -/
  between : List Move := []
  start : StartEnv := {}
  deriving DecidableEq, Repr

def pollPhoneKeyEvent (c : Core) (e : PollEnv) : Core × Option SessionEvent :=
  let popped := c.pollEvent.2
  let c := c.pollEvent.1.moves e.reading
  let due := c.retryDue
  let c := c.moves e.judging
  match c.polledEvent popped due with
  | none => (c, none)
  | some x =>
    if x.ev.kind ≠ .presenceStopped then (c, some x.ev)
    else
      match (c.moves e.waiting).pollGate e.invalidating with
      | (c, false) => (c, some x.ev)
      | (c, true) =>
        let r := (c.moves e.between).restart e.start
        (r.1, some (restartedEvent x.ev r.2))

end Core

end ElectricEel.Control
