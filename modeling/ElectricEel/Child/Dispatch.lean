/-
  ElectricEel.Child.Dispatch — one request in the session child (main.go `dispatch`,
  `dispatchKeygen`, `dispatchPresenceStart/Stop`, pairing.go, navigate.go, serve.go).

  `ServeEnv` is everything the environment decides while one request runs: how the
  connect goes, what the handler's radio exchange returns, when the driver taps the card,
  which step of SavePrivateKey fails. `serveLine` is one round of `serveConn`'s loop.

  Proved: every branch of `dispatch` answers with the request's id (`dispatch_id`); a pair
  request answered OK means public and private key agree and the vehicle listed that key
  as enrolled, only such a request adds to `confirmed`, and only a keygen request writes
  the private key, without -f only where there is none (`dispatch_effect`).
-/
import ElectricEel.Child.Connect

namespace ElectricEel.Child

open Commands Wire Config

/-! ## The goroutines beside the request loop -/

inductive Own where
  /-- The presence loop connects. -/
  | connect (e : ConnectEnv)
  /-- A dropped link, a departure, the idle timer or an expired session. -/
  | teardown
  /-- The presence loop returns by itself. -/
  | loopExit
  deriving DecidableEq, Repr

def Sess.own (disk : Disk) (s : Sess) : Own → Sess
  | .connect e => if s.presence then (s.ensureConnected disk none e).1 else s
  | .teardown => s.teardown
  | .loopExit => { s with presence := false }

@[simp] theorem Sess.own_vin (disk : Disk) (s : Sess) (o : Own) : (s.own disk o).vin = s.vin := by
  cases o with
  | connect e =>
    show (if s.presence then (s.ensureConnected disk none e).1 else s).vin = s.vin
    split
    · exact Sess.ensureConnected_vin disk s none e
    · rfl
  | teardown => rfl
  | loopExit => rfl

/-! ## What the environment decides -/

/-- How `execute`'s error is classified by `dispatch`. -/
inductive ExecErr where
  | mayHaveSucceeded (text : String)
  | noSession
  | failed (text : String)
  deriving DecidableEq, Repr

structure ExecEnv where
  /-- The handler rejects its arguments before sending anything. -/
  argErr : Option String := none
  /-- What the vehicle's answer comes to. -/
  err : Option ExecErr := none
  stdout : String := ""
  stderr : String := ""
  deriving DecidableEq, Repr

/-- One round of `waitForEnrollment`. -/
structure Attempt where
  /-- The driver taps the card before this round. -/
  tap : Bool
  /-- SessionInfo's transport error. -/
  info : Option String := none
  /-- StartSession's error once the key is listed. -/
  auth : Option String := none
  deriving DecidableEq, Repr

structure KeygenEnv where
  /-- The new key. -/
  key : Key := 0
  /-- private_key.pem cannot be read, for a reason other than its absence. -/
  unreadable : Option String := none
  /-- Generating or encoding the key fails. -/
  generate : Option String := none
  save : Option FsStep := none
  deriving DecidableEq, Repr

structure NavigateEnv where
  /-- The shape, range or length check that rejects the arguments. -/
  shape : Option String := none
  /-- What the other goroutines do between the two critical sections. -/
  between : List Own := []
  err : Option String := none
  deriving DecidableEq, Repr

structure ServeEnv where
  connect : ConnectEnv := {}
  exec : ExecEnv := {}
  enroll : List Attempt := []
  keygen : KeygenEnv := {}
  navigate : NavigateEnv := {}
  /-- `parsePresenceArgs`' error. -/
  presenceArgs : Option String := none
  /-- The key in a file other than public_key.pem that a request names. -/
  elsewhere : Option Key := none
  deriving DecidableEq, Repr

/-! ## keygen -/

/-- The part of `dispatchKeygen` after the reuse check: generate, encode, SavePrivateKey. -/
def keygenFresh (w : World) (s : Sess) (req : Request) (force : Bool) (e : KeygenEnv) : Sess × World × Response :=
  match e.generate with
  | some err => (s, w, { id := req.id, stderr := err, exitCode := 1 })
  | none =>
    match writeAtomic w.disk.priv (some (.key e.key)) e.save with
    | (file, .error _) => (s, w.setPriv file, { id := req.id, stderr := "Failed to save private key", exitCode := 1 })
    | (file, .ok ()) =>
      (if force then s.stopPresence.teardown else s, w.setPriv file, { id := req.id, ok := true, stdout := .pem e.key })

def dispatchKeygen (w : World) (s : Sess) (req : Request) (e : KeygenEnv) : Sess × World × Response :=
  if req.args.contains "-f" then keygenFresh w s req true e
  else
    match w.disk.priv, e.unreadable with
    | none, _ => keygenFresh w s req false e
    | some _, some err =>
      (s, w, { id := req.id, stderr := "cannot reuse existing private key: " ++ err ++ "; use -f to replace it", exitCode := 1 })
    | some .junk, none =>
      (s, w, { id := req.id, stderr := "cannot reuse existing private key; use -f to replace it", exitCode := 1 })
    | some (.key k), none => (s, w, { id := req.id, ok := true, stdout := .pem k })

/-! ## Presence -/

def dispatchPresenceStart (s : Sess) (req : Request) (argErr : Option String) : Sess × Response :=
  match argErr with
  | some err => (s, { id := req.id, stderr := err ++ "\n", exitCode := 2 })
  | none =>
    if s.bleBackend ≠ .bluez then
      (s, { id := req.id, stderr := "presence mode requires -ble-backend=bluez\n", exitCode := 1 })
    else if s.presence then (s, { id := req.id, ok := true, stdout := .str "presence mode already running\n" })
    else
      ({ s with presence := true, presenceGeneration := s.presenceGeneration + 1 },
        { id := req.id, ok := true, stdout := .str "presence mode started\n" })

def dispatchPresenceStop (s : Sess) (req : Request) : Sess × Response :=
  (s.stopPresence.teardown, { id := req.id, ok := true, stdout := .str "presence mode stopped\n" })

/-! ## navigate -/

def dispatchNavigate (w : World) (s : Sess) (req : Request) (c : ConnectEnv) (e : NavigateEnv) : Sess × Response :=
  match e.shape with
  | some err => (s, { id := req.id, stderr := "navigate: " ++ err ++ "\n", exitCode := 2 })
  | none =>
    -- the presence-mode pseudo command, not a general-purpose session
    match s.ensureConnected w.disk none c with
    | (s', .error err) => (s', { id := req.id, stderr := "navigate: " ++ err ++ "\n", exitCode := 1 })
    | (s', .ok ()) =>
      let s' := e.between.foldl (Sess.own w.disk) s'
      match s'.car, e.err with
      | none, _ => (s', { id := req.id, stderr := "navigate: session lost\n", exitCode := 1 })
      | some link, err =>
        match if Domain.infotainment ∈ link.handshakes then err else some "no session" with
        | some err => (s', { id := req.id, stderr := "navigate: " ++ err ++ "\n", exitCode := 1 })
        | none => (s', { id := req.id, ok := true, stdout := .str "navigation started\n" })

/-! ## Ordinary commands -/

def arityErr (n : Nat) (info : Command) : String :=
  "Invalid number of command line arguments: " ++ toString (n + 1) ++ " (" ++ toString info.args ++ " required, " ++
    toString info.optional ++ " optional).\n"

/-- `execute(ctx, nil, s.car, args)`: stderr and the error. An authenticated message to a
    domain without a started session gets ErrNoSession. -/
def execute (s : Sess) (cmd : Cmd) (args : List String) (e : ExecEnv) : String × Option ExecErr :=
  match cmd with
  | .vendor v =>
    let info := commands v
    if info.requiresFleetAPI then ("", some (.failed "command requires a FleetAPI OAuth token"))
    else if args.length < info.args ∨ args.length > info.args + info.optional then
      (arityErr args.length info, some (.failed "invalid command line arguments"))
    else
      match e.argErr with
      | some err => (e.stderr, some (.failed err))
      | none =>
        match v.sends, s.car with
        | some d, some link => if d ∈ link.handshakes then (e.stderr, e.err) else (e.stderr, some .noSession)
        | some _, none => (e.stderr, some .noSession)
        | none, _ => (e.stderr, e.err)
  | _ => ("", some (.failed "unrecognized command"))

/-- The vehicle's whitelist when a round asks for it. -/
def Attempt.tapped (a : Attempt) (w : World) (vin : String) (key : Key) : World := if a.tap then w.enroll vin key else w

/-- `waitForEnrollment`: rounds until the vehicle lists the key, or the grace period is over. -/
def waitForEnrollment (w : World) (vin : String) (key : Key) (own : Bool) : List Attempt → World × Option String
  | [] => (w, some "NFC enrollment was not confirmed: context deadline exceeded")
  | a :: rest =>
    if a.info = none ∧ (vin, key) ∈ (a.tapped w vin key).whitelist ∧ (own → a.auth = none) then (a.tapped w vin key, none)
    else waitForEnrollment (a.tapped w vin key) vin key own rest

def confirmEnrollment (w : World) (s : Sess) (path : String) (e : ServeEnv) : World × Option String :=
  match w.loadPublicKey path e.elsewhere, w.disk.privateKey with
  | none, _ => (w, some "cannot load public key")
  | some _, none => (w, some "cannot load private key")
  | some k, some own => waitForEnrollment w s.vin k (k = own) e.enroll

def respond (id stdout stderr : String) : Option ExecErr → Response
  | none => { id, ok := true, stdout := .str stdout, stderr }
  | some (.mayHaveSucceeded text) =>
    { id, stdout := .str stdout, stderr := stderr ++ "Couldn't verify success: " ++ text ++ "\n", exitCode := 1 }
  | some .noSession =>
    { id, stdout := .str stdout, exitCode := 1,
      stderr := stderr ++ "You must provide a private key with -key-name or -key-file to execute this command\n" }
  | some (.failed text) =>
    { id, stdout := .str stdout, stderr := stderr ++ "Failed to execute command: " ++ text ++ "\n", exitCode := 1 }

/-- The connect-and-execute path at the end of `dispatch`. -/
def dispatchCommand (w : World) (s : Sess) (req : Request) (e : ServeEnv) : Sess × World × Response :=
  match s.ensureConnected w.disk (some req.cmd) e.connect with
  | (s', .error err) => (s', w, { id := req.id, stderr := err, exitCode := 1 })
  | (s', .ok ()) =>
    let out := execute s' req.cmd req.args e.exec
    if withoutSession (some req.cmd) then
      match out.2 with
      | some err => (s'.teardown, w, respond req.id e.exec.stdout out.1 (some err))
      | none =>
        let done := confirmEnrollment w s' (req.args.headD "") e
        (s'.teardown, done.1, respond req.id e.exec.stdout out.1 (done.2.map .failed))
    else (s', w, respond req.id e.exec.stdout out.1 out.2)

/-! ## pair -/

/-- The request is checked, rewritten to add-key-request and dispatched again. -/
def dispatchPair (w : World) (s : Sess) (req : Request) (e : ServeEnv) : Sess × World × Response :=
  match req.args with
  | [path, _, _] =>
    match w.loadPublicKey path e.elsewhere, w.disk.privateKey with
    | none, _ => (s, w, { id := req.id, stderr := "cannot load pairing public key", exitCode := 2 })
    | some _, none => (s, w, { id := req.id, stderr := "cannot load pairing private key", exitCode := 2 })
    | some k, some own =>
      if k = own then
        let done := dispatchCommand w s { req with cmd := .vendor .addKeyRequest } e
        -- the ghost record of a confirmed enrollment
        (done.1, if done.2.2.ok then done.2.1.confirm s.vin k else done.2.1, done.2.2)
      else
        (s, w, { id := req.id, exitCode := 2,
                 stderr := "public key does not match this phone's private key; generate/reuse the key before pairing" })
  | _ => (s, w, { id := req.id, stderr := "pair requires public key, role, and form factor", exitCode := 2 })

/-! ## dispatch and the request loop -/

def dispatch (w : World) (s : Sess) (req : Request) (e : ServeEnv) : Sess × World × Response :=
  match req.cmd with
  | .pair => dispatchPair w s req e
  | .keygen => dispatchKeygen w s req e.keygen
  | .presenceStart => let r := dispatchPresenceStart s req e.presenceArgs; (r.1, w, r.2)
  | .presenceStop => let r := dispatchPresenceStop s req; (r.1, w, r.2)
  | .navigate => let r := dispatchNavigate w s req e.connect e.navigate; (r.1, w, r.2)
  | _ => dispatchCommand w s req e

/-- One round of `serveConn`'s loop on a line within the scanner's limit. -/
def serveLine (w : World) (s : Sess) (line : Line) (e : ServeEnv) : Sess × World × Option Response :=
  match line with
  | .blank | .tooLong => (s, w, none)
  | .malformed err =>
    (s, w, some { id := "", stderr := "tesla-session: malformed request: " ++ err, exitCode := 1 })
  | .request req =>
    if req.type ≠ "request" then
      (s, w, some { id := req.id, stderr := "tesla-session: unknown frame type " ++ req.type, exitCode := 1 })
    else
      let r := dispatch w s req e
      (r.1, r.2.1, some r.2.2)

/-! ## The request's id -/

@[simp] theorem respond_id (id stdout stderr : String) (err : Option ExecErr) : (respond id stdout stderr err).id = id := by
  rcases err with _ | ⟨_ | _ | _⟩ <;> rfl

@[simp] theorem respond_ok (id stdout stderr : String) (err : Option ExecErr) :
    (respond id stdout stderr err).ok = err.isNone := by
  rcases err with _ | ⟨_ | _ | _⟩ <;> rfl

theorem keygenFresh_id (w : World) (s : Sess) (req : Request) (force : Bool) (e : KeygenEnv) :
    (keygenFresh w s req force e).2.2.id = req.id := by
  unfold keygenFresh
  split
  · rfl
  · split <;> rfl

theorem dispatchKeygen_id (w : World) (s : Sess) (req : Request) (e : KeygenEnv) :
    (dispatchKeygen w s req e).2.2.id = req.id := by
  unfold dispatchKeygen
  split
  · exact keygenFresh_id w s req true e
  · split
    · exact keygenFresh_id w s req false e
    · rfl
    · rfl
    · rfl

theorem dispatchPresenceStart_id (s : Sess) (req : Request) (argErr : Option String) :
    (dispatchPresenceStart s req argErr).2.id = req.id := by
  unfold dispatchPresenceStart
  split
  · rfl
  · split
    · rfl
    · split <;> rfl

theorem dispatchNavigate_id (w : World) (s : Sess) (req : Request) (c : ConnectEnv) (e : NavigateEnv) :
    (dispatchNavigate w s req c e).2.id = req.id := by
  unfold dispatchNavigate
  split
  · rfl
  split
  · rfl
  dsimp only
  split
  · rfl
  · split <;> rfl

theorem dispatchCommand_id (w : World) (s : Sess) (req : Request) (e : ServeEnv) :
    (dispatchCommand w s req e).2.2.id = req.id := by
  unfold dispatchCommand
  split
  · rfl
  dsimp only
  split
  · split <;> simp only [respond_id]
  · simp only [respond_id]

theorem dispatchPair_id (w : World) (s : Sess) (req : Request) (e : ServeEnv) :
    (dispatchPair w s req e).2.2.id = req.id := by
  unfold dispatchPair
  split
  · split
    · rfl
    · rfl
    · split
      · exact dispatchCommand_id w s { req with cmd := .vendor .addKeyRequest } e
      · rfl
  · rfl

/-- Every branch of `dispatch` answers under the id it was asked under. -/
theorem dispatch_id (w : World) (s : Sess) (req : Request) (e : ServeEnv) : (dispatch w s req e).2.2.id = req.id := by
  unfold dispatch
  split
  · exact dispatchPair_id w s req e
  · exact dispatchKeygen_id w s req e.keygen
  · exact dispatchPresenceStart_id s req e.presenceArgs
  · rfl
  · exact dispatchNavigate_id w s req e.connect e.navigate
  · exact dispatchCommand_id w s req e

/-! ## The VIN the child was started with -/

theorem foldl_own_vin (disk : Disk) (os : List Own) (s : Sess) : (os.foldl (Sess.own disk) s).vin = s.vin := by
  induction os generalizing s with
  | nil => rfl
  | cons o os ih => rw [List.foldl_cons, ih, Sess.own_vin]

theorem keygenFresh_vin (w : World) (s : Sess) (req : Request) (force : Bool) (e : KeygenEnv) :
    (keygenFresh w s req force e).1.vin = s.vin := by
  unfold keygenFresh
  split
  · rfl
  split
  · rfl
  · dsimp only
    split <;> rfl

theorem dispatchKeygen_vin (w : World) (s : Sess) (req : Request) (e : KeygenEnv) :
    (dispatchKeygen w s req e).1.vin = s.vin := by
  unfold dispatchKeygen
  split
  · exact keygenFresh_vin w s req true e
  · split
    · exact keygenFresh_vin w s req false e
    · rfl
    · rfl
    · rfl

theorem dispatchCommand_vin (w : World) (s : Sess) (req : Request) (e : ServeEnv) :
    (dispatchCommand w s req e).1.vin = s.vin := by
  have hv := Sess.ensureConnected_vin w.disk s (some req.cmd) e.connect
  unfold dispatchCommand
  split
  · rename_i heq
    rw [heq] at hv
    exact hv
  · rename_i heq
    rw [heq] at hv
    dsimp only
    split
    · split <;> exact hv
    · exact hv

theorem dispatch_vin (w : World) (s : Sess) (req : Request) (e : ServeEnv) : (dispatch w s req e).1.vin = s.vin := by
  unfold dispatch
  split
  · unfold dispatchPair
    split
    · split
      · rfl
      · rfl
      · split
        · exact dispatchCommand_vin w s { req with cmd := .vendor .addKeyRequest } e
        · rfl
    · rfl
  · exact dispatchKeygen_vin w s req e.keygen
  · unfold dispatchPresenceStart
    split
    · rfl
    · split
      · rfl
      · split <;> rfl
  · rfl
  · have hv := Sess.ensureConnected_vin w.disk s none e.connect
    unfold dispatchNavigate
    split
    · rfl
    split
    · rename_i heq
      rw [heq] at hv
      exact hv
    · rename_i s' heq
      rw [heq] at hv
      have hb := foldl_own_vin w.disk e.navigate.between s'
      dsimp only
      split
      · exact hb.trans hv
      · split <;> exact hb.trans hv
  · exact dispatchCommand_vin w s req e

theorem serveLine_vin (w : World) (s : Sess) (line : Line) (e : ServeEnv) : (serveLine w s line e).1.vin = s.vin := by
  unfold serveLine
  split
  · rfl
  · rfl
  · rfl
  · split
    · rfl
    · exact dispatch_vin w s _ e

/-! ## The presence generation -/

theorem Sess.ensureConnected_presenceGeneration (disk : Disk) (s : Sess) (cmd : Option Cmd) (e : ConnectEnv) :
    (s.ensureConnected disk cmd e).1.presenceGeneration = s.presenceGeneration := by
  unfold Sess.ensureConnected
  split
  · split
    · rfl
    split
    · rfl
    · split <;> rfl
  · split
    · rfl
    split
    · rfl
    split
    · rfl
    split
    · rfl
    · split <;> rfl

@[simp] theorem Sess.own_presenceGeneration (disk : Disk) (s : Sess) (o : Own) :
    (s.own disk o).presenceGeneration = s.presenceGeneration := by
  cases o with
  | connect e =>
    show (if s.presence then (s.ensureConnected disk none e).1 else s).presenceGeneration = s.presenceGeneration
    split
    · exact s.ensureConnected_presenceGeneration disk none e
    · rfl
  | teardown => rfl
  | loopExit => rfl

theorem foldl_own_presenceGeneration (disk : Disk) (os : List Own) (s : Sess) :
    (os.foldl (Sess.own disk) s).presenceGeneration = s.presenceGeneration := by
  induction os generalizing s with
  | nil => rfl
  | cons o os ih => rw [List.foldl_cons, ih, Sess.own_presenceGeneration]

/-- The requests that start or stop presence. -/
def stirs (req : Request) : Bool :=
  req.cmd == .presenceStart || req.cmd == .presenceStop || (req.cmd == .keygen && req.args.contains "-f")

theorem dispatchCommand_presenceGeneration (w : World) (s : Sess) (req : Request) (e : ServeEnv) :
    (dispatchCommand w s req e).1.presenceGeneration = s.presenceGeneration := by
  have hg := s.ensureConnected_presenceGeneration w.disk (some req.cmd) e.connect
  unfold dispatchCommand
  split
  · rename_i heq
    rw [heq] at hg
    exact hg
  · rename_i heq
    rw [heq] at hg
    dsimp only
    split
    · split <;> exact hg
    · exact hg

theorem dispatch_presenceGeneration {req : Request} (h : stirs req = false) (w : World) (s : Sess) (e : ServeEnv) :
    (dispatch w s req e).1.presenceGeneration = s.presenceGeneration := by
  simp only [stirs, Bool.or_eq_false_iff, Bool.and_eq_false_iff, beq_eq_false_iff_ne] at h
  obtain ⟨⟨hstart, hstop⟩, hkey⟩ := h
  unfold dispatch
  split
  · unfold dispatchPair
    split
    · split
      · rfl
      · rfl
      · split
        · exact dispatchCommand_presenceGeneration w s { req with cmd := .vendor .addKeyRequest } e
        · rfl
    · rfl
  · rename_i hc
    unfold dispatchKeygen
    rcases hkey with hkey | hkey
    · exact absurd hc hkey
    rw [hkey, if_neg Bool.false_ne_true]
    split
    · unfold keygenFresh
      split
      · rfl
      · split <;> rfl
    · rfl
    · rfl
    · rfl
  · rename_i hc
    exact absurd hc hstart
  · rename_i hc
    exact absurd hc hstop
  · have hg := s.ensureConnected_presenceGeneration w.disk none e.connect
    unfold dispatchNavigate
    split
    · rfl
    split
    · rename_i heq
      rw [heq] at hg
      exact hg
    · rename_i s' heq
      rw [heq] at hg
      have hb := foldl_own_presenceGeneration w.disk e.navigate.between s'
      dsimp only
      split
      · exact hb.trans hg
      · split <;> exact hb.trans hg
  · exact dispatchCommand_presenceGeneration w s req e

theorem serveLine_presenceGeneration {line : Line} (h : ∀ req, line = .request req → stirs req = false) (w : World) (s : Sess)
    (e : ServeEnv) : (serveLine w s line e).1.presenceGeneration = s.presenceGeneration := by
  unfold serveLine
  split
  · rfl
  · rfl
  · rfl
  · split
    · rfl
    · exact dispatch_presenceGeneration (h _ rfl) w s e

/-! ## What a request does outside the child -/

@[simp] theorem Attempt.tapped_disk (a : Attempt) (w : World) (vin : String) (key : Key) :
    (a.tapped w vin key).disk = w.disk := by
  unfold Attempt.tapped
  split <;> rfl

@[simp] theorem Attempt.tapped_confirmed (a : Attempt) (w : World) (vin : String) (key : Key) :
    (a.tapped w vin key).confirmed = w.confirmed := by
  unfold Attempt.tapped
  split <;> rfl

@[simp] theorem Attempt.tapped_now (a : Attempt) (w : World) (vin : String) (key : Key) :
    (a.tapped w vin key).now = w.now := by
  unfold Attempt.tapped
  split <;> rfl

theorem waitForEnrollment_frame (w : World) (vin : String) (key : Key) (own : Bool) (as : List Attempt) :
    (waitForEnrollment w vin key own as).1.disk = w.disk ∧
    (waitForEnrollment w vin key own as).1.confirmed = w.confirmed ∧
    (waitForEnrollment w vin key own as).1.now = w.now := by
  induction as generalizing w with
  | nil => exact ⟨rfl, rfl, rfl⟩
  | cons a rest ih =>
    unfold waitForEnrollment
    split
    · simp only [Attempt.tapped_disk, Attempt.tapped_confirmed, Attempt.tapped_now, and_self]
    · simpa only [Attempt.tapped_disk, Attempt.tapped_confirmed, Attempt.tapped_now] using ih (a.tapped w vin key)

/-- Enrollment is confirmed only when the vehicle lists the key. -/
theorem waitForEnrollment_ok {w : World} {vin : String} {key : Key} {own : Bool} {as : List Attempt}
    (h : (waitForEnrollment w vin key own as).2 = none) : (vin, key) ∈ (waitForEnrollment w vin key own as).1.whitelist := by
  induction as generalizing w with
  | nil => simp [waitForEnrollment] at h
  | cons a rest ih =>
    unfold waitForEnrollment at h ⊢
    split at h
    · rename_i hc
      rw [if_pos hc]
      exact hc.2.1
    · rename_i hc
      rw [if_neg hc]
      exact ih h

theorem confirmEnrollment_frame (w : World) (s : Sess) (path : String) (e : ServeEnv) :
    (confirmEnrollment w s path e).1.disk = w.disk ∧ (confirmEnrollment w s path e).1.confirmed = w.confirmed ∧
    (confirmEnrollment w s path e).1.now = w.now := by
  unfold confirmEnrollment
  split
  · exact ⟨rfl, rfl, rfl⟩
  · exact ⟨rfl, rfl, rfl⟩
  · exact waitForEnrollment_frame _ _ _ _ _

theorem confirmEnrollment_ok {w : World} {s : Sess} {path : String} {e : ServeEnv} {k : Key}
    (hk : w.loadPublicKey path e.elsewhere = some k) (h : (confirmEnrollment w s path e).2 = none) :
    (s.vin, k) ∈ (confirmEnrollment w s path e).1.whitelist := by
  unfold confirmEnrollment at h ⊢
  cases hp : w.disk.privateKey with
  | none => simp only [hk, hp, reduceCtorEq] at h
  | some own =>
    simp only [hk, hp] at h ⊢
    exact waitForEnrollment_ok h

/-- An ordinary command changes the vehicle at most. -/
theorem dispatchCommand_frame (w : World) (s : Sess) (req : Request) (e : ServeEnv) :
    (dispatchCommand w s req e).2.1.disk = w.disk ∧ (dispatchCommand w s req e).2.1.confirmed = w.confirmed ∧
    (dispatchCommand w s req e).2.1.now = w.now := by
  unfold dispatchCommand
  split
  · exact ⟨rfl, rfl, rfl⟩
  dsimp only
  split
  · split
    · exact ⟨rfl, rfl, rfl⟩
    · exact confirmEnrollment_frame _ _ _ _
  · exact ⟨rfl, rfl, rfl⟩

/-- An add-key-request answered OK was confirmed by the vehicle. -/
theorem dispatchCommand_enrolled {w : World} {s : Sess} {req : Request} {e : ServeEnv} {k : Key}
    (hc : req.cmd = .vendor .addKeyRequest) (hk : w.loadPublicKey (req.args.headD "") e.elsewhere = some k)
    (h : (dispatchCommand w s req e).2.2.ok = true) : (s.vin, k) ∈ (dispatchCommand w s req e).2.1.whitelist := by
  have hw : withoutSession (some req.cmd) = true := by rw [hc]; rfl
  have hv := Sess.ensureConnected_vin w.disk s (some req.cmd) e.connect
  unfold dispatchCommand at h ⊢
  rcases hr : s.ensureConnected w.disk (some req.cmd) e.connect with ⟨s', _ | _⟩
  · simp [hr] at h
  · rw [hr] at hv
    simp only [hr, hw, if_true] at h ⊢
    cases ho : (execute s' req.cmd req.args e.exec).2 with
    | some err => simp [ho] at h
    | none =>
      simp only [ho, respond_ok, Option.isNone_map, Option.isNone_iff_eq_none] at h ⊢
      rw [← hv]
      exact confirmEnrollment_ok hk h

/-- Everything one request can change outside the child. -/
structure Effect (w w' : World) (vin : String) (req : Request) (resp : Response) : Prop where
  config : w'.disk.config = w.disk.config
  pub : w'.disk.pub = w.disk.pub
  now : w'.now = w.now
  /-- Only keygen writes private_key.pem, and without -f only when there is none. -/
  priv : w'.disk.priv = w.disk.priv ∨
    req.cmd = .keygen ∧ (req.args.contains "-f" = true ∨ w.disk.priv = none) ∧ w'.disk.priv.isSome = true
  /-- Only a pair request answered OK confirms, and it confirms the key on disk. -/
  confirmed : w'.confirmed = w.confirmed ∨
    ∃ k, req.cmd = .pair ∧ resp.ok = true ∧ w.disk.priv = some (.key k) ∧ w'.confirmed = (vin, k) :: w.confirmed ∧
      (vin, k) ∈ w'.whitelist
  pair : req.cmd = .pair → resp.ok = true → ∃ k, w'.disk.priv = some (.key k) ∧ (vin, k) ∈ w'.confirmed

theorem Effect.refl (w : World) (vin : String) {req : Request} {resp : Response} (h : req.cmd = .pair → resp.ok = false) :
    Effect w w vin req resp where
  config := rfl
  pub := rfl
  now := rfl
  priv := .inl rfl
  confirmed := .inl rfl
  pair hc hok := by simp [h hc] at hok

theorem privateKey_some {d : Disk} {k : Key} (h : d.privateKey = some k) : d.priv = some (.key k) := by
  unfold Disk.privateKey at h
  split at h
  · rename_i heq
    cases h
    exact heq
  · cases h

theorem keygenFresh_effect (w : World) (s : Sess) {req : Request} (force : Bool) (e : KeygenEnv) (hc : req.cmd = .keygen)
    (hf : req.args.contains "-f" = true ∨ w.disk.priv = none) :
    Effect w (keygenFresh w s req force e).2.1 s.vin req (keygenFresh w s req force e).2.2 := by
  have hp : req.cmd = .pair → False := by rw [hc]; intro h; cases h
  have hset : ∀ (file : Option PrivFile) (resp : Response), file = w.disk.priv ∨ file = some (.key e.key) →
      Effect w (w.setPriv file) s.vin req resp := by
    intro file resp hfile
    refine ⟨rfl, rfl, rfl, ?_, .inl rfl, fun h => (hp h).elim⟩
    rcases hfile with rfl | rfl
    · exact .inl rfl
    · exact .inr ⟨hc, hf, rfl⟩
  unfold keygenFresh
  split
  · exact .refl w s.vin fun h => (hp h).elim
  · rcases writeAtomic_cases w.disk.priv (some (PrivFile.key e.key)) e.save with h | ⟨_, h⟩ | ⟨_, h⟩
    · simp only [h]; exact hset _ _ (.inr rfl)
    · simp only [h]; exact hset _ _ (.inr rfl)
    · simp only [h]; exact hset _ _ (.inl rfl)

theorem dispatchKeygen_effect (w : World) (s : Sess) {req : Request} (e : KeygenEnv) (hc : req.cmd = .keygen) :
    Effect w (dispatchKeygen w s req e).2.1 s.vin req (dispatchKeygen w s req e).2.2 := by
  have hp : req.cmd = .pair → False := by rw [hc]; intro h; cases h
  unfold dispatchKeygen
  split
  · rename_i hf
    exact keygenFresh_effect w s true e hc (.inl hf)
  · split
    · rename_i hn
      exact keygenFresh_effect w s false e hc (.inr hn)
    · exact .refl w s.vin fun h => (hp h).elim
    · exact .refl w s.vin fun h => (hp h).elim
    · exact .refl w s.vin fun h => (hp h).elim

theorem dispatchCommand_effect (w : World) (s : Sess) {req : Request} (e : ServeEnv) (hc : req.cmd ≠ .pair) :
    Effect w (dispatchCommand w s req e).2.1 s.vin req (dispatchCommand w s req e).2.2 := by
  obtain ⟨hd, hconf, hn⟩ := dispatchCommand_frame w s req e
  exact ⟨by rw [hd], by rw [hd], hn, .inl (by rw [hd]), .inl hconf, fun h => (hc h).elim⟩

theorem dispatchPair_effect (w : World) (s : Sess) {req : Request} (e : ServeEnv) (hc : req.cmd = .pair) :
    Effect w (dispatchPair w s req e).2.1 s.vin req (dispatchPair w s req e).2.2 := by
  unfold dispatchPair
  split
  · rename_i path role form ha
    split
    · exact .refl w s.vin fun _ => rfl
    · exact .refl w s.vin fun _ => rfl
    · rename_i k own hk hown
      split
      · rename_i heq
        have hpriv : w.disk.priv = some (.key k) := heq ▸ privateKey_some hown
        obtain ⟨hd, hconf, hn⟩ := dispatchCommand_frame w s { req with cmd := .vendor .addKeyRequest } e
        dsimp only
        by_cases hok : (dispatchCommand w s { req with cmd := .vendor .addKeyRequest } e).2.2.ok = true
        · -- answered OK: the vehicle listed the key that is both public and private
          have hmem := @dispatchCommand_enrolled w s { req with cmd := .vendor .addKeyRequest } e k rfl
            (by simpa only [ha, List.headD_cons] using hk) hok
          simp only [hok, if_true]
          refine ⟨by simp [hd], by simp [hd], hn, .inl (by simp [hd]), .inr ⟨k, hc, hok, hpriv, ?_, hmem⟩, fun _ _ => ⟨k, ?_, ?_⟩⟩
          · simp [hconf]
          · simp [hd, hpriv]
          · simp
        · simp only [hok, Bool.false_eq_true, if_false]
          exact ⟨by rw [hd], by rw [hd], hn, .inl (by rw [hd]), .inl hconf, fun _ h => (hok h).elim⟩
      · exact .refl w s.vin fun _ => rfl
  · exact .refl w s.vin fun _ => rfl

theorem dispatch_effect (w : World) (s : Sess) (req : Request) (e : ServeEnv) :
    Effect w (dispatch w s req e).2.1 s.vin req (dispatch w s req e).2.2 := by
  unfold dispatch
  split
  · exact dispatchPair_effect w s e ‹_›
  · exact dispatchKeygen_effect w s e.keygen ‹_›
  · rename_i hc
    exact .refl w s.vin fun h => by simp [hc] at h
  · rename_i hc
    exact .refl w s.vin fun h => by simp [hc] at h
  · rename_i hc
    exact .refl w s.vin fun h => by simp [hc] at h
  · rename_i hp _ _ _ _
    exact dispatchCommand_effect w s e hp

/-- A line that is no request changes nothing. -/
theorem serveLine_effect (w : World) (s : Sess) (line : Line) (e : ServeEnv) :
    ((∀ req, line ≠ .request req) ∧ (serveLine w s line e).2.1 = w) ∨
    ∃ req resp, line = .request req ∧ (serveLine w s line e).2.2 = some resp ∧ Effect w (serveLine w s line e).2.1 s.vin req resp := by
  unfold serveLine
  split
  · exact .inl ⟨nofun, rfl⟩
  · exact .inl ⟨nofun, rfl⟩
  · exact .inl ⟨nofun, rfl⟩
  · rename_i req
    refine .inr ⟨req, ?_⟩
    split
    · exact ⟨_, rfl, rfl, .refl w s.vin fun _ => rfl⟩
    · exact ⟨_, rfl, rfl, dispatch_effect w s req e⟩

end ElectricEel.Child
