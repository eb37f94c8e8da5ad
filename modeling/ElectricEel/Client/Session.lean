/-
  ElectricEel.Client.Session — the parent's side of the session socket
  (helper/src/session_client.rs).

  Actors. The client runs one request at a time under the `child` lock. Each child it
  spawns (a generation) has a reader thread that owns the read half of the socket, and is
  a process of its own (Child.Dispatch). `Move` is one step of either of the two, or of
  the world; between any two steps of the client any list of moves may happen, and every
  operation takes those lists, the outcome of the spawn and of the write as an
  environment (`RunEnv`).

  The reader: it reads frames (responses go to `rx`, events to the queue, heartbeats
  nowhere, hello and garbage end it); on end of file, an error or the frame deadline it
  leaves the loop (`broke`), stores `alive = false` (`marked`), looks at `cancelled`, and
  if that is false clears the queue and pushes `presence_stopped` (`reporting`).

  `kill` is ChildHandle::drop: set `cancelled`, shut the socket down, join the reader,
  reap the process. `run` decodes the line `rx` gives it once more; since the
  reader passes on responses only, its Decode and unreachable arms are not taken.

  Ghosts: generation numbers, the origin of every queue entry, the event frames sent,
  the request lines written, what the child answered to which request and which presence
  requests it acknowledged.

  Proved: every operation is a path of atomic steps (`run_path`, `invalidate_path`), so
  what each step keeps every operation keeps (`Path.inv`).
-/
import ElectricEel.Lib.DropQueue
import ElectricEel.Child.Dispatch
import Mathlib.Logic.Relation

namespace ElectricEel.Client

open Lib Commands Wire Child

/-! ## State -/

/-- Ghost: where a queue entry comes from. -/
inductive Origin where
  /-- The n-th frame the child of generation `gen` sent. -/
  | frame (gen n : Nat)
  /-- The exiting reader of generation `gen`. -/
  | closed (gen : Nat)
  /-- `transport_failed`, after generation `gen` was killed. -/
  | failed (gen : Nat)
  /-- No queue entry: the poll's own synthetic event. -/
  | timer
  deriving DecidableEq, Repr

structure Entry where
  ev : SessionEvent
  src : Origin
  deriving DecidableEq, Repr

inductive Phase where
  | reading
  | broke
  | marked
  | reporting
  | done
  deriving DecidableEq, Repr

structure Packet where
  frame : Frame
  /-- Ghost: how many frames the child sent before this one. -/
  seq : Nat
  /-- Ghost: the request loop wrote it in answer to a line it read. -/
  answer : Bool
  deriving DecidableEq, Repr

structure Handle where
  gen : Nat
  /-- The spawn arguments that matter later. -/
  vin : String
  connectTimeoutSec : Int
  commandTimeoutSec : Int
  phase : Phase
  cancelled : Bool
  /-- Lines written and not yet read by the child. -/
  inbox : List Line
  /-- Frames sent and not yet read by the reader. -/
  wire : List Packet
  /-- Response lines the reader passed on. -/
  rx : List Packet
  proc : Sess
  /-- Ghost: frames sent so far. -/
  sentCount : Nat
  deriving DecidableEq, Repr

/-- The reader stores `alive = false` on its way out. -/
def Handle.alive (h : Handle) : Bool := h.phase = .reading || h.phase = .broke

/-- What the caller passes to `run`; the key file is always private_key.pem. -/
structure Call where
  cmd : Cmd
  args : List String
  vin : String
  connectTimeoutSec : Int
  commandTimeoutSec : Int
  deriving DecidableEq, Repr

structure Write where
  gen : Nat
  req : Request
  deriving DecidableEq, Repr

/-- Whom a line was written to, with its spawn arguments, and for which call. -/
structure Target where
  gen : Nat
  vin : String
  connectTimeoutSec : Int
  commandTimeoutSec : Int
  call : Call
  deriving DecidableEq, Repr

/-- A presence request answered OK: the child, the command and the answer's place among its frames. -/
structure Ack where
  gen : Nat
  cmd : Cmd
  seq : Nat
  deriving DecidableEq, Repr

structure Answer where
  gen : Nat
  req : Request
  resp : Response
  deriving DecidableEq, Repr

structure SessionClient where
  bleBackend : Backend
  child : Option Handle
  nextId : Nat
  events : DropQueue Entry (63 + 1)
  presenceActive : Bool
  /-- Ghost: children spawned so far; the one in the slot is the last. -/
  gens : Nat
  /-- Ghost: the event frames children put on their sockets. -/
  sent : List Entry
  /-- Ghost: the request lines handed to a child, whether or not the write succeeded. -/
  writes : List Write
  /-- Ghost: what children answered. -/
  answered : List Answer
  /-- Ghost: the entries `clear_events` discarded. -/
  explicit : List Entry
  /-- Ghost: the presence requests answered OK. -/
  acked : List Ack
  /-- Ghost: one for each line written. -/
  targets : List Target

def SessionClient.new (bleBackend : Backend) : SessionClient :=
  { bleBackend, child := none, nextId := 1, events := .empty, presenceActive := false,
    gens := 0, sent := [], writes := [], answered := [], explicit := [], acked := [], targets := [] }

/-- The client and what lies outside the parent process. -/
structure Host where
  client : SessionClient
  world : World

inductive SessionError where
  | spawn (text : String)
  | handshake (text : String)
  | brokenPipe
  | timeout
  | decode
  | idMismatch
  deriving DecidableEq, Repr

/-- Display; the reader passes on only what decodes, so Decode has no text of its own. -/
def SessionError.text : SessionError → String
  | spawn text => "failed to spawn tesla-session: " ++ text
  | handshake text => "tesla-session handshake failed: " ++ text
  | brokenPipe => "tesla-session connection closed"
  | timeout => "tesla-session did not respond in time"
  | decode => "malformed tesla-session frame: "
  | idMismatch => "tesla-session response id mismatch"

/-! ## Moves of the child, the reader and the world -/

inductive Move where
  /-- The child puts a frame on the socket, whatever it is. -/
  | send (f : Frame)
  /-- The child reads the next request line and answers it. -/
  | serve (e : ServeEnv)
  /-- Another goroutine of the child moves. -/
  | own (o : Own)
  | read
  | hangup
  | markDead
  | checkCancelled
  | report
  | tick (ms : Nat)
  | enroll (vin : String) (k : Key)
  | revoke (vin : String) (k : Key)
  /-- Something outside removes private_key.pem. -/
  | unlinkKey
  deriving DecidableEq, Repr

/-! ## What the environment of `run` decides -/

/-- How `spawn` fails: the process or its socket, or the hello handshake. -/
inductive SpawnFault where
  | spawn (text : String)
  | handshake (text : String)
  deriving DecidableEq, Repr

def SpawnFault.error : SpawnFault → SessionError
  | spawn text => .spawn text
  | handshake text => .handshake text

inductive WriteOutcome where
  | ok
  /-- `write_all` failed; the line may have reached the child all the same. -/
  | failed (arrived : Bool)
  deriving DecidableEq, Repr

structure RunEnv where
  /-- While a child found dead is dropped. -/
  retiring : List Move := []
  /-- The failure of a spawn, if one is needed. -/
  spawn : Option SpawnFault := none
  /-- Between the liveness check (or the spawn) and the write. -/
  before : List Move := []
  /-- The request line is over the child's scanner limit. -/
  long : Bool := false
  write : WriteOutcome := .ok
  /-- Until a response arrives, the deadline passes or the channel closes. -/
  waiting : List Move := []
  /-- While a failed child is dropped. -/
  killing : List Move := []
  deriving DecidableEq, Repr

/-! ## Notices -/

def closedNotice (gen : Nat) : Entry :=
  ⟨{ kind := .presenceStopped, error := "tesla-session transport closed" }, .closed gen⟩

def failedNotice (gen : Nat) : Entry :=
  ⟨{ kind := .presenceStopped, error := "tesla-session transport failed" }, .failed gen⟩

namespace Host

def setChild (s : Host) (h : Option Handle) : Host := { s with client := { s.client with child := h } }

def setEvents (s : Host) (q : DropQueue Entry (63 + 1)) : Host := { s with client := { s.client with events := q } }

def setWorld (s : Host) (w : World) : Host := { s with world := w }

/-- Ghost bookkeeping of an event frame sent. -/
def sentEvents (h : Handle) : Frame → List Entry
  | .event e => [⟨e, .frame h.gen h.sentCount⟩]
  | _ => []

def send (s : Host) (h : Handle) (f : Frame) (answer : Bool) : Host :=
  { s with client :=
    { s.client with
      child := some { h with wire := h.wire ++ [⟨f, h.sentCount, answer⟩], sentCount := h.sentCount + 1 }
      sent := s.client.sent ++ sentEvents h f } }

/-- Ghost: the answers a served line adds. -/
def answers (h : Handle) : Line → Option Response → List Answer
  | .request req, some resp => [⟨h.gen, req, resp⟩]
  | _, _ => []

/-- The child takes one line off its socket; after an oversized one it reads no more. -/
def serve (s : Host) (h : Handle) (line : Line) (rest : List Line) (e : ServeEnv) : Host :=
  let out := serveLine s.world h.proc line e
  let h' := { h with inbox := if line = .tooLong then [] else rest, proc := out.1 }
  let s' : Host :=
    { client := { s.client with child := some h', answered := s.client.answered ++ answers h line out.2.2 }
      world := out.2.1 }
  match out.2.2 with
  | none => s'
  | some resp => s'.send h' (.response resp) true

/-- The reader takes one frame off the socket. -/
def read (s : Host) (h : Handle) (p : Packet) (rest : List Packet) : Host :=
  match p.frame with
  | .response _ => s.setChild (some { h with wire := rest, rx := h.rx ++ [p] })
  | .event e => (s.setChild (some { h with wire := rest })).setEvents (s.client.events.push ⟨e, .frame h.gen p.seq⟩)
  | .heartbeat _ => s.setChild (some { h with wire := rest })
  | .hello _ | .garbled => s.setChild (some { h with wire := rest, phase := .broke })

def report (s : Host) (h : Handle) : Host :=
  (s.setChild (some { h with phase := .done })).setEvents (s.client.events.clear.push (closedNotice h.gen))

/-- A move of the child in the slot or of its reader. -/
def moveChild (s : Host) (h : Handle) : Move → Host
  | .send f => s.send h f false
  | .serve e =>
    match h.inbox with
    | [] => s
    | line :: rest => s.serve h line rest e
  | .own o => s.setChild (some { h with proc := h.proc.own s.world.disk o })
  | .read =>
    match h.phase, h.wire with
    | .reading, p :: rest => s.read h p rest
    | _, _ => s
  | .hangup => if h.phase = .reading then s.setChild (some { h with phase := .broke }) else s
  | .markDead => if h.phase = .broke then s.setChild (some { h with phase := .marked }) else s
  | .checkCancelled =>
    if h.phase = .marked then s.setChild (some { h with phase := if h.cancelled then .done else .reporting }) else s
  | .report => if h.phase = .reporting then s.report h else s
  | _ => s

def move (s : Host) : Move → Host
  | .tick ms => s.setWorld { s.world with now := s.world.now + ms }
  | .enroll vin k => s.setWorld (s.world.enroll vin k)
  | .revoke vin k => s.setWorld { s.world with whitelist := s.world.whitelist.filter (· ≠ (vin, k)) }
  | .unlinkKey => s.setWorld (s.world.setPriv none)
  | m =>
    match s.client.child with
    | none => s
    | some h => s.moveChild h m

def moves (s : Host) (ms : List Move) : Host := ms.foldl move s

/-! ## The client's own steps -/

def isAlive (s : Host) : Bool := s.client.child.any Handle.alive

def isPresenceActive (s : Host) : Bool := s.client.presenceActive && s.isAlive

def cancel (s : Host) : Host := s.setChild (s.client.child.map fun h => { h with cancelled := true })

def reap (s : Host) : Host := s.setChild none

/-- ChildHandle::drop; `during` is what the child and its reader still do until the reader
    is joined and the process reaped. A reader past its `cancelled` check still reports. -/
def kill (s : Host) (during : List Move) : Host := ((s.cancel.moves during).move .report).reap

def setPresence (s : Host) (active : Bool) : Host := { s with client := { s.client with presenceActive := active } }

/-- A presence request is answered OK. -/
def acknowledge (s : Host) (a : Ack) : Host :=
  { s with client := { s.client with presenceActive := a.cmd == .presenceStart, acked := s.client.acked ++ [a] } }

def clearEvents (s : Host) : Host :=
  { s with client :=
    { s.client with events := s.client.events.clear, explicit := s.client.explicit ++ s.client.events.items } }

def transportFailed (s : Host) : Host :=
  (s.setPresence false).setEvents (s.client.events.clear.push (failedNotice s.client.gens))

def pollEvent (s : Host) : Host × Option Entry := (s.setEvents s.client.events.pop.1, s.client.events.pop.2)

def invalidate (s : Host) (during : List Move) : Host :=
  let s := s.setPresence false
  (if s.client.child.isSome then s.kill during else s).clearEvents

/-! ## run -/

def newHandle (s : Host) (c : Call) : Handle :=
  { gen := s.client.gens + 1, vin := c.vin, connectTimeoutSec := c.connectTimeoutSec,
    commandTimeoutSec := c.commandTimeoutSec, phase := .reading, cancelled := false, inbox := [], wire := [],
    rx := [], proc := .start c.vin s.client.bleBackend, sentCount := 0 }

def spawn (s : Host) (c : Call) : Host :=
  { s with client := { s.client with child := some (s.newHandle c), gens := s.client.gens + 1 } }

/-- A child found dead is killed and reported before anything else. -/
def retireDead (s : Host) (during : List Move) : Host :=
  match s.client.child with
  | some h => if h.alive then s else (s.kill during).transportFailed
  | none => s

def ensureChild (s : Host) (c : Call) (fault : Option SpawnFault) : Host × Except SessionError Unit :=
  match s.client.child with
  | some _ => (s, .ok ())
  | none =>
    match fault with
    | some err => (s, .error err.error)
    | none => (s.spawn c, .ok ())

def request (s : Host) (c : Call) : Request :=
  { type := "request", id := toString s.client.nextId, cmd := c.cmd, args := c.args }

/-- `next_id.fetch_add` and `write_all`. -/
def writeLine (s : Host) (c : Call) (long : Bool) (arrives : Bool) : Host :=
  let req := s.request c
  let line := if long then Line.tooLong else .request req
  { s with client :=
    { s.client with
      nextId := s.client.nextId + 1
      child := s.client.child.map fun h => if arrives then { h with inbox := h.inbox ++ [line] } else h
      writes := s.client.writes ++ (s.client.child.map fun h => ⟨h.gen, req⟩).toList
      targets := s.client.targets ++
        (s.client.child.map fun h => ⟨h.gen, h.vin, h.connectTimeoutSec, h.commandTimeoutSec, c⟩).toList } }

/-- A response leaves the channel. -/
def take (s : Host) : Host :=
  match s.client.child with
  | some h => s.setChild (some { h with rx := h.rx.tail })
  | none => s

/-- Kill, `transport_failed`, return the error. -/
def fail (s : Host) (killing : List Move) (err : SessionError) : Host × Except SessionError RunOutcome :=
  ((s.kill killing).transportFailed, .error err)

/-- `recv_timeout` and what follows it. -/
def receive (s : Host) (id : String) (cmd : Cmd) (killing : List Move) : Host × Except SessionError RunOutcome :=
  match s.client.child with
  | none => (s, .error .timeout)
  | some h =>
    match h.rx with
    | [] => s.fail killing .timeout
    | p :: _ =>
      match p.frame with
      | .response r =>
        if r.id ≠ id then s.take.fail killing .idMismatch
        else if r.ok && (cmd == .presenceStart || cmd == .presenceStop) then
          (s.take.acknowledge ⟨h.gen, cmd, p.seq⟩, .ok r.outcome)
        else (s.take, .ok r.outcome)
      -- not reached: the reader passes on responses only
      | _ => s.take.fail killing .decode

def run (s : Host) (c : Call) (e : RunEnv) : Host × Except SessionError RunOutcome :=
  match (s.retireDead e.retiring).ensureChild c e.spawn with
  | (s, .error err) => (s, .error err)
  | (s, .ok ()) =>
    let s := s.moves e.before
    let id := toString s.client.nextId
    match e.write with
    | .failed arrived => (s.writeLine c e.long arrived).fail e.killing .brokenPipe
    | .ok => ((s.writeLine c e.long true).moves e.waiting).receive id c.cmd e.killing

end Host

/-! ## What one move can do -/

/-- The reader's next phase on its way out of the loop. -/
def Handle.exiting (h : Handle) : Phase :=
  match h.phase with
  | .reading => .broke
  | .broke => .marked
  | .marked => if h.cancelled then .done else .reporting
  | p => p

inductive Moved (s : Host) : Move → Host → Prop
  | stay (m : Move) : Moved s m s
  | tick (ms : Nat) : Moved s (.tick ms) (s.setWorld { s.world with now := s.world.now + ms })
  | enroll (vin : String) (k : Key) : Moved s (.enroll vin k) (s.setWorld (s.world.enroll vin k))
  | revoke (vin : String) (k : Key) :
      Moved s (.revoke vin k) (s.setWorld { s.world with whitelist := s.world.whitelist.filter (· ≠ (vin, k)) })
  | unlinkKey : Moved s .unlinkKey (s.setWorld (s.world.setPriv none))
  | send {h : Handle} (f : Frame) : s.client.child = some h → Moved s (.send f) (s.send h f false)
  | serve {h : Handle} {line : Line} {rest : List Line} (e : ServeEnv) : s.client.child = some h →
      h.inbox = line :: rest → Moved s (.serve e) (s.serve h line rest e)
  | own {h : Handle} (o : Own) : s.client.child = some h →
      Moved s (.own o) (s.setChild (some { h with proc := h.proc.own s.world.disk o }))
  /-- The reader takes one step out of its loop. -/
  | exit {h : Handle} (m : Move) : s.client.child = some h → h.phase ≠ .reporting → h.phase ≠ .done →
      Moved s m (s.setChild (some { h with phase := h.exiting }))
  | read {h : Handle} {p : Packet} {rest : List Packet} : s.client.child = some h → h.phase = .reading →
      h.wire = p :: rest → Moved s .read (s.read h p rest)
  | report {h : Handle} : s.client.child = some h → h.phase = .reporting → Moved s .report (s.report h)

theorem Host.moveChild_moved {s : Host} {h : Handle} (hc : s.client.child = some h) (m : Move) : Moved s m (s.moveChild h m) := by
  unfold Host.moveChild
  split
  · exact .send _ hc
  · split
    · exact .stay _
    · exact .serve _ hc ‹_›
  · exact .own _ hc
  · split
    · exact .read hc ‹_› ‹_›
    · exact .stay _
  · split
    · rename_i hp
      simpa [Handle.exiting, hp] using Moved.exit .hangup hc (by simp [hp]) (by simp [hp])
    · exact .stay _
  · split
    · rename_i hp
      simpa [Handle.exiting, hp] using Moved.exit .markDead hc (by simp [hp]) (by simp [hp])
    · exact .stay _
  · split
    · rename_i hp
      simpa [Handle.exiting, hp] using Moved.exit .checkCancelled hc (by simp [hp]) (by simp [hp])
    · exact .stay _
  · split
    · exact .report hc ‹_›
    · exact .stay _
  · exact .stay _

/-- Every move is one of the cases of `Moved`. -/
theorem Host.moved (s : Host) (m : Move) : Moved s m (s.move m) := by
  unfold Host.move
  split
  · exact .tick _
  · exact .enroll _ _
  · exact .revoke _ _
  · exact .unlinkKey
  · split
    · exact .stay _
    · exact Host.moveChild_moved ‹_› _

/-! ## Atomic steps -/

/-- The atomic steps all operations are made of. -/
inductive Act where
  | move (m : Move)
  | cancel
  | reap
  | setPresence (active : Bool)
  | acknowledge (a : Ack)
  | clearEvents
  | transportFailed
  | pollEvent
  | spawn (c : Call)
  | writeLine (c : Call) (long arrives : Bool)
  | take

namespace Host

def act (s : Host) : Act → Host
  | .move m => s.move m
  | .cancel => s.cancel
  | .reap => s.reap
  | .setPresence active => s.setPresence active
  | .acknowledge a => s.acknowledge a
  | .clearEvents => s.clearEvents
  | .transportFailed => s.transportFailed
  | .pollEvent => s.pollEvent.1
  | .spawn c => s.spawn c
  | .writeLine c long arrives => s.writeLine c long arrives
  | .take => s.take

/-- Runs of atomic steps that all satisfy `P`. -/
abbrev Path (P : Act → Prop) : Host → Host → Prop := Relation.ReflTransGen fun s t => ∃ a : Act, P a ∧ t = s.act a

variable {P : Act → Prop}

theorem Path.act {a : Act} (s : Host) (h : P a) : Path P s (s.act a) := .single ⟨a, h, rfl⟩

/-- What every atomic step keeps, every path keeps. -/
theorem Path.inv {I : Host → Prop} (h : ∀ s a, P a → I s → I (s.act a)) {s t : Host} (p : Path P s t) (hs : I s) : I t := by
  induction p with
  | refl => exact hs
  | tail _ hst ih =>
    obtain ⟨a, ha, rfl⟩ := hst
    exact h _ a ha ih

theorem moves_path (s : Host) {ms : List Move} (h : ∀ m ∈ ms, P (.move m)) : Path P s (s.moves ms) := by
  induction ms generalizing s with
  | nil => exact .refl
  | cons m ms ih => exact (Path.act s (h m List.mem_cons_self)).trans (ih _ fun m' hm => h m' (List.mem_cons_of_mem _ hm))

end Host

/-- The atomic steps of one `run`, its moves being of a kind `K`. -/
def RunAct (c : Call) (K : Move → Prop) : Act → Prop
  | .move m => K m ∨ m = .report
  | .spawn c' => c' = c
  | .writeLine c' _ _ => c' = c
  | .setPresence _ | .clearEvents | .pollEvent => False
  | _ => True

/-- The atomic steps of one `invalidate`. -/
def InvalidateAct (K : Move → Prop) : Act → Prop
  | .move m => K m ∨ m = .report
  | .cancel | .reap | .clearEvents => True
  | .setPresence active => active = false
  | _ => False

structure RunEnv.Moves (K : Move → Prop) (e : RunEnv) : Prop where
  retiring : ∀ m ∈ e.retiring, K m
  before : ∀ m ∈ e.before, K m
  waiting : ∀ m ∈ e.waiting, K m
  killing : ∀ m ∈ e.killing, K m

namespace Host

variable {c : Call} {K : Move → Prop}

theorem kill_path {P : Act → Prop} (s : Host) {during : List Move} (hc : P .cancel) (hr : P .reap) (hrep : P (.move .report))
    (h : ∀ m ∈ during, P (.move m)) : Path P s (s.kill during) :=
  calc Path P s s.cancel := Path.act s hc
    Path P _ (s.cancel.moves during) := moves_path _ h
    Path P _ ((s.cancel.moves during).move .report) := Path.act _ hrep
    Path P _ (s.kill during) := Path.act _ hr

theorem kill_run_path (s : Host) {during : List Move} (h : ∀ m ∈ during, K m) : Path (RunAct c K) s (s.kill during) :=
  kill_path s trivial trivial (.inr rfl) fun m hm => .inl (h m hm)

theorem retireDead_path (s : Host) {during : List Move} (h : ∀ m ∈ during, K m) :
    Path (RunAct c K) s (s.retireDead during) := by
  unfold retireDead
  split
  · split
    · exact .refl
    · exact (kill_run_path s h).trans (Path.act (a := .transportFailed) _ trivial)
  · exact .refl

theorem ensureChild_path (s : Host) (c : Call) (fault : Option SpawnFault) :
    Path (RunAct c K) s (s.ensureChild c fault).1 := by
  unfold ensureChild
  split
  · exact .refl
  · split
    · exact .refl
    · exact Path.act (a := .spawn c) s rfl

theorem fail_path (s : Host) {killing : List Move} (err : SessionError) (h : ∀ m ∈ killing, K m) :
    Path (RunAct c K) s (s.fail killing err).1 :=
  (kill_run_path s h).trans (Path.act (a := .transportFailed) _ trivial)

theorem receive_path (s : Host) (id : String) (cmd : Cmd) {killing : List Move} (h : ∀ m ∈ killing, K m) :
    Path (RunAct c K) s (s.receive id cmd killing).1 := by
  unfold receive
  split
  · exact .refl
  split
  · exact fail_path _ _ h
  have ht : Path (RunAct c K) s s.take := Path.act (a := .take) s trivial
  split
  · split
    · exact ht.trans (fail_path _ _ h)
    · split
      · exact ht.trans (Path.act (a := .acknowledge _) _ trivial)
      · exact ht
  · exact ht.trans (fail_path _ _ h)

/-- One `run` takes steps of `RunAct` only. -/
theorem run_path (s : Host) (c : Call) {e : RunEnv} (h : e.Moves K) : Path (RunAct c K) s (s.run c e).1 := by
  have hr := retireDead_path (c := c) s h.retiring
  have he := ensureChild_path (K := K) (s.retireDead e.retiring) c e.spawn
  unfold run
  split
  · rename_i heq
    rw [heq] at he
    exact hr.trans he
  · rename_i t heq
    rw [heq] at he
    have hm := (hr.trans he).trans (moves_path t fun m hm => .inl (h.before m hm))
    dsimp only
    split
    · exact (hm.trans (Path.act (a := .writeLine c e.long _) _ rfl)).trans (fail_path _ _ h.killing)
    · exact ((hm.trans (Path.act (a := .writeLine c e.long true) _ rfl)).trans
        (moves_path _ fun m hm => .inl (h.waiting m hm))).trans (receive_path _ _ _ h.killing)

theorem invalidate_path (s : Host) {during : List Move} (h : ∀ m ∈ during, K m) :
    Path (InvalidateAct K) s (s.invalidate during) := by
  have hp : Path (InvalidateAct K) s (s.setPresence false) := Path.act (a := .setPresence false) s rfl
  unfold invalidate
  dsimp only
  split
  · exact (hp.trans (kill_path _ trivial trivial (.inr rfl) fun m hm => .inl (h m hm))).trans
      (Path.act (a := .clearEvents) _ trivial)
  · exact hp.trans (Path.act (a := .clearEvents) _ trivial)

end Host

end ElectricEel.Client
