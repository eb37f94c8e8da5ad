/-
  ElectricEel.Wire — what crosses the session socket, and the keys and texts in it
  (session_client.rs `Request`/`Response`/`Frame`, serve.go, main.go `request`/`response`).

  JSON itself is not modelled: a line the child reads is blank, too long for its scanner,
  not a request (`malformed`, with the decoder's text) or a decoded request; a line the
  parent reads is one of the four frames or `garbled` (anything serde rejects, a blank
  line and a torn last line included).
-/
import ElectricEel.Commands

namespace ElectricEel.Wire

open Commands

/-- A P-256 key pair, named by its public half. -/
abbrev Key := Nat

/-- A text that may be the PEM form of a public key. -/
inductive Text where
  | pem (k : Key)
  | str (s : String)
  deriving DecidableEq, Repr

namespace Text

/-- `protocol.LoadPublicKey` on a file with this content. -/
def publicKey : Text → Option Key
  | pem k => some k
  | str _ => none

end Text

/-! ## Parent to child -/

structure Request where
  type : String
  id : String
  cmd : Cmd
  args : List String
  deriving DecidableEq, Repr

inductive Line where
  | blank
  /-- Over the scanner's 1 MiB. -/
  | tooLong
  | malformed (err : String)
  | request (r : Request)
  deriving DecidableEq, Repr

/-! ## Child to parent -/

structure Response where
  id : String
  ok : Bool := false
  stdout : Text := .str ""
  stderr : String := ""
  exitCode : Int := 0
  deriving DecidableEq, Repr

inductive EventKind where
  | presenceNear
  | presenceFar
  | presenceStopped
  | presenceRestarted
  | presenceDisconnected
  | presenceError
  | presenceInside
  | presenceAuthOk
  | presenceAuthFailed
  | other (kind : String)
  deriving DecidableEq, Repr

structure SessionEvent where
  kind : EventKind
  vin : String := ""
  time : String := ""
  error : String := ""
  deriving DecidableEq, Repr

inductive Frame where
  | response (r : Response)
  | event (e : SessionEvent)
  | heartbeat (unix : Int)
  | hello (v : Nat)
  | garbled
  deriving DecidableEq, Repr

def protocolVersion : Nat := 1

/-- What a command came to, as the callers of `run` see it. -/
structure RunOutcome where
  ok : Bool
  stdout : Text
  stderr : String
  exitCode : Int
  deriving DecidableEq, Repr

def Response.outcome (r : Response) : RunOutcome := ⟨r.ok, r.stdout, r.stderr, r.exitCode⟩

end ElectricEel.Wire
