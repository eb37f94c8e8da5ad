/-
  ElectricEel.Child.Main — what tesla-session makes of its command line
  (helper/session/main.go: `main`, Go's flag package).

  Every flag takes a value: what follows an equals sign, or the next word. The first word
  that is no flag ends them. A word the package refuses, an empty VIN, key file or socket
  path, or an unknown backend ends the child with code 2 before it dials the parent.

  Proved: a flag and its value in two words are read as that value (`parse_pair`).
-/
import ElectricEel.Numbers.GoText

namespace ElectricEel.Child.Main

open Numbers

/-! ## The flag package -/

structure Options where
  vin : String := ""
  keyFile : String := ""
  adapterID : String := ""
  bleBackend : String := "hci"
  connectTimeout : Int := 20 * second
  commandTimeout : Int := 5 * second
  idleTimeout : Int := 90 * second
  logDir : String := ""
  socketPath : String := ""
  deriving DecidableEq, Repr

inductive FlagError where
  | badSyntax (word : String)
  | notDefined (name : String)
  | help
  | needsArgument (name : String)
  | invalidValue (value name : String)
  deriving DecidableEq, Repr

inductive Word where
  /-- With the value behind an equals sign. -/
  | flag (name : String) (value : Option String)
  | bad
  /-- No flag, or two dashes. -/
  | stop
  deriving DecidableEq, Repr

/-- A flag's name cannot begin with a dash or an equals sign. -/
def named : List Char → Word
  | [] | '-' :: _ | '=' :: _ => .bad
  | name =>
    .flag (String.ofList (name.takeWhile (· ≠ '=')))
      (if name.contains '=' then some (String.ofList ((name.dropWhile (· ≠ '=')).drop 1)) else none)

def word (s : String) : Word :=
  match s.toList with
  | ['-'] | ['-', '-'] => .stop
  | '-' :: '-' :: name => named name
  | '-' :: name => named name
  | _ => .stop

/-- `flag.DurationVar`. -/
def duration (name value : String) : Except FlagError Int :=
  match parseDuration value.toList with
  | some d => .ok d
  | none => .error (.invalidValue value name)

def flagNames : List String :=
  ["vin", "key-file", "bt-adapter-id", "ble-backend", "connect-timeout", "command-timeout", "idle-timeout", "log-dir", "socket-path"]

def undefined (name : String) : FlagError := if name = "help" ∨ name = "h" then .help else .notDefined name

def Options.set (o : Options) (name value : String) : Except FlagError Options :=
  if name = "vin" then .ok { o with vin := value }
  else if name = "key-file" then .ok { o with keyFile := value }
  else if name = "bt-adapter-id" then .ok { o with adapterID := value }
  else if name = "ble-backend" then .ok { o with bleBackend := value }
  else if name = "connect-timeout" then (duration name value).map fun d => { o with connectTimeout := d }
  else if name = "command-timeout" then (duration name value).map fun d => { o with commandTimeout := d }
  else if name = "idle-timeout" then (duration name value).map fun d => { o with idleTimeout := d }
  else if name = "log-dir" then .ok { o with logDir := value }
  else if name = "socket-path" then .ok { o with socketPath := value }
  else .error (undefined name)

theorem Options.set_connectTimeout (o : Options) (value : String) :
    o.set "connect-timeout" value = (duration "connect-timeout" value).map fun d => { o with connectTimeout := d } := rfl

theorem Options.set_commandTimeout (o : Options) (value : String) :
    o.set "command-timeout" value = (duration "command-timeout" value).map fun d => { o with commandTimeout := d } := rfl

theorem Options.set_idleTimeout (o : Options) (value : String) :
    o.set "idle-timeout" value = (duration "idle-timeout" value).map fun d => { o with idleTimeout := d } := rfl

/-- `flag.Parse`. -/
def parse : List String → Options → Except FlagError Options
  | [], o => .ok o
  | s :: rest, o =>
    match word s, rest with
    | .stop, _ => .ok o
    | .bad, _ => .error (.badSyntax s)
    | .flag name (some value), rest => (o.set name value).bind (parse rest)
    | .flag name none, [] => .error (if name ∈ flagNames then .needsArgument name else undefined name)
    | .flag name none, value :: rest => (o.set name value).bind (parse rest)

theorem parse_pair {s name : String} (h : word s = .flag name none) (value : String) (rest : List String) (o : Options) :
    parse (s :: value :: rest) o = (o.set name value).bind (parse rest) := by
  unfold parse
  rw [h]

/-! ## main -/

inductive Exit where
  | flags (e : FlagError)
  | required (text : String)
  /-- Its text quotes the backend. -/
  | invalidBackend (bleBackend : String)
  deriving DecidableEq, Repr

def Exit.code : Exit → Nat
  | .flags .help => 0
  | _ => 2

/-- The checks before the child dials its parent. -/
def checked (o : Options) : Except Exit Options :=
  if o.vin = "" ∨ o.keyFile = "" then .error (.required "tesla-session: -vin and -key-file are required")
  else if o.socketPath = "" then .error (.required "tesla-session: -socket-path is required")
  else if o.bleBackend ≠ "hci" ∧ o.bleBackend ≠ "bluez" then .error (.invalidBackend o.bleBackend)
  else .ok o

theorem checked_eq {o : Options} (hkey : o.keyFile ≠ "") (hsock : o.socketPath ≠ "")
    (hbackend : o.bleBackend = "hci" ∨ o.bleBackend = "bluez") :
    checked o = if o.vin = "" then .error (.required "tesla-session: -vin and -key-file are required") else .ok o := by
  have hb : ¬(o.bleBackend ≠ "hci" ∧ o.bleBackend ≠ "bluez") := fun h => hbackend.elim h.1 h.2
  unfold checked
  by_cases hv : o.vin = ""
  · rw [if_pos (Or.inl hv), if_pos hv]
  · rw [if_neg (not_or_intro hv hkey), if_neg hsock, if_neg hb, if_neg hv]

def main (args : List String) : Except Exit Options := ((parse args {}).mapError .flags).bind checked

example : main ["-vin", "-key-file", "k", "-socket-path", "s"] = .error (.required "tesla-session: -vin and -key-file are required") := by
  decide +kernel

end ElectricEel.Child.Main
