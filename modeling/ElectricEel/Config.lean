/-
  ElectricEel.Config — config.json and the running configuration (helper/src/config.rs).

  A file is its bytes: a JSON document and its layout, or bytes that are no JSON. serde
  reads it twice over: as `LegacyConfig`, whose known fields it decodes and whose other
  fields it skips, and, where that fails, as a whole tree, in which it looks for `version`;
  which documents it can build so is a parameter (`builds`).
  `load`: a missing file gives the default, a rejected one with a newer version is an
  error, any other rejected one is backed up and defaults, an accepted one is decoded (the
  enrollment fields tell the schema apart) and sanitised. `save` refuses a newer schema and
  writes through `writeAtomic`, which may fail at any of its steps; a failure after the
  rename leaves the new file in place.

  Proved: what is loaded is sane, that is, sanitising it again changes nothing
  (`load_sane`); a payload `validateConfig` accepts gives a sane configuration once its
  fields are normalised (`validate_sane`); loading a saved sane configuration gives it
  back (`load_saved`); a failed save leaves the old file or the complete new one
  (`save_cases`); a load backs the file up exactly when it falls back to the default on a
  file that is there (`corruptBackup_iff`).
-/
import ElectricEel.Lib.Json
import ElectricEel.Wire
import Mathlib.Data.List.DropRight

namespace ElectricEel

/-! ## Schema -/

inductive ConfigVersion where
  | v0
  | v1
  | v2
  | unknown (v : Nat)
  deriving DecidableEq, Repr

namespace ConfigVersion

def current : ConfigVersion := v2

def toU8 : ConfigVersion → Nat
  | v0 => 0
  | v1 => 1
  | v2 => 2
  | unknown v => v

/-- `self < CURRENT` in the derived order. -/
def older : ConfigVersion → Bool
  | v0 | v1 => true
  | v2 | unknown _ => false

end ConfigVersion

inductive VinState where
  | unpaired
  | paired
  deriving DecidableEq, Repr

structure Config where
  version : ConfigVersion
  vin : String
  model : String
  keyName : String
  connectTimeoutSec : Int
  commandTimeoutSec : Int
  vinState : VinState
  deriving DecidableEq, Repr

end ElectricEel

namespace ElectricEel.Config

open Lib

/-! ## Text -/

/-- Rust's `char::is_whitespace` (Unicode White_Space). -/
def isWhitespace (c : Char) : Bool :=
  let n := c.toNat
  (9 ≤ n && n ≤ 13) || n == 32 || n == 0x85 || n == 0xA0 || n == 0x1680 || (0x2000 ≤ n && n ≤ 0x200A) ||
    n == 0x2028 || n == 0x2029 || n == 0x202F || n == 0x205F || n == 0x3000

def trimChars (l : List Char) : List Char := (l.dropWhile isWhitespace).rdropWhile isWhitespace

def trim (s : String) : String := String.ofList (trimChars s.toList)

def toAsciiLowercase (s : String) : String := String.ofList (s.toList.map Char.toLower)

/-- A prefix of a text without leading blanks has none either. -/
theorem dropWhile_prefix {l t : List Char} (hl : l.dropWhile isWhitespace = l) (ht : t <+: l) :
    t.dropWhile isWhitespace = t := by
  obtain ⟨u, rfl⟩ := ht
  rw [List.dropWhile_eq_self_iff] at hl ⊢
  intro h
  have hu : 0 < (t ++ u).length := by rw [List.length_append]; exact Nat.lt_of_lt_of_le h (Nat.le_add_right _ _)
  have hhead := hl hu
  rwa [List.getElem_append_left h] at hhead

theorem trimChars_trimChars (l : List Char) : trimChars (trimChars l) = trimChars l := by
  have hd : (trimChars l).dropWhile isWhitespace = trimChars l :=
    dropWhile_prefix (List.dropWhile_idempotent _ l) (List.rdropWhile_prefix _ _)
  calc trimChars (trimChars l) = (trimChars l).rdropWhile isWhitespace := by rw [trimChars, hd]
    _ = trimChars l := List.rdropWhile_idempotent _ _

@[simp] theorem trim_trim (s : String) : trim (trim s) = trim s := by
  simp only [trim, String.toList_ofList, trimChars_trimChars]

/-! ## Fields -/

def maxTimeoutSec : Int := 300

def maxKeyNameLen : Nat := 64

def validModels : List String := ["", "model3", "models", "modelx", "modely", "cybertruck"]

def vinChar (c : Char) : Bool :=
  ('A' ≤ c && c ≤ 'H') || ('J' ≤ c && c ≤ 'N') || c == 'P' || ('R' ≤ c && c ≤ 'Z') || ('0' ≤ c && c ≤ '9')

/-- The VIN pattern: 17 characters, letters without I, O and Q, or digits. -/
def vinRe (s : String) : Bool := s.toList.length == 17 && s.toList.all vinChar

/-- The key-name pattern. -/
def keyNameRe (s : String) : Bool :=
  s.toList.all fun c => c.isAlphanum || c == ' ' || c == '.' || c == '_' || c == '-'

def default : Config :=
  { version := .current, vin := "", model := "", keyName := "harbour-electric-eel",
    connectTimeoutSec := 20, commandTimeoutSec := 5, vinState := .unpaired }

/-! ## Reading -/

/-- Null is an explicit default value; absence identifies legacy schemas. -/
inductive EnrollmentField (α : Type) where
  | missing
  | present (v : α)
  deriving DecidableEq, Repr

structure LegacyConfig where
  version : Option ConfigVersion
  vin : String
  model : String
  keyName : String
  connectTimeoutSec : Int
  commandTimeoutSec : Int
  vinState : EnrollmentField VinState
  pairedVin : EnrollmentField String
  deriving DecidableEq, Repr

/-- config.json: a document in one of its layouts (0: `to_vec_pretty`'s), or other bytes. -/
inductive ConfigFile where
  | json (j : Json) (layout : Nat)
  | junk (bytes : Nat)
  deriving DecidableEq, Repr

/-! ### `LegacyConfig::deserialize` -/

def versionOfU8 : Nat → ConfigVersion
  | 0 => .v0
  | 1 => .v1
  | 2 => .v2
  | v => .unknown v

/-- `Option<ConfigVersion>`, absent by default; none: rejected. -/
def readVersion : Option Json → Option (Option ConfigVersion)
  | none | some .null => some none
  | some j => j.u8.map fun v => some (versionOfU8 v)

def variant : String → Option VinState
  | "unpaired" => some .unpaired
  | "paired" => some .paired
  | _ => none

/-- A unit variant: its name, or an object of its name and null. -/
def readVariant : Json → Option VinState
  | .str s => s.bind variant
  | .obj (.cons key .null .nil) => variant key
  | _ => none

/-- `present_optional`; `dflt` is the type's default. -/
def readPresent {α : Type} (read : Json → Option α) (dflt : α) : Option Json → Option (EnrollmentField α)
  | none => some .missing
  | some .null => some (.present dflt)
  | some j => (read j).map .present

def readFields (version vin model keyName connect command vinState pairedVin : Option Json) : Option LegacyConfig := do
  let version ← readVersion version
  let vin ← vin.bind Json.text
  let model ← model.elim (some "") Json.text
  let keyName ← keyName.bind Json.text
  let connectTimeoutSec ← connect.bind Json.i32
  let commandTimeoutSec ← command.bind Json.i32
  let vinState ← readPresent readVariant .unpaired vinState
  let pairedVin ← readPresent Json.text "" pairedVin
  return { version, vin, model, keyName, connectTimeoutSec, commandTimeoutSec, vinState, pairedVin }

/-- A field of the struct; outer none: it stands there twice. -/
def field (fs : Fields) (key : String) : Option (Option Json) :=
  match fs.values key with
  | [] => some none
  | [j] => some (some j)
  | _ => none

def legacy : Json → Option LegacyConfig
  | .obj fs => do
    readFields (← field fs "version") (← field fs "vin") (← field fs "model") (← field fs "key_name")
      (← field fs "connect_timeout_sec") (← field fs "command_timeout_sec") (← field fs "vin_state") (← field fs "paired_vin")
  -- a struct reads from a sequence as well, in the order of its fields
  | .arr xs =>
    match xs.toList with
    | version :: vin :: model :: keyName :: connect :: command :: rest =>
      if rest.length ≤ 2 then
        readFields (some version) (some vin) (some model) (some keyName) (some connect) (some command) rest[0]? rest[1]?
      else none
    | _ => none
  | _ => none

/-- The `version` of a file read as a `serde_json::Value`. -/
def versionNumber (builds : Json → Bool) (j : Json) : Option Nat :=
  if builds j then (j.get "version").bind Json.asU64 else none

namespace ConfigFile

def legacy : ConfigFile → Option LegacyConfig
  | json j _ => Config.legacy j
  | junk _ => none

def versionNumber (builds : Json → Bool) : ConfigFile → Option Nat
  | json j _ => Config.versionNumber builds j
  | junk _ => none

end ConfigFile

/-! ### `Config::load` -/

def decodeEnrollment (raw : LegacyConfig) : VinState × ConfigVersion :=
  match raw.vinState with
  | .present st => (st, raw.version.getD .v2)
  | .missing =>
    match raw.pairedVin with
    | .present v => (if v ≠ "" ∧ v = raw.vin then .paired else .unpaired, raw.version.getD .v1)
    | .missing => (.unpaired, raw.version.getD .v0)

def decode (raw : LegacyConfig) : Config :=
  { version := (decodeEnrollment raw).2, vin := raw.vin, model := raw.model, keyName := raw.keyName,
    connectTimeoutSec := raw.connectTimeoutSec, commandTimeoutSec := raw.commandTimeoutSec,
    vinState := (decodeEnrollment raw).1 }

def timeoutOk (t : Int) : Bool := 0 < t && t ≤ maxTimeoutSec

def vinOk (vin : String) : Bool := vin == "" || vinRe vin

def keyNameOk (name : String) : Bool := name.utf8ByteSize ≤ maxKeyNameLen && keyNameRe name

def sanitize (cfg : Config) : Config :=
  { cfg with
    connectTimeoutSec := if timeoutOk cfg.connectTimeoutSec then cfg.connectTimeoutSec else default.connectTimeoutSec
    commandTimeoutSec := if timeoutOk cfg.commandTimeoutSec then cfg.commandTimeoutSec else default.commandTimeoutSec
    vin := if vinOk (trim cfg.vin) then trim cfg.vin else ""
    model :=
      let model := toAsciiLowercase (trim cfg.model)
      if model ∈ validModels then model else default.model
    keyName := if keyNameOk (trim cfg.keyName) then trim cfg.keyName else default.keyName }

inductive FsStep where
  | create
  | chmod
  | write
  | sync
  | close
  | rename
  | openDir
  | syncDir
  deriving DecidableEq, Repr

/-- The new file is in place already. -/
def FsStep.afterRename : FsStep → Bool
  | openDir | syncDir => true
  | _ => false

inductive IoError where
  | step (s : FsStep)
  /-- `fs::read` failed with something other than NotFound. -/
  | read
  | invalidData (text : String)
  deriving DecidableEq, Repr

/-- A rejected file of a newer schema. -/
def newer (builds : Json → Bool) (file : ConfigFile) : Bool := (file.versionNumber builds).any (· > ConfigVersion.current.toU8)

/-- `unreadable`: the file is there but `fs::read` fails. -/
def load (builds : Json → Bool) (unreadable : Bool) : Option ConfigFile → Except IoError Config
  | none => .ok default
  | some file =>
    if unreadable then .error .read
    else
      match file.legacy with
      | some raw => .ok (sanitize (decode raw))
      | none => if newer builds file then .error (.invalidData "unsupported newer config schema") else .ok default

/-- What `load` copies to config.corrupt-<timestamp>.json, if it does. -/
def corruptBackup (builds : Json → Bool) (unreadable : Bool) : Option ConfigFile → Option ConfigFile
  | none => none
  | some file => if unreadable || file.legacy.isSome || newer builds file then none else some file

/-! ## Writing -/

/-- The replaced file and whether the call succeeded. The temporary file is gone on every
    failure before the rename. -/
def writeAtomic {α : Type} (old new : α) : Option FsStep → α × Except IoError Unit
  | none => (new, .ok ())
  | some .openDir => (new, .error (.step .openDir))
  | some .syncDir => (new, .error (.step .syncDir))
  | some s => (old, .error (.step s))

def ensureWritable (cfg : Config) : Except IoError Unit :=
  match cfg.version with
  | .unknown _ =>
    .error (.invalidData "config schema is newer than this build; update the app before changing settings or keys")
  | _ => .ok ()

def vinStateJson : VinState → Json
  | .unpaired => .str (some "unpaired")
  | .paired => .str (some "paired")

def configFields (cfg : Config) : Fields :=
  .ofList [("version", .int cfg.version.toU8), ("vin", .str (some cfg.vin)), ("model", .str (some cfg.model)),
    ("key_name", .str (some cfg.keyName)), ("connect_timeout_sec", .int cfg.connectTimeoutSec),
    ("command_timeout_sec", .int cfg.commandTimeoutSec), ("vin_state", vinStateJson cfg.vinState)]

/-- What `serde_json::to_vec_pretty` writes. -/
def encode (cfg : Config) : ConfigFile := .json (.obj (configFields cfg)) 0

def save (cfg : Config) (file : Option ConfigFile) (fault : Option FsStep) : Option ConfigFile × Except IoError Unit :=
  match ensureWritable cfg with
  | .error e => (file, .error e)
  | .ok () => writeAtomic file (some (encode cfg)) fault

/-! ## Validation -/

inductive ConfigError where
  | positiveTimeout
  | maxTimeout
  | invalidVin
  | invalidKeyName
  | invalidModel
  deriving DecidableEq, Repr

def validateConfig (vin model keyName : String) (connectTimeout commandTimeout : Int) : Except ConfigError Unit :=
  if connectTimeout ≤ 0 ∨ commandTimeout ≤ 0 then .error .positiveTimeout
  else if connectTimeout > maxTimeoutSec ∨ commandTimeout > maxTimeoutSec then .error .maxTimeout
  else if ¬ vinOk (trim vin) then .error .invalidVin
  else if toAsciiLowercase (trim model) ∉ validModels then .error .invalidModel
  else if ¬ keyNameOk (trim keyName) then .error .invalidKeyName
  else .ok ()

/-! ## Sane configurations -/

/-- What every loaded or accepted configuration satisfies: nothing left to repair. -/
structure Sane (cfg : Config) : Prop where
  connect : timeoutOk cfg.connectTimeoutSec = true
  command : timeoutOk cfg.commandTimeoutSec = true
  vin : trim cfg.vin = cfg.vin ∧ vinOk cfg.vin = true
  model : cfg.model ∈ validModels
  keyName : trim cfg.keyName = cfg.keyName ∧ keyNameOk cfg.keyName = true

theorem model_normal : ∀ m ∈ validModels, toAsciiLowercase (trim m) = m := by decide

theorem default_sane : Sane default := ⟨by decide, by decide, by decide, by decide, by decide⟩

/-- Enrollment and version are nothing a repair looks at. -/
theorem Sane.enrolled {cfg : Config} (h : Sane cfg) (version : ConfigVersion) (st : VinState) :
    Sane { cfg with version, vinState := st } :=
  ⟨h.connect, h.command, h.vin, h.model, h.keyName⟩

theorem sanitize_sane (cfg : Config) : Sane (sanitize cfg) where
  connect := by
    by_cases h : timeoutOk cfg.connectTimeoutSec = true
    · simp [sanitize, h]
    · simp [sanitize, h]; decide
  command := by
    by_cases h : timeoutOk cfg.commandTimeoutSec = true
    · simp [sanitize, h]
    · simp [sanitize, h]; decide
  vin := by
    by_cases h : vinOk (trim cfg.vin) = true
    · simp [sanitize, h]
    · simp [sanitize, h]; decide
  model := by
    by_cases h : toAsciiLowercase (trim cfg.model) ∈ validModels
    · simp [sanitize, h]
    · simp [sanitize, h]; decide
  keyName := by
    by_cases h : keyNameOk (trim cfg.keyName) = true
    · simp [sanitize, h]
    · simp [sanitize, h]; decide

theorem sanitize_of_sane {cfg : Config} (h : Sane cfg) : sanitize cfg = cfg := by
  have hm := model_normal _ h.model
  simp [sanitize, h.connect, h.command, h.vin.1, h.vin.2, h.keyName.1, h.keyName.2, hm, h.model]

theorem load_sane {builds : Json → Bool} {unreadable : Bool} {file : Option ConfigFile} {cfg : Config}
    (h : load builds unreadable file = .ok cfg) :
    Sane cfg := by
  unfold load at h
  split at h
  · cases h; exact default_sane
  · split at h
    · cases h
    · split at h
      · cases h; exact sanitize_sane _
      · split at h
        · cases h
        · cases h; exact default_sane

theorem validate_sane {vin model keyName : String} {connect command : Int}
    (h : validateConfig vin model keyName connect command = .ok ()) (version : ConfigVersion) (st : VinState) :
    Sane { version, vin := trim vin, model := toAsciiLowercase (trim model), keyName := trim keyName,
           connectTimeoutSec := connect, commandTimeoutSec := command, vinState := st } := by
  unfold validateConfig at h
  split at h
  · cases h
  split at h
  · cases h
  split at h
  · cases h
  split at h
  · cases h
  split at h
  · cases h
  rename_i hpos hmax hvin hmodel hkey
  have hc : timeoutOk connect = true := by simp [timeoutOk]; omega
  have hm : timeoutOk command = true := by simp [timeoutOk]; omega
  exact ⟨hc, hm, ⟨trim_trim _, by simpa using hvin⟩, by simpa using hmodel, ⟨trim_trim _, by simpa using hkey⟩⟩

/-! ## Round trip -/

theorem i32_of_timeoutOk {t : Int} (h : timeoutOk t = true) : Json.i32 (.int t) = some t := by
  have hlo : 0 < t := of_decide_eq_true (Bool.and_eq_true_iff.1 h).1
  have hhi : t ≤ 300 := of_decide_eq_true (Bool.and_eq_true_iff.1 h).2
  exact if_pos ⟨by omega, by omega⟩

theorem readVersion_json {v : ConfigVersion} (h : ∀ n, v ≠ .unknown n) :
    readVersion (some (.int v.toU8)) = some (some v) := by
  cases v with
  | unknown n => exact (h n rfl).elim
  | _ => rfl

theorem writable_version {cfg : Config} (h : ensureWritable cfg = .ok ()) : ∀ n, cfg.version ≠ .unknown n := by
  intro n hv
  simp [ensureWritable, hv] at h

/-- Every field of a written configuration reads back. -/
theorem legacy_encode {cfg : Config} (hw : ensureWritable cfg = .ok ()) (h : Sane cfg) :
    (encode cfg).legacy = some
      { version := some cfg.version, vin := cfg.vin, model := cfg.model, keyName := cfg.keyName,
        connectTimeoutSec := cfg.connectTimeoutSec, commandTimeoutSec := cfg.commandTimeoutSec,
        vinState := .present cfg.vinState, pairedVin := .missing } := by
  have hv := readVersion_json (writable_version hw)
  have hc := i32_of_timeoutOk h.connect
  have hm := i32_of_timeoutOk h.command
  have hst : readPresent readVariant .unpaired (some (vinStateJson cfg.vinState)) = some (.present cfg.vinState) := by
    cases cfg.vinState <;> rfl
  have hpv : readPresent Json.text "" none = some .missing := rfl
  show legacy (.obj (configFields cfg)) = _
  simp only [legacy, field, Fields.values, configFields, Fields.toList_ofList, List.filter, List.map,
    String.reduceBEq, Option.bind_eq_bind, Option.bind_some, readFields, hv, Json.text, Option.elim, hc, hm, hst, hpv,
    Option.pure_def]

theorem load_saved {builds : Json → Bool} {cfg : Config} (hw : ensureWritable cfg = .ok ()) (h : Sane cfg) :
    load builds false (some (encode cfg)) = .ok cfg := by
  have hs := sanitize_of_sane h
  simp only [load, legacy_encode hw h, Bool.false_eq_true, if_false, decode, decodeEnrollment, Option.getD_some]
  exact congrArg Except.ok hs

/-- What a load read, the next one reads. -/
theorem load_readable {builds : Json → Bool} {unreadable : Bool} {file : Option ConfigFile} {cfg : Config}
    (h : load builds unreadable file = .ok cfg) :
    load builds false file = .ok cfg := by
  cases file with
  | none => exact h
  | some f =>
    cases unreadable with
    | false => exact h
    | true => cases h

/-- A load keeps a copy exactly when it throws a file away. -/
theorem corruptBackup_iff (builds : Json → Bool) (file : ConfigFile) (unreadable : Bool) :
    corruptBackup builds unreadable (some file) = some file ↔
      load builds unreadable (some file) = .ok default ∧ file.legacy = none := by
  cases unreadable with
  | true => simp [corruptBackup, load]
  | false =>
    cases hl : file.legacy with
    | some raw => simp [corruptBackup, hl]
    | none => by_cases hn : newer builds file = true <;> simp [corruptBackup, load, hl, hn]

/-- What a save leaves in config.json. -/
theorem save_file (cfg : Config) (file : Option ConfigFile) (fault : Option FsStep) :
    (save cfg file fault).1 =
      if ensureWritable cfg = .ok () ∧ fault.all FsStep.afterRename = true then some (encode cfg) else file := by
  unfold save
  split
  · rename_i hw
    simp [hw]
  · rename_i hw
    rcases fault with _ | s
    · simp [hw, writeAtomic]
    · cases s <;> simp [hw, writeAtomic, FsStep.afterRename]

theorem save_ok_iff (cfg : Config) (file : Option ConfigFile) (fault : Option FsStep) :
    (save cfg file fault).2 = .ok () ↔ ensureWritable cfg = .ok () ∧ fault = none := by
  unfold save
  split
  · rename_i hw
    simp [hw]
  · rename_i hw
    rcases fault with _ | s
    · simp [hw, writeAtomic]
    · cases s <;> simp [hw, writeAtomic]

theorem writeAtomic_cases {α : Type} (old new : α) (fault : Option FsStep) :
    writeAtomic old new fault = (new, .ok ()) ∨
    (∃ s, writeAtomic old new fault = (new, .error (.step s))) ∨
    ∃ s, writeAtomic old new fault = (old, .error (.step s)) := by
  unfold writeAtomic
  split
  · exact .inl rfl
  · exact .inr (.inl ⟨_, rfl⟩)
  · exact .inr (.inl ⟨_, rfl⟩)
  · exact .inr (.inr ⟨_, rfl⟩)

/-- A save that succeeds wrote the file; one that fails left the old file or the new one. -/
theorem save_cases (cfg : Config) (file : Option ConfigFile) (fault : Option FsStep) :
    save cfg file fault = (some (encode cfg), .ok ()) ∨
    (∃ e, save cfg file fault = (some (encode cfg), .error e)) ∨
    ∃ e, save cfg file fault = (file, .error e) := by
  unfold save
  split
  · exact .inr (.inr ⟨_, rfl⟩)
  · rcases writeAtomic_cases file (some (encode cfg)) fault with h | ⟨s, h⟩ | ⟨s, h⟩
    · exact .inl h
    · exact .inr (.inl ⟨_, h⟩)
    · exact .inr (.inr ⟨_, h⟩)

end ElectricEel.Config
