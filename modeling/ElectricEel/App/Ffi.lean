/-
  ElectricEel.App.Ffi — the strings that cross the core's C interface (helper/src/ffi.rs,
  app/src/teslaclient.cpp `CoreWorker`, `takeCString`).

  The core allocates each text it writes to an output slot; the worker reads it and frees it. The
  core itself is a cell that `core_new` allocates and `core_free` frees. To read or free a cell that
  is not allocated is a fault. A slot the core did not write is NULL; the worker passes no NULL slots
  and no text that is not UTF-8. What the core replies to a call is part of the call, as a function
  of what reached it. Where C++ leaves the order of a call's arguments open, they are evaluated
  from left to right.

  Proved: a whole life of the worker, from `initialize` over any calls to its end, does not fault,
  emits for each call just what the core replied, a NUL in it replaced, and leaves no cell
  behind (`life_exact`); every command is answered once, by one signal (`run_answered`).
-/
import ElectricEel.Lib.Heap

namespace ElectricEel.App.Ffi

open Lib Lib.Heap

abbrev Ptr := Nat

inductive Cell where
  | text (s : String)
  | core
  deriving DecidableEq, Repr

/-- An output slot of a call. -/
inductive OutSlot where
  | errorMessage
  | vin
  | model
  | keyName
  | publicKeyPem
  | stdout
  | stderr
  | kind
  | time
  | value1
  | value2
  deriving DecidableEq, Repr

abbrev Slots := OutSlot → Option Ptr

inductive CoreError where
  | ok
  | badArg
  | internal
  deriving DecidableEq, Repr

def CoreError.number : CoreError → String
  | .ok => "0"
  | .badArg => "1"
  | .internal => "2"

/-! ## The core's side -/

def nul : Char := Char.ofNat 0

def sanitized (s : String) : String := String.ofList (s.toList.map fun c => if c = nul then Char.ofNat 0xFFFD else c)

/-- What of a text the core reads: up to the first NUL. -/
def cstr (s : String) : String := String.ofList (s.toList.takeWhile (· ≠ nul))

def write : List (OutSlot × String) → HeapM Cell Slots
  | [] => return fun _ => none
  | (slot, s) :: rest => do
    let p ← alloc (.text (sanitized s))
    let slots ← write rest
    return fun x => if x = slot then some p else slots x

/-- `core.as_ref()`. -/
def asRef : Option Ptr → HeapM Cell Bool
  | none => return false
  | some p => do
    match ← read p with
    | .core => return true
    | .text _ => failure

/-- What a call leaves in its slots. -/
structure Out where
  code : CoreError
  ok : Bool := false
  exitCode : Int := 0
  connectTimeoutSec : Int := 0
  commandTimeoutSec : Int := 0
  slots : Slots

/-- A call that looks at the handle and writes its results. -/
def call (core : Option Ptr) (out : Slots → Out) (texts : List (OutSlot × String)) : HeapM Cell Out := do
  if ← asRef core then
    let slots ← write texts
    return out slots
  else return { code := .badArg, slots := fun _ => none }

structure RunReply where
  ok : Bool
  stdout : String
  stderr : String
  exitCode : Int
  deriving DecidableEq, Repr

structure StatusReply where
  vin : String
  model : String
  keyName : String
  connectTimeoutSec : Int
  commandTimeoutSec : Int
  hasKey : Bool
  publicKeyPem : String
  deriving DecidableEq, Repr

structure PolledEvent where
  kind : String
  vin : String
  time : String
  error : String
  deriving DecidableEq, Repr

def coreNew (reply : Except String Unit) : HeapM Cell (Option Ptr × Slots) :=
  match reply with
  | .ok () => do
    let p ← alloc .core
    return (some p, fun _ => none)
  | .error err => do
    let slots ← write [(.errorMessage, err)]
    return (none, slots)

def coreFree : Option Ptr → HeapM Cell Unit
  | none => return ()
  | some p => free p

def coreGetStatus (core : Option Ptr) (r : StatusReply) : HeapM Cell Out :=
  call core
    (fun slots =>
      { code := .ok, ok := r.hasKey, connectTimeoutSec := r.connectTimeoutSec, commandTimeoutSec := r.commandTimeoutSec, slots })
    [(.vin, r.vin), (.model, r.model), (.keyName, r.keyName), (.publicKeyPem, r.publicKeyPem)]

def coreSetConfig (core : Option Ptr) : Except String Unit → HeapM Cell Out
  | .ok () => call core (fun slots => { code := .ok, ok := true, slots }) [(.errorMessage, "")]
  | .error msg => call core (fun slots => { code := .ok, slots }) [(.errorMessage, msg)]

def coreGenerateKey (core : Option Ptr) : Except String String → HeapM Cell Out
  | .ok pubkey => call core (fun slots => { code := .ok, ok := true, slots }) [(.publicKeyPem, pubkey), (.errorMessage, "")]
  | .error err => call core (fun slots => { code := .ok, slots }) [(.publicKeyPem, ""), (.errorMessage, err)]

/-- `core_pair` and `core_share_destination`. -/
def corePair (core : Option Ptr) : Except String (Bool × String × String) → HeapM Cell Out
  | .ok (success, output, err) => call core (fun slots => { code := .ok, ok := success, slots }) [(.stdout, output), (.errorMessage, err)]
  | .error e => call core (fun slots => { code := .ok, slots }) [(.errorMessage, e)]

def coreStartPhoneKey (core : Option Ptr) : Except String Unit → HeapM Cell Out
  | .ok () => call core (fun slots => { code := .ok, ok := true, slots }) [(.errorMessage, "")]
  | .error e => call core (fun slots => { code := .ok, slots }) [(.errorMessage, e)]

def coreHandleResume (core : Option Ptr) : HeapM Cell Out := call core (fun slots => { code := .ok, slots }) []

def corePollPhoneKeyEvent (core : Option Ptr) : Option PolledEvent → HeapM Cell Out
  | none => call core (fun slots => { code := .ok, slots }) []
  | some ev =>
    call core (fun slots => { code := .ok, ok := true, slots })
      [(.kind, ev.kind), (.vin, ev.vin), (.time, ev.time), (.errorMessage, ev.error)]

def coreRun (core : Option Ptr) : Except String RunReply → HeapM Cell Out
  | .ok r =>
    call core (fun slots => { code := .ok, ok := r.ok, exitCode := r.exitCode, slots }) [(.stdout, r.stdout), (.stderr, r.stderr)]
  | .error e => call core (fun slots => { code := .ok, slots }) [(.errorMessage, e)]

def corePreviewDestination (core : Option Ptr) : Except String (String × String × String) → HeapM Cell Out
  | .ok (kind, value1, value2) =>
    call core (fun slots => { code := .ok, ok := true, slots })
      [(.kind, kind), (.value1, value1), (.value2, value2), (.errorMessage, "")]
  | .error e => call core (fun slots => { code := .ok, slots }) [(.errorMessage, e)]

/-! ## The worker's side -/

inductive CoreSignal where
  | initialized (ok : Bool) (errorMessage : String)
  | commandFinished (requestId : String) (ok : Bool) (stdOut stdErr : String) (exitCode : Int)
  | commandError (requestId message : String)
  | keyGenerated (ok : Bool) (pem errorMessage : String)
  | paired (ok : Bool) (out errorMessage : String)
  | configSaved (ok : Bool) (errorMessage : String)
  | configLoaded (vin model keyName : String) (connectTimeoutSec commandTimeoutSec : Int) (hasKey : Bool) (publicKeyPem : String)
  | phoneKeyStarted (active : Bool) (errorMessage : String)
  | phoneKeyEvent (kind vin time errorMessage : String)
  | destinationPreviewed (requestId : String) (ok : Bool) (kind value1 value2 errorMessage : String)
  | shareFinished (requestId : String) (ok : Bool) (out errorMessage : String)
  deriving DecidableEq, Repr

def takeCString : Option Ptr → HeapM Cell String
  | none => return ""
  | some p => do
    match ← take p with
    | .text s => return s
    | .core => failure

def notInitialized : String := "control core not initialized"

def orText (message text : String) : String := if message = "" then text else message

def abiError (name : String) (rc : CoreError) : String := name ++ " failed (ABI error " ++ rc.number ++ ")"

def runCommand (core : Option Ptr) (requestId : String) (reply : Except String RunReply) : HeapM Cell (List CoreSignal) :=
  if core.isNone then return [.commandError requestId notInitialized]
  else do
    let o ← coreRun core reply
    if o.code ≠ .ok then
      let message ← takeCString (o.slots .errorMessage)
      return [.commandError requestId (orText message (abiError "core_run" o.code))]
    else if (o.slots .errorMessage).isSome then
      let message ← takeCString (o.slots .errorMessage)
      return [.commandError requestId message]
    else
      let stdoutText ← takeCString (o.slots .stdout)
      let stderrText ← takeCString (o.slots .stderr)
      return [.commandFinished requestId o.ok stdoutText stderrText o.exitCode]

def refreshPhoneKeyState (core : Option Ptr) (reply : Except String Unit) : HeapM Cell (List CoreSignal) := do
  let o ← coreStartPhoneKey core reply
  let message ← takeCString (o.slots .errorMessage)
  return [.phoneKeyStarted o.ok (if o.code ≠ .ok then orText message (abiError "core_start_phone_key" o.code) else message)]

def generateKey (core : Option Ptr) (reply : Except String String) (start : Except String Unit) : HeapM Cell (List CoreSignal) :=
  if core.isNone then return [.keyGenerated false "" notInitialized]
  else do
    let o ← coreGenerateKey core reply
    if o.code ≠ .ok then
      let message ← takeCString (o.slots .errorMessage)
      return [.keyGenerated false "" (orText message (abiError "core_generate_key" o.code))]
    else
      let pem ← takeCString (o.slots .publicKeyPem)
      let message ← takeCString (o.slots .errorMessage)
      let refreshed ← refreshPhoneKeyState core start
      return .keyGenerated o.ok pem message :: refreshed

def pair (core : Option Ptr) (reply : Except String (Bool × String × String)) (start : Except String Unit) :
    HeapM Cell (List CoreSignal) :=
  if core.isNone then return [.paired false "" notInitialized]
  else do
    let o ← corePair core reply
    if o.code ≠ .ok then
      let message ← takeCString (o.slots .errorMessage)
      return [.paired false "" (orText message (abiError "core_pair" o.code))]
    else
      let out ← takeCString (o.slots .stdout)
      let message ← takeCString (o.slots .errorMessage)
      let refreshed ← refreshPhoneKeyState core start
      return .paired o.ok out message :: refreshed

def setConfig (core : Option Ptr) (reply : Except String Unit) (start : Except String Unit) : HeapM Cell (List CoreSignal) :=
  if core.isNone then return [.configSaved false notInitialized]
  else do
    let o ← coreSetConfig core reply
    if o.code ≠ .ok then
      let message ← takeCString (o.slots .errorMessage)
      return [.configSaved false (orText message (abiError "core_set_config" o.code))]
    else
      let message ← takeCString (o.slots .errorMessage)
      if o.ok then
        let refreshed ← refreshPhoneKeyState core start
        return .configSaved o.ok message :: refreshed
      else return [.configSaved o.ok message]

def refreshConfig (core : Option Ptr) (reply : StatusReply) : HeapM Cell (List CoreSignal) :=
  if core.isNone then return [.configLoaded "" "" "" 0 0 false ""]
  else do
    let o ← coreGetStatus core reply
    if o.code ≠ .ok then return [.configLoaded "" "" "" 0 0 false ""]
    else
      let vin ← takeCString (o.slots .vin)
      let model ← takeCString (o.slots .model)
      let keyName ← takeCString (o.slots .keyName)
      let publicKeyPem ← takeCString (o.slots .publicKeyPem)
      return [.configLoaded vin model keyName o.connectTimeoutSec o.commandTimeoutSec o.ok publicKeyPem]

def previewDestination (core : Option Ptr) (requestId : String) (reply : Except String (String × String × String)) :
    HeapM Cell (List CoreSignal) :=
  if core.isNone then return [.destinationPreviewed requestId false "" "" "" notInitialized]
  else do
    let o ← corePreviewDestination core reply
    if o.code ≠ .ok then return [.destinationPreviewed requestId false "" "" "" (abiError "core_preview_destination" o.code)]
    else
      let kind ← takeCString (o.slots .kind)
      let value1 ← takeCString (o.slots .value1)
      let value2 ← takeCString (o.slots .value2)
      let message ← takeCString (o.slots .errorMessage)
      return [.destinationPreviewed requestId o.ok kind value1 value2 message]

def shareDestination (core : Option Ptr) (requestId : String) (reply : Except String (Bool × String × String)) :
    HeapM Cell (List CoreSignal) :=
  if core.isNone then return [.shareFinished requestId false "" notInitialized]
  else do
    let o ← corePair core reply
    if o.code ≠ .ok then return [.shareFinished requestId false "" (abiError "core_share_destination" o.code)]
    else
      let out ← takeCString (o.slots .stdout)
      let message ← takeCString (o.slots .errorMessage)
      return [.shareFinished requestId o.ok out message]

/-- The loop, over the events the core has; `now` is the time of those that carry none. -/
def pollPhoneKeyEvents (core : Option Ptr) (now : String) : List PolledEvent → HeapM Cell (List CoreSignal)
  | [] => do
    let _ ← corePollPhoneKeyEvent core none
    return []
  | ev :: events => do
    let o ← corePollPhoneKeyEvent core (some ev)
    if o.code ≠ .ok || !o.ok then return []
    else
      let eventTime ← takeCString (o.slots .time)
      let kind ← takeCString (o.slots .kind)
      let vin ← takeCString (o.slots .vin)
      let error ← takeCString (o.slots .errorMessage)
      let rest ← pollPhoneKeyEvents core now events
      return .phoneKeyEvent kind vin (orText eventTime now) error :: rest

def handleResume (core : Option Ptr) (start : Except String Unit) : HeapM Cell (List CoreSignal) :=
  if core.isNone then return []
  else do
    let o ← coreHandleResume core
    if o.code ≠ .ok then return [.phoneKeyStarted false "Resume failed"] else refreshPhoneKeyState core start

/-- The worker's slots after `initialize`, each with what the core makes of what reaches it. -/
inductive CoreCall where
  | runCommand (requestId cmd : String) (args : List String) (reply : String → List String → Except String RunReply)
  | generateKey (force : Bool) (reply : Bool → Except String String) (start : Except String Unit)
  | pair (reply : Except String (Bool × String × String)) (start : Except String Unit)
  | setConfig (vin model keyName : String) (connectTimeoutSec commandTimeoutSec : Int)
      (reply : String → String → String → Int → Int → Except String Unit) (start : Except String Unit)
  | refreshConfig (reply : StatusReply)
  | previewDestination (requestId text : String) (reply : String → Except String (String × String × String))
  | shareDestination (requestId text : String) (reply : String → Except String (Bool × String × String))
  | pollPhoneKeyEvents (now : String) (events : List PolledEvent)
  | handleResume (start : Except String Unit)

def CoreCall.execute (core : Option Ptr) : CoreCall → HeapM Cell (List CoreSignal)
  | .runCommand requestId cmd args reply => Ffi.runCommand core requestId (reply (cstr cmd) (args.map cstr))
  | .generateKey force reply start => Ffi.generateKey core (reply force) start
  | .pair reply start => Ffi.pair core reply start
  | .setConfig vin model keyName connectTimeoutSec commandTimeoutSec reply start =>
    Ffi.setConfig core (reply (cstr vin) (cstr model) (cstr keyName) connectTimeoutSec commandTimeoutSec) start
  | .refreshConfig reply => Ffi.refreshConfig core reply
  | .previewDestination requestId text reply => Ffi.previewDestination core requestId (reply (cstr text))
  | .shareDestination requestId text reply => Ffi.shareDestination core requestId (reply (cstr text))
  | .pollPhoneKeyEvents now events => if core.isNone then return [] else Ffi.pollPhoneKeyEvents core now events
  | .handleResume start => Ffi.handleResume core start

def executeAll (core : Option Ptr) : List CoreCall → HeapM Cell (List CoreSignal)
  | [] => return []
  | c :: calls => do
    let signals ← c.execute core
    let rest ← executeAll core calls
    return signals ++ rest

def initializeWorker (reply : Except String Unit) (start : Except String Unit) : HeapM Cell (Option Ptr × List CoreSignal) := do
  let (core, slots) ← coreNew reply
  if core.isNone then
    let message ← takeCString (slots .errorMessage)
    return (core, [.initialized false (orText message "core_new failed: unknown error")])
  else
    let refreshed ← refreshPhoneKeyState core start
    return (core, refreshed ++ [.initialized true ""])

/-- `initialize`, any slots, `shutdown`; the destructor finds no core any more. -/
def life (reply start : Except String Unit) (calls : List CoreCall) : HeapM Cell (List CoreSignal) := do
  let (core, signals) ← initializeWorker reply start
  let rest ← executeAll core calls
  coreFree core
  return signals ++ rest

/-! ## What a call answers -/

def started : Except String Unit → CoreSignal
  | .ok () => .phoneKeyStarted true ""
  | .error e => .phoneKeyStarted false (sanitized e)

/-- The signals of a call in terms of what the core replies. -/
def CoreCall.answer : CoreCall → List CoreSignal
  | .runCommand requestId cmd args reply =>
    match reply (cstr cmd) (args.map cstr) with
    | .ok r => [.commandFinished requestId r.ok (sanitized r.stdout) (sanitized r.stderr) r.exitCode]
    | .error e => [.commandError requestId (sanitized e)]
  | .generateKey force reply start =>
    match reply force with
    | .ok pem => [.keyGenerated true (sanitized pem) "", started start]
    | .error e => [.keyGenerated false "" (sanitized e), started start]
  | .pair reply start =>
    match reply with
    | .ok (success, out, err) => [.paired success (sanitized out) (sanitized err), started start]
    | .error e => [.paired false "" (sanitized e), started start]
  | .setConfig vin model keyName connectTimeoutSec commandTimeoutSec reply start =>
    match reply (cstr vin) (cstr model) (cstr keyName) connectTimeoutSec commandTimeoutSec with
    | .ok () => [.configSaved true "", started start]
    | .error e => [.configSaved false (sanitized e)]
  | .refreshConfig r =>
    [.configLoaded (sanitized r.vin) (sanitized r.model) (sanitized r.keyName) r.connectTimeoutSec r.commandTimeoutSec r.hasKey
      (sanitized r.publicKeyPem)]
  | .previewDestination requestId text reply =>
    match reply (cstr text) with
    | .ok (kind, value1, value2) => [.destinationPreviewed requestId true (sanitized kind) (sanitized value1) (sanitized value2) ""]
    | .error e => [.destinationPreviewed requestId false "" "" "" (sanitized e)]
  | .shareDestination requestId text reply =>
    match reply (cstr text) with
    | .ok (success, out, err) => [.shareFinished requestId success (sanitized out) (sanitized err)]
    | .error e => [.shareFinished requestId false "" (sanitized e)]
  | .pollPhoneKeyEvents now events =>
    events.map fun ev => .phoneKeyEvent (sanitized ev.kind) (sanitized ev.vin) (orText (sanitized ev.time) now) (sanitized ev.error)
  | .handleResume start => [started start]

/-- Without a core. -/
def CoreCall.refused : CoreCall → List CoreSignal
  | .runCommand requestId _ _ _ => [.commandError requestId notInitialized]
  | .generateKey .. => [.keyGenerated false "" notInitialized]
  | .pair .. => [.paired false "" notInitialized]
  | .setConfig .. => [.configSaved false notInitialized]
  | .refreshConfig _ => [.configLoaded "" "" "" 0 0 false ""]
  | .previewDestination requestId _ _ => [.destinationPreviewed requestId false "" "" "" notInitialized]
  | .shareDestination requestId _ _ => [.shareFinished requestId false "" notInitialized]
  | .pollPhoneKeyEvents .. => []
  | .handleResume _ => []

/-! ## Ownership -/

def cellOf (slots : Slots) (t : OutSlot × String) : Ptr × Cell := ((slots t.1).getD 0, .text (sanitized t.2))

/-- The texts the worker has yet to take, each in the cell its slot points to. -/
structure Filled (slots : Slots) (texts : List (OutSlot × String)) (rest : List (Ptr × Cell)) (h : Heap Cell) : Prop where
  holds : h.Holds (texts.map (cellOf slots) ++ rest)
  written : ∀ t ∈ texts, (slots t.1).isSome = true

/-- With the cells of `rest` the program emits this and leaves them as they are. -/
def Gives {β : Type} (rest : List (Ptr × Cell)) (m : HeapM Cell β) (b : β) : Prop :=
  Meets (·.Holds rest) m fun b' h => h.Holds rest ∧ b' = b

variable {β : Type} {rest : List (Ptr × Cell)} {slots : Slots} {texts : List (OutSlot × String)}

@[simp] theorem sanitized_empty : sanitized "" = "" := by decide

theorem write_meets (hnd : (texts.map Prod.fst).Nodup) :
    Meets (·.Holds rest) (write texts) fun slots h =>
      Filled slots texts rest h ∧ ∀ x, x ∉ texts.map Prod.fst → slots x = none := by
  induction texts generalizing rest with
  | nil => exact Meets.pure fun _ hh => ⟨⟨hh, fun _ ht => absurd ht List.not_mem_nil⟩, fun _ _ => rfl⟩
  | cons t texts ih =>
    obtain ⟨slot, s⟩ := t
    rw [List.map_cons, List.nodup_cons] at hnd
    refine (alloc_meets rest (Cell.text (sanitized s))).bind fun p => ?_
    refine (ih hnd.2).bind fun slots => Meets.pure fun h hh => ?_
    obtain ⟨hfill, hnull⟩ := hh
    have hother : ∀ u ∈ texts, u.1 ≠ slot := fun u hu he => hnd.1 (List.mem_map.2 ⟨u, hu, he⟩)
    refine ⟨⟨?_, fun u hu => ?_⟩, fun x hx => ?_⟩
    · have hcells : texts.map (cellOf fun x => if x = slot then some p else slots x) = texts.map (cellOf slots) :=
        List.map_congr_left fun u hu => by rw [cellOf, if_neg (hother u hu)]; rfl
      rw [List.map_cons, hcells, show cellOf (fun x => if x = slot then some p else slots x) (slot, s) = (p, .text (sanitized s)) by simp [cellOf]]
      exact hfill.holds.of_perm List.perm_middle
    · rcases List.mem_cons.1 hu with rfl | hu
      · simp
      · rw [if_neg (hother u hu)]
        exact hfill.written u hu
    · rw [List.map_cons, List.mem_cons, not_or] at hx
      exact (if_neg hx.1).trans (hnull x hx.2)

theorem takeCString_meets (l : List (OutSlot × String)) {r : List (OutSlot × String)} {slot : OutSlot} {s : String} :
    Meets (Filled slots (l ++ (slot, s) :: r) rest) (takeCString (slots slot)) fun b h =>
      Filled slots (l ++ r) rest h ∧ b = sanitized s := by
  intro h hh
  obtain ⟨p, hp⟩ := Option.isSome_iff_exists.1 (hh.written (slot, s) (List.mem_append_right l (List.mem_cons_self ..)))
  have hholds := hh.holds
  rw [List.map_append, List.map_cons, List.append_assoc, List.cons_append,
    show cellOf slots (slot, s) = (p, .text (sanitized s)) by rw [cellOf, hp]; rfl] at hholds
  obtain ⟨c, h', hrun, hrest, rfl⟩ := take_meets (l.map (cellOf slots)) h hholds
  refine ⟨sanitized s, h', ?_, ⟨?_, fun t ht => ?_⟩, rfl⟩
  · rw [hp, takeCString]
    show (take p h).bind _ = _
    rw [hrun]
    rfl
  · rw [List.map_append, List.append_assoc]
    exact hrest
  · refine hh.written t ?_
    rcases List.mem_append.1 ht with ht | ht
    · exact List.mem_append_left _ ht
    · exact List.mem_append_right _ (List.mem_cons_of_mem _ ht)

theorem asRef_meets (c : Ptr) : Meets (·.Holds [(c, .core)]) (asRef (some c)) fun b h => h.Holds [(c, .core)] ∧ b = true := by
  unfold asRef
  refine (read_meets (List.mem_singleton_self (c, Cell.core))).bind fun cell => Meets.fact fun hc => ?_
  rw [hc]
  exact Meets.pure fun _ hh => ⟨hh, rfl⟩

theorem call_bind {c : Ptr} {out : Slots → Out} {f : Out → HeapM Cell β} {R : β → Heap Cell → Prop} (hnd : (texts.map Prod.fst).Nodup)
    (hf : ∀ slots, (∀ x, x ∉ texts.map Prod.fst → slots x = none) → Meets (Filled slots texts [(c, .core)]) (f (out slots)) R) :
    Meets (·.Holds [(c, .core)]) (call (some c) out texts >>= f) R := by
  have hcall : Meets (·.Holds [(c, .core)]) (call (some c) out texts) fun o h =>
      ∃ slots, o = out slots ∧ (∀ x, x ∉ texts.map Prod.fst → slots x = none) ∧ Filled slots texts [(c, .core)] h := by
    unfold call
    refine (asRef_meets c).bind fun b => Meets.fact fun hb => ?_
    rw [hb, if_pos rfl]
    refine (write_meets hnd).bind fun slots => Meets.pure fun h hh => ?_
    exact ⟨slots, rfl, hh.2, hh.1⟩
  refine hcall.bind fun o => ?_
  rintro h ⟨slots, rfl, hnull, hfill⟩
  exact hf slots hnull h hfill

theorem take_bind (l : List (OutSlot × String)) {r : List (OutSlot × String)} {slot : OutSlot} {s : String} {f : String → HeapM Cell β}
    {R : β → Heap Cell → Prop} (hf : Meets (Filled slots (l ++ r) rest) (f (sanitized s)) R) :
    Meets (Filled slots (l ++ (slot, s) :: r) rest) (takeCString (slots slot) >>= f) R := by
  refine (takeCString_meets l).bind fun b => Meets.fact fun hb => ?_
  rw [hb]
  exact hf

/-- The slot was not written. -/
theorem null_bind {slot : OutSlot} (hn : slots slot = none) {f : String → HeapM Cell β} {S : Heap Cell → Prop} {R : β → Heap Cell → Prop}
    (hf : Meets S (f "") R) : Meets S (takeCString (slots slot) >>= f) R := by
  rw [hn]
  exact hf

/-- Every text was taken. -/
theorem taken {m : HeapM Cell β} {R : β → Heap Cell → Prop} (h : Meets (·.Holds rest) m R) :
    Meets (Filled slots [] rest) m R := by
  exact h.weaken (fun _ hs => hs.holds) fun _ _ hr => hr

/-- A text that waits has its pointer in its slot. -/
theorem written {slot : OutSlot} {s : String} (ht : (slot, s) ∈ texts) {m : HeapM Cell β} {R : β → Heap Cell → Prop}
    (h : (slots slot).isSome = true → Meets (Filled slots texts rest) m R) : Meets (Filled slots texts rest) m R :=
  fun s hs => h (hs.written _ ht) s hs

theorem gives_pure (b : β) : Gives rest (pure b) b := Meets.pure fun _ hh => ⟨hh, rfl⟩

theorem Gives.bind {γ : Type} {m : HeapM Cell β} {f : β → HeapM Cell γ} {b : β} {d : γ} (hm : Gives rest m b) (hf : Gives rest (f b) d) :
    Gives rest (m >>= f) d := by
  refine Meets.bind hm fun b' => Meets.fact fun hb => ?_
  rw [hb]
  exact hf

/-! ## Each call -/

section

variable (c : Ptr)

theorem refreshPhoneKeyState_gives (start : Except String Unit) :
    Gives [(c, .core)] (refreshPhoneKeyState (some c) start) [started start] := by
  cases start with
  | ok _ =>
    refine call_bind (by simp) fun slots _ => ?_
    refine take_bind [] (taken ?_)
    exact gives_pure _
  | error e =>
    refine call_bind (by simp) fun slots _ => ?_
    refine take_bind [] (taken ?_)
    exact gives_pure _

theorem runCommand_gives (requestId : String) (reply : Except String RunReply) :
    Gives [(c, .core)] (runCommand (some c) requestId reply)
      (match reply with
        | .ok r => [.commandFinished requestId r.ok (sanitized r.stdout) (sanitized r.stderr) r.exitCode]
        | .error e => [.commandError requestId (sanitized e)]) := by
  cases reply with
  | ok r =>
    refine call_bind (by simp) fun slots hnull => ?_
    simp only [ne_eq, not_true_eq_false, if_false, hnull .errorMessage (by simp), Option.isSome_none, Bool.false_eq_true]
    refine take_bind [] ?_
    refine take_bind [] (taken ?_)
    exact gives_pure _
  | error e =>
    refine call_bind (by simp) fun slots hnull => ?_
    refine written (List.mem_singleton_self _) fun hw => ?_
    simp only [ne_eq, not_true_eq_false, if_false, hw, if_true]
    refine take_bind [] (taken ?_)
    exact gives_pure _

theorem generateKey_gives (reply : Except String String) (start : Except String Unit) :
    Gives [(c, .core)] (generateKey (some c) reply start)
      (match reply with
        | .ok pem => [.keyGenerated true (sanitized pem) "", started start]
        | .error e => [.keyGenerated false "" (sanitized e), started start]) := by
  cases reply with
  | ok pem =>
    refine call_bind (by simp) fun slots _ => ?_
    simp only [ne_eq, not_true_eq_false, if_false]
    refine take_bind [] ?_
    refine take_bind [] (taken ?_)
    exact (refreshPhoneKeyState_gives c start).bind (gives_pure _)
  | error e =>
    refine call_bind (by simp) fun slots _ => ?_
    simp only [ne_eq, not_true_eq_false, if_false]
    refine take_bind [] ?_
    refine take_bind [] (taken ?_)
    exact (refreshPhoneKeyState_gives c start).bind (gives_pure _)

theorem pair_gives (reply : Except String (Bool × String × String)) (start : Except String Unit) :
    Gives [(c, .core)] (pair (some c) reply start)
      (match reply with
        | .ok (success, out, err) => [.paired success (sanitized out) (sanitized err), started start]
        | .error e => [.paired false "" (sanitized e), started start]) := by
  cases reply with
  | ok r =>
    refine call_bind (by simp) fun slots _ => ?_
    simp only [ne_eq, not_true_eq_false, if_false]
    refine take_bind [] ?_
    refine take_bind [] (taken ?_)
    exact (refreshPhoneKeyState_gives c start).bind (gives_pure _)
  | error e =>
    refine call_bind (by simp) fun slots hnull => ?_
    simp only [ne_eq, not_true_eq_false, if_false]
    refine null_bind (hnull .stdout (by simp)) ?_
    refine take_bind [] (taken ?_)
    exact (refreshPhoneKeyState_gives c start).bind (gives_pure _)

theorem setConfig_gives (reply : Except String Unit) (start : Except String Unit) :
    Gives [(c, .core)] (setConfig (some c) reply start)
      (match reply with
        | .ok () => [.configSaved true "", started start]
        | .error e => [.configSaved false (sanitized e)]) := by
  cases reply with
  | ok _ =>
    refine call_bind (by simp) fun slots _ => ?_
    simp only [ne_eq, not_true_eq_false, if_false, if_true]
    refine take_bind [] (taken ?_)
    exact (refreshPhoneKeyState_gives c start).bind (gives_pure _)
  | error e =>
    refine call_bind (by simp) fun slots _ => ?_
    simp only [ne_eq, not_true_eq_false, if_false, Bool.false_eq_true]
    refine take_bind [] (taken ?_)
    exact gives_pure _

theorem refreshConfig_gives (r : StatusReply) :
    Gives [(c, .core)] (refreshConfig (some c) r)
      [.configLoaded (sanitized r.vin) (sanitized r.model) (sanitized r.keyName) r.connectTimeoutSec r.commandTimeoutSec r.hasKey
        (sanitized r.publicKeyPem)] := by
  refine call_bind (by simp) fun slots _ => ?_
  simp only [ne_eq, not_true_eq_false, if_false]
  refine take_bind [] ?_
  refine take_bind [] ?_
  refine take_bind [] ?_
  refine take_bind [] (taken ?_)
  exact gives_pure _

theorem previewDestination_gives (requestId : String) (reply : Except String (String × String × String)) :
    Gives [(c, .core)] (previewDestination (some c) requestId reply)
      (match reply with
        | .ok (kind, value1, value2) => [.destinationPreviewed requestId true (sanitized kind) (sanitized value1) (sanitized value2) ""]
        | .error e => [.destinationPreviewed requestId false "" "" "" (sanitized e)]) := by
  cases reply with
  | ok r =>
    refine call_bind (by simp) fun slots _ => ?_
    simp only [ne_eq, not_true_eq_false, if_false]
    refine take_bind [] ?_
    refine take_bind [] ?_
    refine take_bind [] ?_
    refine take_bind [] (taken ?_)
    exact gives_pure _
  | error e =>
    refine call_bind (by simp) fun slots hnull => ?_
    simp only [ne_eq, not_true_eq_false, if_false]
    refine null_bind (hnull .kind (by simp)) ?_
    refine null_bind (hnull .value1 (by simp)) ?_
    refine null_bind (hnull .value2 (by simp)) ?_
    refine take_bind [] (taken ?_)
    exact gives_pure _

theorem shareDestination_gives (requestId : String) (reply : Except String (Bool × String × String)) :
    Gives [(c, .core)] (shareDestination (some c) requestId reply)
      (match reply with
        | .ok (success, out, err) => [.shareFinished requestId success (sanitized out) (sanitized err)]
        | .error e => [.shareFinished requestId false "" (sanitized e)]) := by
  cases reply with
  | ok r =>
    refine call_bind (by simp) fun slots _ => ?_
    simp only [ne_eq, not_true_eq_false, if_false]
    refine take_bind [] ?_
    refine take_bind [] (taken ?_)
    exact gives_pure _
  | error e =>
    refine call_bind (by simp) fun slots hnull => ?_
    simp only [ne_eq, not_true_eq_false, if_false]
    refine null_bind (hnull .stdout (by simp)) ?_
    refine take_bind [] (taken ?_)
    exact gives_pure _

/-- The time is taken out of the middle of its event. -/
theorem pollPhoneKeyEvents_gives (now : String) (events : List PolledEvent) :
    Gives [(c, .core)] (pollPhoneKeyEvents (some c) now events)
      (events.map fun ev => .phoneKeyEvent (sanitized ev.kind) (sanitized ev.vin) (orText (sanitized ev.time) now) (sanitized ev.error)) := by
  induction events with
  | nil =>
    refine call_bind (by simp) fun slots _ => taken ?_
    exact gives_pure _
  | cons ev events ih =>
    refine call_bind (by simp) fun slots _ => ?_
    simp only [ne_eq, not_true_eq_false, decide_false, Bool.not_true, Bool.or_self, Bool.false_eq_true, if_false]
    refine take_bind [(.kind, ev.kind), (.vin, ev.vin)] ?_
    refine take_bind [] ?_
    refine take_bind [] ?_
    refine take_bind [] (taken ?_)
    exact ih.bind (gives_pure _)

theorem handleResume_gives (start : Except String Unit) :
    Gives [(c, .core)] (handleResume (some c) start) [started start] := by
  refine call_bind (by simp) fun slots _ => ?_
  simp only [ne_eq, not_true_eq_false, if_false]
  exact taken (refreshPhoneKeyState_gives c start)

theorem execute_gives (call : CoreCall) : Gives [(c, .core)] (call.execute (some c)) call.answer := by
  cases call with
  | runCommand requestId cmd args reply => exact runCommand_gives c requestId _
  | generateKey force reply start => exact generateKey_gives c _ start
  | pair reply start => exact pair_gives c reply start
  | setConfig vin model keyName connectTimeoutSec commandTimeoutSec reply start => exact setConfig_gives c _ start
  | refreshConfig reply => exact refreshConfig_gives c reply
  | previewDestination requestId text reply => exact previewDestination_gives c requestId _
  | shareDestination requestId text reply => exact shareDestination_gives c requestId _
  | pollPhoneKeyEvents now events => exact pollPhoneKeyEvents_gives c now events
  | handleResume start => exact handleResume_gives c start

end

/-- Without a core nothing is touched. -/
theorem execute_refused (call : CoreCall) : Gives rest (call.execute none) call.refused := by
  cases call <;> exact gives_pure _

/-! ## A whole life -/

/-- What the calls of a life answer, with a core or without. -/
def answers (up : Bool) (calls : List CoreCall) : List CoreSignal := calls.flatMap fun c => if up then c.answer else c.refused

def initialAnswer (reply start : Except String Unit) : List CoreSignal :=
  match reply with
  | .ok () => [started start, .initialized true ""]
  | .error e => [.initialized false (orText (sanitized e) "core_new failed: unknown error")]

theorem executeAll_gives {core : Option Ptr} (hc : core = none ∧ rest = [] ∨ ∃ c, core = some c ∧ rest = [(c, .core)]) (calls : List CoreCall) :
    Gives rest (executeAll core calls) (answers core.isSome calls) := by
  induction calls with
  | nil => exact gives_pure _
  | cons call calls ih =>
    refine Gives.bind ?_ (ih.bind (gives_pure _))
    rcases hc with ⟨rfl, rfl⟩ | ⟨c, rfl, rfl⟩
    · exact execute_refused call
    · exact execute_gives c call

/-- The request a signal answers. -/
def CoreSignal.answers : CoreSignal → Option String
  | .commandFinished requestId .. | .commandError requestId _ => some requestId
  | _ => none

def CoreCall.requestId : CoreCall → Option String
  | .runCommand requestId .. => some requestId
  | _ => none

theorem started_answers (start : Except String Unit) : (started start).answers = none := by
  cases start <;> rfl

theorem call_answered (call : CoreCall) (up : Bool) :
    (if up then call.answer else call.refused).filterMap CoreSignal.answers = call.requestId.toList := by
  cases up with
  | false => cases call <;> rfl
  | true =>
    simp only [if_true]
    cases call with
    | refreshConfig reply => rfl
    | pollPhoneKeyEvents now events =>
      simp only [CoreCall.answer, List.filterMap_map, CoreCall.requestId, Option.toList_none, List.filterMap_eq_nil_iff]
      exact fun _ _ => rfl
    | handleResume start => exact List.filterMap_cons_none (started_answers start)
    | setConfig vin model keyName connectTimeoutSec commandTimeoutSec reply start =>
      simp only [CoreCall.answer]
      split
      · exact (List.filterMap_cons_none rfl).trans (List.filterMap_cons_none (started_answers start))
      · rfl
    | generateKey force reply start =>
      simp only [CoreCall.answer]
      split <;> exact (List.filterMap_cons_none rfl).trans (List.filterMap_cons_none (started_answers start))
    | pair reply start =>
      simp only [CoreCall.answer]
      split <;> exact (List.filterMap_cons_none rfl).trans (List.filterMap_cons_none (started_answers start))
    | runCommand | previewDestination | shareDestination =>
      simp only [CoreCall.answer]
      split <;> rfl

/-- The commands are answered in order, each by one signal. -/
theorem run_answered (up : Bool) (calls : List CoreCall) :
    (answers up calls).filterMap CoreSignal.answers = calls.filterMap CoreCall.requestId := by
  induction calls with
  | nil => rfl
  | cons call calls ih =>
    rw [answers, List.flatMap_cons, List.filterMap_append, call_answered, List.filterMap_cons]
    rw [answers] at ih
    rw [ih]
    cases call.requestId <;> rfl

theorem initializeWorker_ok (start : Except String Unit) :
    Meets (·.Holds []) (initializeWorker (.ok ()) start) fun r h =>
      ∃ c, r = (some c, [started start, .initialized true ""]) ∧ h.Holds [(c, .core)] := by
  have hnew : Meets (·.Holds []) (coreNew (.ok ())) fun r h => ∃ c, r = (some c, fun _ => none) ∧ h.Holds [(c, .core)] :=
    (alloc_meets [] Cell.core).bind fun c => Meets.pure fun _ hh => ⟨c, rfl, hh⟩
  refine hnew.bind fun r => ?_
  rintro h ⟨c, rfl, hh⟩
  refine Meets.bind (refreshPhoneKeyState_gives c start) (fun sigs => Meets.fact fun hs => ?_) h hh
  rw [hs]
  exact Meets.pure fun _ hh => ⟨c, rfl, hh⟩

theorem initializeWorker_error (e : String) (start : Except String Unit) :
    Gives [] (initializeWorker (.error e) start) (none, initialAnswer (.error e) start) := by
  have hnew : Meets (·.Holds []) (coreNew (.error e)) fun r h => Filled r.2 [(.errorMessage, e)] [] h ∧ r.1 = none :=
    (write_meets (by simp)).bind fun slots => Meets.pure fun _ hh => ⟨hh.1, rfl⟩
  refine hnew.bind fun r => Meets.fact fun hr => ?_
  obtain ⟨core, slots⟩ := r
  rw [show core = none from hr]
  refine take_bind [] (taken ?_)
  exact gives_pure _

/-- Over a whole life nothing is read or freed that is not there, nothing stays, and the signals are
    those of the core's replies. -/
theorem life_exact (reply start : Except String Unit) (calls : List CoreCall) :
    ∃ h, life reply start calls Heap.empty = some (initialAnswer reply start ++ answers reply.toBool calls, h) ∧ h.Holds [] := by
  suffices h : Gives [] (life reply start calls) (initialAnswer reply start ++ answers reply.toBool calls) by
    obtain ⟨b, h', hrun, hh, rfl⟩ := h Heap.empty empty_holds
    exact ⟨h', hrun, hh⟩
  cases reply with
  | ok _ =>
    refine (initializeWorker_ok start).bind fun r => ?_
    rintro h ⟨c, rfl, hh⟩
    refine Meets.bind (executeAll_gives (.inr ⟨c, rfl, rfl⟩) calls) (fun sigs => Meets.fact fun hs => ?_) h hh
    rw [hs]
    exact (free_meets []).bind fun _ => gives_pure _
  | error e =>
    refine Meets.bind (initializeWorker_error e start) fun r => Meets.fact fun hr => ?_
    rw [hr]
    exact (executeAll_gives (.inl ⟨rfl, rfl⟩) calls).bind (gives_pure _)

end ElectricEel.App.Ffi
