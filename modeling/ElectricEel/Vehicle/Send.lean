/-
  ElectricEel.Vehicle.Send — a command sent until the vehicle has answered it for good
  (vehicle-command/pkg/vehicle: vehicle.go `Send`, infotainment.go, vcsec.go; pkg/protocol/error.go;
  main.go `dispatch`).

  Each attempt authorises its message anew, so nothing but the kind of its error keeps a command
  from being executed by two of them. Whether the vehicle executed an attempt's message is part of
  the round, for the results to speak about.

  What protobuf makes of a text is a parameter (`Codecs`). An attempt that the dispatcher could not
  send has the dispatcher's error; another one has the replies its receiver is given until the context
  ends.

  The vehicle is honest (`Round.Honest`): where it executed the message, no reply says that it did not.
  A reply says so by a fault other than RESPONSE_MTU_EXCEEDED, by its session info, by an operation
  status WAIT or unknown (`RoutableMessage.Denies`), or in a payload that can be read. Lost, oversized
  and unreadable replies say nothing.

  Proved: an attempt that an honest vehicle executed ends without an error, or with one that does not
  rule success out (`honest_carServer`, `honest_readUntil`); so of the attempts of one command that the
  dispatcher sent at most one is executed, and none if the child reports the command as failed and not
  as unverified (`infotainment_once`, `vcsec_once`). A reply is taken for a success even with the
  operation status ERROR (`getError_none`), and handshakes for a success although some were cancelled,
  if one that succeeds ends last (`startSessions_none`).
-/
import ElectricEel.Child.Dispatch
import ElectricEel.Lib.Attempts
import ElectricEel.Vehicle.Message

namespace ElectricEel.Vehicle

open Lib

/-! ## Errors -/

/-- The errors that are values of `protocol.Error`, and the others. -/
inductive ProtocolError where
  | command (err : String) (possibleSuccess possibleTemporary : Bool)
  | noSession
  | keychain (code : Int)
  | nominal (details : ProtocolError)
  | nominalVcsec (genericError : Int)
  | routable (code : MessageFault)
  | plain (text : String)
  deriving DecidableEq, Repr

namespace ProtocolError

def busy : ProtocolError := .command "vehicle busy or finishing wake-up" false true

def unknown : ProtocolError := .command "vehicle responded with an unrecognized status code" false false

def keyNotPaired : ProtocolError := .command "vehicle rejected request: your public key has not been paired with the vehicle" false false

def badResponse : ProtocolError := .plain "invalid response"

/-- `ctx.Err()` of a receiver that waited. -/
def expired : ProtocolError := .command "context deadline exceeded" true true

def contextDone : ProtocolError := .plain "context deadline exceeded"

def retriableErrors : List MessageFault :=
  [MessageFault.busy, MessageFault.timeout, MessageFault.invalidSignature, MessageFault.invalidTokenOrCounter, MessageFault.internal,
    MessageFault.incorrectEpoch, MessageFault.timeExpired, MessageFault.timeToLiveTooLong]

def mayHaveSucceeded : ProtocolError → Bool
  | .command _ possibleSuccess _ => possibleSuccess
  | .nominal details => mayHaveSucceeded details
  | .routable code => code = MessageFault.none || code = MessageFault.responseMtuExceeded
  | .noSession | .keychain _ | .nominalVcsec _ | .plain _ => false

def temporary : ProtocolError → Bool
  | .command _ _ possibleTemporary => possibleTemporary
  | .nominal details => temporary details
  | .routable code => retriableErrors.contains code
  | .noSession | .keychain _ | .nominalVcsec _ | .plain _ => false

def shouldRetry (e : ProtocolError) : Bool := if e.mayHaveSucceeded then false else e.temporary

/-- What `dispatch` makes of the error; `text` is its `Error()`. -/
def classify (e : ProtocolError) (text : String) : Child.ExecErr :=
  if e.mayHaveSucceeded then .mayHaveSucceeded text else if e = .noSession then .noSession else .failed text

theorem shouldRetry_mayHaveSucceeded {e : ProtocolError} (h : e.mayHaveSucceeded = true) : e.shouldRetry = false := if_pos h

end ProtocolError

/-! ## Replies -/

inductive CommandStatusSub where
  | signedMessageStatus
  | whitelistOperationStatus (information : Int)
  deriving DecidableEq, Repr

structure CommandStatus where
  operationStatus : OperationStatus
  sub : Option CommandStatusSub
  deriving DecidableEq, Repr

inductive FromVCSECMessage where
  | none
  | vehicleStatus
  | commandStatus (status : CommandStatus)
  | whitelistInfo
  | whitelistEntryInfo
  | nominalError (genericError : Int)
  deriving DecidableEq, Repr

namespace FromVCSECMessage

def getCommandStatus : FromVCSECMessage → Option CommandStatus
  | .commandStatus status => some status
  | _ => Option.none

/-- `GetWhitelistOperationStatus`. -/
def whitelistOperation (m : FromVCSECMessage) : Option Int :=
  match m.getCommandStatus.bind (·.sub) with
  | some (.whitelistOperationStatus information) => some information
  | _ => Option.none

def signedMessageStatus (m : FromVCSECMessage) : Bool := m.getCommandStatus.bind (·.sub) = some .signedMessageStatus

end FromVCSECMessage

/-- carserver.Response, as far as it is looked at: an error and its reason. -/
structure CarServerResponse where
  result : Int
  resultReason : String
  deriving DecidableEq, Repr

def CarServerResponse.error : Int := 1

structure Codecs where
  sessionInfo : Bytes → Option SessionInfo
  fromVCSEC : Bytes → Except String FromVCSECMessage
  response : Bytes → Except String CarServerResponse

section

variable (C : Codecs)

/-- `getError`'s look at the session info. -/
def sessionInfoError (u : RoutableMessage) : Option ProtocolError :=
  match u.getSessionInfo with
  | none => none
  | some encoded =>
    match C.sessionInfo encoded with
    | none => some .badResponse
    | some info => if info.status = 0 then none else if info.status = 1 then some .keyNotPaired else some .unknown

/-- The last switch of `getError`; the case of the error status ends it without an error. -/
def operationError (status : OperationStatus) : Option ProtocolError :=
  if status = OperationStatus.ok then none
  else if status = OperationStatus.wait then some .busy
  else if status = OperationStatus.error then none
  else some .unknown

def getError (u : RoutableMessage) : Option ProtocolError :=
  let fault := u.signedMessageFault
  if fault ≠ MessageFault.none then
    if fault = MessageFault.unknownKeyId then some .keyNotPaired else some (.routable fault)
  else (sessionInfoError C u).or (operationError u.operationStatus)

def unmarshalVCSECResponse (message : RoutableMessage) : Except ProtocolError FromVCSECMessage :=
  match getError C message with
  | some err => .error err
  | none =>
    match message.payload with
    | none => .ok .none
    | some (.sessionInfoRequest _) | some (.sessionInfo _) => .error (.command "payload missing from vehicle response" true false)
    | some (.protobufMessageAsBytes encoded) =>
      match C.fromVCSEC encoded with
      | .error err => .error (.command ("invalid response: " ++ err) true false)
      | .ok fromVCSEC =>
        match fromVCSEC with
        | .nominalError genericError => .error (.nominal (.nominalVcsec genericError))
        | .commandStatus status =>
          if status.operationStatus = OperationStatus.wait then .error .busy
          else if status.operationStatus = OperationStatus.error then
            match fromVCSEC.whitelistOperation with
            | some information =>
              if information ≠ 0 then .error (.keychain information) else .error .unknown
            | none => if fromVCSEC.signedMessageStatus then .ok fromVCSEC else .error .unknown
          else .ok fromVCSEC
        | _ => .ok fromVCSEC

/-- `isTerminalTest`: whether the message is the last, and its error. -/
abbrev TerminalTest := FromVCSECMessage → Bool × Option ProtocolError

def readUntil (done : TerminalTest) : List RoutableMessage → Except ProtocolError FromVCSECMessage
  | [] => .error .expired
  | reply :: replies =>
    match unmarshalVCSECResponse C reply with
    | .error err => .error err
    | .ok fromVCSEC =>
      match done fromVCSEC with
      | (false, _) => readUntil done replies
      | (true, none) => .ok fromVCSEC
      | (true, some err) => .error err

/-- `executeRKEAction` and `executeClosureAction`: the last message has no command status. -/
def actionDone : TerminalTest := fun m => (m.getCommandStatus.isNone, none)

def isWhitelistOperationComplete : TerminalTest := fun m =>
  match m.whitelistOperation with
  | none => (false, none)
  | some status => (true, if status = 0 then none else some (.keychain status))

/-- `getVCSECInfo`. -/
def infoDone : TerminalTest := fun _ => (true, none)

theorem sessionInfoError_none {C : Codecs} {u : RoutableMessage} :
    sessionInfoError C u = none ↔ ∀ encoded, u.getSessionInfo = some encoded → ∃ info, C.sessionInfo encoded = some info ∧ info.status = 0 := by
  unfold sessionInfoError
  cases hs : u.getSessionInfo with
  | none => simp
  | some encoded =>
    simp only [Option.some.injEq, forall_eq']
    cases hi : C.sessionInfo encoded with
    | none => simp
    | some info =>
      simp only [Option.some.injEq, exists_eq_left']
      by_cases h0 : info.status = 0
      · simp [h0]
      · by_cases h1 : info.status = 1
        · simp [h1]
        · simp [h0, h1]

theorem operationError_none {status : OperationStatus} :
    operationError status = none ↔ status = OperationStatus.ok ∨ status = OperationStatus.error := by
  unfold operationError
  by_cases hok : status = OperationStatus.ok
  · simp [hok]
  · by_cases hwait : status = OperationStatus.wait
    · simp [hwait, OperationStatus.ok, OperationStatus.wait, OperationStatus.error]
    · by_cases herr : status = OperationStatus.error
      · simp [herr, OperationStatus.ok, OperationStatus.wait, OperationStatus.error]
      · simp [hok, hwait, herr]

/-- When a reply is no error. -/
theorem getError_none {C : Codecs} {u : RoutableMessage} :
    getError C u = none ↔
      u.signedMessageFault = MessageFault.none ∧
        (∀ encoded, u.getSessionInfo = some encoded → ∃ info, C.sessionInfo encoded = some info ∧ info.status = 0) ∧
        (u.operationStatus = OperationStatus.ok ∨ u.operationStatus = OperationStatus.error) := by
  rw [← sessionInfoError_none, ← operationError_none]
  unfold getError
  by_cases hf : u.signedMessageFault = MessageFault.none
  · simp only [hf, ne_eq, not_true_eq_false, if_false, true_and]
    exact Option.or_eq_none_iff
  · by_cases hk : u.signedMessageFault = MessageFault.unknownKeyId
    · simp [hk, MessageFault.none, MessageFault.unknownKeyId]
    · simp [hf, hk]

/-! ## Attempts -/

inductive Attempt where
  /-- The dispatcher's Send returned an error. -/
  | refused (err : ProtocolError)
  | replied (replies : List RoutableMessage)
  deriving DecidableEq

structure Round where
  attempt : Attempt
  /-- The vehicle executed the message of this attempt. -/
  executed : Bool
  /-- The context ends before the next attempt. -/
  cancelled : Bool
  deriving DecidableEq

def trySend : Attempt → Except ProtocolError Bytes
  | .refused err => .error err
  | .replied [] => .error .expired
  | .replied (response :: _) =>
    match getError C response with
    | some err => .error err
    | none => .ok response.getProtobufMessageAsBytes

def tryVCSEC (done : TerminalTest) : Attempt → Except ProtocolError FromVCSECMessage
  | .refused err => .error err
  | .replied replies => readUntil C done replies

/-- The loop of `Vehicle.Send` and of `getVCSECResult`. -/
def retryLoop {α : Type} (attempt : Attempt → Except ProtocolError α) : Attempts Round ProtocolError α where
  outcome r := attempt r.attempt
  again := ProtocolError.shouldRetry
  cancelled := Round.cancelled
  ended := .contextDone

/-- `Vehicle.Send`. -/
def send (rounds : List Round) : Option (Except ProtocolError Bytes) := (retryLoop (trySend C)).run rounds

def getVCSECResult (done : TerminalTest) (rounds : List Round) : Option (Except ProtocolError FromVCSECMessage) :=
  (retryLoop (tryVCSEC C done)).run rounds

/-- `getCarServerResponse`, from the payload on. -/
def carServerResponse (payload : Bytes) : Except ProtocolError CarServerResponse :=
  match C.response payload with
  | .error err => .error (.command ("unable to parse vehicle response: " ++ err) true false)
  | .ok response =>
    if response.result = CarServerResponse.error then
      let description := if response.resultReason = "" then "unspecified error" else response.resultReason
      .error (.nominal (.command ("car could not execute command: " ++ description) false false))
    else .ok response

def getCarServerResponse (rounds : List Round) : Option (Except ProtocolError CarServerResponse) :=
  (send C rounds).map fun
    | .error err => .error err
    | .ok payload => carServerResponse C payload

end

/-! ## Honest vehicles -/

section

variable (C : Codecs)

/-- Outside its payload the reply says that the message was not executed. -/
inductive RoutableMessage.Denies (u : RoutableMessage) : Prop
  | fault : u.signedMessageFault ≠ MessageFault.none → u.signedMessageFault ≠ MessageFault.responseMtuExceeded → Denies u
  | session {encoded : Bytes} : u.getSessionInfo = some encoded → (∀ info, C.sessionInfo encoded = some info → info.status ≠ 0) → Denies u
  | status : u.operationStatus ≠ OperationStatus.ok → u.operationStatus ≠ OperationStatus.error → Denies u

/-- The body controller says that it did not do as it was told. -/
inductive FromVCSECMessage.Denies (m : FromVCSECMessage) : Prop
  | nominal {genericError : Int} : m = .nominalError genericError → Denies m
  | status {status : CommandStatus} : m.getCommandStatus = some status → status.operationStatus = OperationStatus.wait ∨
      status.operationStatus = OperationStatus.error → Denies m
  | whitelist {information : Int} : m.whitelistOperation = some information → information ≠ 0 → Denies m

/-- A reply to an action. -/
def deniesAction (u : RoutableMessage) : Prop :=
  u.Denies C ∨ ∃ response, C.response u.getProtobufMessageAsBytes = .ok response ∧ response.result = CarServerResponse.error

/-- A reply of the body controller. -/
def deniesVCSEC (u : RoutableMessage) : Prop :=
  u.Denies C ∨ ∃ encoded m, u.payload = some (.protobufMessageAsBytes encoded) ∧ C.fromVCSEC encoded = .ok m ∧ m.Denies

/-- Where the vehicle executed the message, none of its replies denies that. -/
def Round.Honest (denies : RoutableMessage → Prop) (r : Round) : Prop :=
  r.executed = true → ∀ replies, r.attempt = .replied replies → ∀ u ∈ replies, ¬ denies u

end

section

variable {C : Codecs}

/-- The one error of such a reply is RESPONSE_MTU_EXCEEDED. -/
theorem honest_getError {u : RoutableMessage} (h : ¬ u.Denies C) {err : ProtocolError} (herr : getError C u = some err) :
    err.mayHaveSucceeded = true := by
  by_cases hfault : u.signedMessageFault = MessageFault.none
  · have hsession : ∀ encoded, u.getSessionInfo = some encoded → ∃ info, C.sessionInfo encoded = some info ∧ info.status = 0 := by
      intro encoded henc
      by_contra hno
      exact h (.session henc fun info hi h0 => hno ⟨info, hi, h0⟩)
    have hstatus : u.operationStatus = OperationStatus.ok ∨ u.operationStatus = OperationStatus.error := by
      by_contra hno
      exact h (.status (fun hok => hno (.inl hok)) fun he => hno (.inr he))
    rw [getError_none.2 ⟨hfault, hsession, hstatus⟩] at herr
    cases herr
  · have hmtu : u.signedMessageFault = MessageFault.responseMtuExceeded := by
      by_contra hno
      exact h (.fault hfault hno)
    unfold getError at herr
    rw [hmtu] at herr
    cases herr
    rfl

/-- A payload that cannot be read, or says no ERROR. -/
theorem honest_carServerResponse {payload : Bytes}
    (h : ¬∃ response, C.response payload = .ok response ∧ response.result = CarServerResponse.error) {err : ProtocolError}
    (herr : carServerResponse C payload = .error err) : err.mayHaveSucceeded = true := by
  unfold carServerResponse at herr
  split at herr
  · cases herr
    rfl
  · rename_i response hok
    split at herr
    · exact (h ⟨response, hok, ‹_›⟩).elim
    · cases herr

/-- A message that cannot be read, or does not deny. -/
theorem honest_unmarshal {u : RoutableMessage} (h : ¬ deniesVCSEC C u) :
    match unmarshalVCSECResponse C u with
    | .error err => err.mayHaveSucceeded = true
    | .ok m => ¬ m.Denies := by
  have hroute : ¬ u.Denies C := fun hd => h (.inl hd)
  unfold unmarshalVCSECResponse
  cases herr : getError C u with
  | some err => exact honest_getError hroute herr
  | none =>
    dsimp only
    cases hp : u.payload with
    | none =>
      rintro (⟨hn⟩ | ⟨hs, -⟩ | ⟨hw, -⟩)
      · cases hn
      · cases hs
      · cases hw
    | some p =>
      cases p with
      | sessionInfoRequest _ => rfl
      | sessionInfo _ => rfl
      | protobufMessageAsBytes encoded =>
        dsimp only
        cases hdec : C.fromVCSEC encoded with
        | error err => rfl
        | ok m =>
          have hm : ¬ m.Denies := fun hd => h (.inr ⟨encoded, m, hp, hdec, hd⟩)
          cases m with
          | nominalError code => exact (hm (.nominal rfl)).elim
          | commandStatus status =>
            dsimp only
            rw [if_neg fun hw => hm (.status rfl (.inl hw)), if_neg fun he => hm (.status rfl (.inr he))]
            exact hm
          | none => exact hm
          | vehicleStatus => exact hm
          | whitelistInfo => exact hm
          | whitelistEntryInfo => exact hm

end

/-! ## At most one execution -/

/-- The dispatcher sent the attempt's message, and the vehicle executed it. -/
def Round.took (r : Round) : Bool :=
  match r.attempt with
  | .refused _ => false
  | .replied _ => r.executed

/-- The attempts that the loop makes, the dispatcher sends and the vehicle executes. -/
def executions {α : Type} (attempt : Attempt → Except ProtocolError α) (rounds : List Round) : Nat :=
  ((retryLoop attempt).made rounds).countP Round.took

/-- Where the vehicle executed the message, its error does not rule success out. -/
def Round.Classified {α : Type} (attempt : Attempt → Except ProtocolError α) (r : Round) : Prop :=
  r.took = true → ∀ err, attempt r.attempt = .error err → err.mayHaveSucceeded = true

namespace Round.Classified

variable {α : Type} {attempt : Attempt → Except ProtocolError α} {r : Round}

/-- The loop stops at an attempt that was executed. -/
theorem last (h : r.Classified attempt) (he : r.took = true) : (retryLoop attempt).goesOn r = false := by
  unfold Attempts.goesOn
  split
  · rfl
  · rename_i err herr
    have hretry : err.shouldRetry = false := ProtocolError.shouldRetry_mayHaveSucceeded (h he err herr)
    rw [show (retryLoop attempt).again err = err.shouldRetry from rfl, hretry, Bool.false_and]

/-- The error returned after an attempt that was executed does not rule success out. -/
theorem final (h : r.Classified attempt) (he : r.took = true) {err : ProtocolError} (hf : (retryLoop attempt).final r = .error err) :
    err.mayHaveSucceeded = true := by
  unfold Attempts.final at hf
  split at hf
  · cases hf
  · rename_i err' herr
    have hmay := h he err' herr
    have hretry : err'.shouldRetry = false := ProtocolError.shouldRetry_mayHaveSucceeded hmay
    rw [show (retryLoop attempt).again err' = err'.shouldRetry from rfl, hretry] at hf
    obtain rfl : err' = err := by simpa using hf
    exact hmay

end Round.Classified

theorem executions_once {α : Type} {attempt : Attempt → Except ProtocolError α} {rounds : List Round}
    (h : ∀ r ∈ rounds, r.Classified attempt) : executions attempt rounds ≤ 1 :=
  Attempts.once fun r hr => (h r hr).last

theorem executions_never {α : Type} {attempt : Attempt → Except ProtocolError α} {rounds : List Round}
    (h : ∀ r ∈ rounds, r.Classified attempt) {err : ProtocolError} (hrun : (retryLoop attempt).run rounds = some (.error err))
    (hmay : err.mayHaveSucceeded = false) : executions attempt rounds = 0 := by
  refine Attempts.never hrun (fun r hr => (h r hr).last) fun r hr hf _ => ?_
  cases he : r.took with
  | false => rfl
  | true =>
    rw [(h r hr).final he hf] at hmay
    cases hmay

/-- An error that is not reported as unverified. -/
theorem classify_failed {err : ProtocolError} {text : String} (h : ∀ t, err.classify text ≠ .mayHaveSucceeded t) :
    err.mayHaveSucceeded = false := by
  cases hm : err.mayHaveSucceeded with
  | false => rfl
  | true => exact absurd (if_pos hm) (h text)

section

variable {C : Codecs}

/-- An attempt up to the vehicle's answer to the action. -/
def tryCarServer (C : Codecs) (a : Attempt) : Except ProtocolError CarServerResponse := (trySend C a).bind (carServerResponse C)

/-- The first reply decides, and without one the error is that of the wait. -/
theorem honest_carServer {r : Round} (h : r.Honest (deniesAction C)) : r.Classified (tryCarServer C) := by
  obtain ⟨attempt, executed, cancelled⟩ := r
  intro he err herr
  cases attempt with
  | refused e => cases he
  | replied replies =>
    have hdenies := h he replies rfl
    unfold tryCarServer trySend at herr
    cases replies with
    | nil =>
      obtain rfl : ProtocolError.expired = err := Except.error.inj herr
      rfl
    | cons u us =>
      have hu : ¬ deniesAction C u := hdenies u List.mem_cons_self
      dsimp only at herr
      cases hg : getError C u with
      | some e =>
        rw [hg] at herr
        obtain rfl : e = err := Except.error.inj herr
        exact honest_getError (fun hd => hu (.inl hd)) hg
      | none =>
        rw [hg] at herr
        exact honest_carServerResponse (fun hd => hu (.inr hd)) herr

theorem classified_send {r : Round} (h : r.Classified (tryCarServer C)) : r.Classified (trySend C) := by
  intro he err herr
  refine h he err ?_
  unfold tryCarServer
  rw [herr]
  rfl

/-- The tests that tell the last message of a command. -/
def terminalTests : List TerminalTest := [actionDone, isWhitelistOperationComplete, infoDone]

/-- A test ends the command with an error only on a message that denies. -/
theorem terminal_denies {done : TerminalTest} (hd : done ∈ terminalTests) {m : FromVCSECMessage} {err : ProtocolError}
    (h : done m = (true, some err)) : m.Denies := by
  simp only [terminalTests, List.mem_cons, List.not_mem_nil, or_false] at hd
  rcases hd with rfl | rfl | rfl
  · exact nomatch (Prod.mk.inj h).2
  · unfold isWhitelistOperationComplete at h
    cases hw : m.whitelistOperation with
    | none =>
      rw [hw] at h
      cases h
    | some status =>
      rw [hw] at h
      refine .whitelist hw fun h0 => ?_
      rw [h0] at h
      cases h
  · exact nomatch (Prod.mk.inj h).2

/-- Messages are read until one is the last or cannot be read, or the context ends. -/
theorem honest_readUntil {done : TerminalTest} (hd : done ∈ terminalTests) {replies : List RoutableMessage}
    (h : ∀ u ∈ replies, ¬ deniesVCSEC C u) {err : ProtocolError} (herr : readUntil C done replies = .error err) :
    err.mayHaveSucceeded = true := by
  induction replies with
  | nil =>
    obtain rfl : ProtocolError.expired = err := Except.error.inj herr
    rfl
  | cons u us ih =>
    have hu := honest_unmarshal (h u List.mem_cons_self)
    rw [readUntil] at herr
    cases hm : unmarshalVCSECResponse C u with
    | error e =>
      rw [hm] at herr hu
      obtain rfl : e = err := Except.error.inj herr
      exact hu
    | ok m =>
      rw [hm] at herr hu
      dsimp only at herr hu
      split at herr
      · exact ih (fun v hv => h v (List.mem_cons_of_mem _ hv)) herr
      · cases herr
      · rename_i heq
        exact (hu (terminal_denies hd heq)).elim

theorem honest_vcsec {done : TerminalTest} (hd : done ∈ terminalTests) {r : Round} (h : r.Honest (deniesVCSEC C)) :
    r.Classified (tryVCSEC C done) := by
  obtain ⟨attempt, executed, cancelled⟩ := r
  intro he err herr
  cases attempt with
  | refused e => cases he
  | replied replies => exact honest_readUntil hd (h he replies rfl) herr

end

/-- Of the attempts of an infotainment command that were sent at most one is executed, and none if
    the command is reported as failed. -/
theorem infotainment_once (C : Codecs) (rounds : List Round) (h : ∀ r ∈ rounds, r.Honest (deniesAction C)) :
    executions (trySend C) rounds ≤ 1 ∧
      ∀ err text, getCarServerResponse C rounds = some (.error err) → (∀ t, err.classify text ≠ .mayHaveSucceeded t) →
        executions (trySend C) rounds = 0 := by
  have hanswer : ∀ r ∈ rounds, r.Classified (tryCarServer C) := fun r hr => honest_carServer (h r hr)
  have hsend : ∀ r ∈ rounds, r.Classified (trySend C) := fun r hr => classified_send (hanswer r hr)
  refine ⟨executions_once hsend, fun err text hres hfailed => ?_⟩
  have hmay := classify_failed hfailed
  unfold getCarServerResponse at hres
  obtain ⟨res, hrun, hres⟩ := Option.map_eq_some_iff.1 hres
  cases res with
  | error err' =>
    obtain rfl : err' = err := Except.error.inj hres
    exact executions_never hsend hrun hmay
  | ok payload =>
    refine Attempts.never hrun (fun r hr => (hsend r hr).last) fun r hr hf _ => ?_
    cases he : r.took with
    | false => rfl
    | true =>
      have hok : trySend C r.attempt = .ok payload := Attempts.final_ok hf
      have hnot := hanswer r hr he err (by rw [tryCarServer, hok]; exact hres)
      rw [hmay] at hnot
      cases hnot

def replyWith (status : Option MessageStatus) (payload : Bytes) : RoutableMessage where
  toDestination := none
  fromDestination := none
  payload := some (.protobufMessageAsBytes payload)
  subSigData := none
  signedMessageStatus := status
  requestUuid := none
  uuid := none
  flags := 0

/-- Empty payloads decode to nothing in particular, others not at all. -/
def blankCodecs : Codecs where
  sessionInfo _ := none
  fromVCSEC text := if text = [] then .ok .none else .error "unexpected EOF"
  response text := if text = [] then .ok ⟨0, ""⟩ else .error "unexpected EOF"

/-- The vehicle is busy, then it executes the command and its answer cannot be read. -/
def busyThenGarbled : List Round :=
  [⟨.replied [replyWith (some ⟨0, MessageFault.busy⟩) []], false, false⟩, ⟨.replied [replyWith none [255]], true, false⟩,
    ⟨.replied [replyWith none []], true, false⟩]

/-- The vehicle is busy, then it executes the command and its answer is lost. -/
def busyThenLost : List Round :=
  [⟨.replied [replyWith (some ⟨0, MessageFault.busy⟩) []], false, false⟩, ⟨.replied [], true, false⟩, ⟨.replied [replyWith none []], true, false⟩]

theorem replyWith_grants (payload : Bytes) : ¬ (replyWith none payload).Denies blankCodecs := by
  rintro (⟨hf, -⟩ | ⟨hs, -⟩ | ⟨hs, -⟩)
  · exact hf rfl
  · cases hs
  · exact hs rfl

theorem busyThenGarbled_honest : ∀ r ∈ busyThenGarbled, r.Honest (deniesAction blankCodecs) := by
  have hpayload : ∀ payload, ¬∃ response, blankCodecs.response payload = .ok response ∧ response.result = CarServerResponse.error := by
    rintro payload ⟨response, hok, herr⟩
    unfold blankCodecs at hok
    dsimp only at hok
    split at hok
    · cases hok
      exact absurd herr (by decide)
    · cases hok
  have hhonest : ∀ payload, ¬ deniesAction blankCodecs (replyWith none payload) := by
    rintro payload (hd | hd)
    · exact replyWith_grants payload hd
    · exact hpayload _ hd
  intro r hr
  simp only [busyThenGarbled, List.mem_cons, List.not_mem_nil, or_false] at hr
  rcases hr with rfl | rfl | rfl
  · exact nofun
  · rintro _ _ ⟨rfl⟩ u hu
    rw [List.mem_singleton.1 hu]
    exact hhonest _
  · rintro _ _ ⟨rfl⟩ u hu
    rw [List.mem_singleton.1 hu]
    exact hhonest _

theorem infotainment_once_garbled :
    executions (trySend blankCodecs) busyThenGarbled ≤ 1 ∧
      ∀ err text, getCarServerResponse blankCodecs busyThenGarbled = some (.error err) →
        (∀ t, err.classify text ≠ .mayHaveSucceeded t) → executions (trySend blankCodecs) busyThenGarbled = 0 :=
  infotainment_once blankCodecs busyThenGarbled busyThenGarbled_honest

/-- The same of a VCSEC command, whatever its last message is told by. -/
theorem vcsec_once (C : Codecs) (done : TerminalTest) (rounds : List Round) (hd : done ∈ terminalTests)
    (h : ∀ r ∈ rounds, r.Honest (deniesVCSEC C)) :
    executions (tryVCSEC C done) rounds ≤ 1 ∧
      ∀ err text, getVCSECResult C done rounds = some (.error err) → (∀ t, err.classify text ≠ .mayHaveSucceeded t) →
        executions (tryVCSEC C done) rounds = 0 := by
  have hclass : ∀ r ∈ rounds, r.Classified (tryVCSEC C done) := fun r hr => honest_vcsec hd (h r hr)
  exact ⟨executions_once hclass, fun _ _ hres hfailed => executions_never hclass hres (classify_failed hfailed)⟩

theorem busyThenLost_honest : ∀ r ∈ busyThenLost, r.Honest (deniesVCSEC blankCodecs) := by
  intro r hr
  simp only [busyThenLost, List.mem_cons, List.not_mem_nil, or_false] at hr
  rcases hr with rfl | rfl | rfl
  · exact nofun
  · rintro _ _ ⟨rfl⟩ u hu
    cases hu
  · rintro _ _ ⟨rfl⟩ u hu
    rw [List.mem_singleton.1 hu]
    rintro (hd | ⟨encoded, m, hp, hdec, hd⟩)
    · exact replyWith_grants _ hd
    · cases hp
      cases hdec
      rcases hd with ⟨hn⟩ | ⟨hs, -⟩ | ⟨hw, -⟩
      · cases hn
      · cases hs
      · cases hw

theorem vcsec_once_lost :
    executions (tryVCSEC blankCodecs actionDone) busyThenLost ≤ 1 ∧
      ∀ err text, getVCSECResult blankCodecs actionDone busyThenLost = some (.error err) →
        (∀ t, err.classify text ≠ .mayHaveSucceeded t) → executions (tryVCSEC blankCodecs actionDone) busyThenLost = 0 :=
  vcsec_once blankCodecs actionDone busyThenLost List.mem_cons_self busyThenLost_honest

/-! ## Handshakes with several domains -/

/-- `errors.Is(err, context.Canceled)`. -/
def ProtocolError.isCanceled (e : ProtocolError) : Bool := e = .plain "context canceled"

/-- The results of `StartSessions` in the order in which they arrive; `err` is the one before. -/
def collect (err : Option ProtocolError) : List (Option ProtocolError) → Option ProtocolError
  | [] => err
  | none :: results => collect none results
  | some e :: results => if e.isCanceled then collect (some e) results else some e

def startSessions (results : List (Option ProtocolError)) : Option ProtocolError := collect none results

/-- Succeeds when the last handshake to end does and the others do or were cancelled. -/
theorem startSessions_none {results : List (Option ProtocolError)} :
    startSessions results = none ↔ (∀ e, some e ∈ results → e.isCanceled = true) ∧ results.getLast?.join = none := by
  suffices h : ∀ err, collect err results = none ↔
      (∀ e, some e ∈ results → e.isCanceled = true) ∧ (results.getLast?.getD err) = none by
    unfold startSessions
    rw [h]
    cases results.getLast? with
    | none => rfl
    | some r => rfl
  induction results with
  | nil => intro err; simp [collect]
  | cons r results ih =>
    intro err
    have hlast : ((r :: results).getLast?.getD err) = (results.getLast?.getD r) := by
      cases results with
      | nil => rfl
      | cons x xs =>
        rw [List.getLast?_cons_cons, List.getLast?_eq_some_getLast (List.cons_ne_nil x xs)]
        rfl
    rw [hlast]
    cases r with
    | none =>
      rw [collect, ih]
      simp
    | some e =>
      rw [collect]
      by_cases hc : e.isCanceled = true
      · rw [if_pos hc, ih]
        simp [hc]
      · rw [if_neg hc]
        simp [hc]

/-- `Vehicle.StartSession`: the results of each attempt, and whether the context ends after it. -/
def startSessionLoop : Attempts (List (Option ProtocolError) × Bool) ProtocolError Unit where
  outcome r := (startSessions r.1).elim (.ok ()) .error
  again := ProtocolError.shouldRetry
  cancelled := Prod.snd
  ended := .contextDone

/-- A session start succeeds with the last of its attempts. -/
theorem startSession_ok {rounds : List (List (Option ProtocolError) × Bool)} (h : startSessionLoop.run rounds = some (.ok ())) :
    ∃ r ∈ startSessionLoop.made rounds, startSessions r.1 = none := by
  obtain ⟨r, hr, -, hf⟩ := Attempts.run_last h
  refine ⟨r, hr, ?_⟩
  have hok : startSessionLoop.outcome r = .ok () := Attempts.final_ok hf
  cases hs : startSessions r.1 with
  | none => rfl
  | some e =>
    simp only [startSessionLoop, hs, Option.elim_some] at hok
    cases hok

end ElectricEel.Vehicle
