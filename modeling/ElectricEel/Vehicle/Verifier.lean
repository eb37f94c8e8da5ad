/-
  ElectricEel.Vehicle.Verifier — the vehicle's end of an authenticated session
  (vehicle-command/internal/authentication/verifier.go).

  One call reads the clock once; the session info attached to a refusal has its own reading.
  A `Moment` is such a reading with what the random source would give there. The encoder of
  session info is a parameter.

  Proved: a verified message passed its domain, its epoch, its expiry, a short life where it
  comes out of order, its tag under the verifier's own epoch, and the window; a refusal leaves
  the window and the counter as they were, or those of a new epoch (`verify_verdict`).
-/
import ElectricEel.Vehicle.Window
import ElectricEel.Vehicle.Metadata

namespace ElectricEel.Vehicle

open Lib

structure Verifier where
  peer : Peer
  window : BitVec 64
  handle : UInt32
  deriving DecidableEq

structure Moment where
  now : Instant
  /-- The 16 bytes after the read, and its error. -/
  random : EpochId × Bool

def maxSecondsWithoutCounter : UInt32 := 30

def yearInSeconds : Int := 365 * 24 * 60 * 60

/-- Go's zero time, the first day of the year 1. -/
def zeroTime : Instant := { wall := -62135596800 * second, monotonic := -62135596800 * second }

def Instant.unix (t : Instant) : Int := t.wall / second

namespace Verifier

def rotateEpochIfNeeded (v : Verifier) (force : Bool) (m : Moment) : Verifier × Option AuthError :=
  if force ∨ v.peer.timeZero.wall = zeroTime.wall ∨ v.peer.counter = 0xFFFFFFFF ∨ UInt32.ofNat epochLength < v.peer.timestamp m.now then
    let v := { v with peer := { v.peer with epoch := m.random.1 } }
    if m.random.2 then ({ v with peer := { v.peer with timeZero := m.now, counter := 0 } }, none)
    else
      ({ v with peer := { v.peer with counter := 0xFFFFFFFF } }, some (.fault MessageFault.internal "RNG failure"))
  else (v, none)

/-- The wall clock may show that the monotonic clock stood still. -/
def adjustClock (v : Verifier) (m : Moment) : Verifier × Option AuthError :=
  let wallClock := m.now.unix
  let wallClockStart := v.peer.timeZero.unix
  if wallClockStart > wallClock ∨ wallClock - wallClockStart > yearInSeconds then v.rotateEpochIfNeeded true m
  else
    let elapsedWallTime := (wallClock - wallClockStart) * second
    let elapsedProcessTime := m.now.sub v.peer.timeZero
    if elapsedWallTime > elapsedProcessTime ∧ elapsedWallTime - elapsedProcessTime > second then
      if zeroTime.wall + elapsedWallTime > m.now.wall then v.rotateEpochIfNeeded true m
      else { v with peer := { v.peer with timeZero := m.now.add (-elapsedWallTime) } }.rotateEpochIfNeeded false m
    else v.rotateEpochIfNeeded false m

def newVerifier (exchange : Bytes → Except String Session) (id : Option Bytes) (domain : Domain) (signerPublicBytes : Bytes) (m : Moment) :
    Except AuthError Verifier :=
  match exchange signerPublicBytes with
  | .error e => .error (.library e)
  | .ok session =>
    if h : ∀ name ∈ id, name.length ≤ 255 then
      let v : Verifier :=
        { peer :=
            { domain
              verifierName := id
              counter := 0
              epoch := EpochId.zero
              timeZero := zeroTime
              session
              nameLe := h }
          window := 0#64
          handle := 0 }
      match v.rotateEpochIfNeeded false m with
      | (_, some e) => .error e
      | (v, none) => .ok v
    else .error (.metadata .fieldTooLong)

def sessionInfo (v : Verifier) (m : Moment) : Verifier × Except AuthError SessionInfo :=
  match v.adjustClock m with
  | (v, some e) => (v, .error e)
  | (v, none) =>
    (v, .ok
      { counter := v.peer.counter
        publicKey := v.peer.session.localPublic
        epoch := v.peer.epoch.1
        clockTime := v.peer.timestamp m.now
        status := 0
        handle := v.handle })

section

variable (P : Primitives) (marshal : SessionInfo → Bytes)

def signedSessionInfo (v : Verifier) (challenge : Option Bytes) (m : Moment) : Verifier × Except AuthError (Bytes × Bytes) :=
  match v.sessionInfo m with
  | (v, .error e) => (v, .error e)
  | (v, .ok info) =>
    let encodedInfo := marshal info
    match v.peer.session.sessionInfoHmac P v.peer.verifierName challenge encodedInfo with
    | .error e => (v, .error (.metadata e))
    | .ok tag => (v, .ok (encodedInfo, tag))

/-- The reply to a session info request. -/
def setSessionInfo (v : Verifier) (challenge : Option Bytes) (message : RoutableMessage) (m : Moment) :
    Verifier × Except AuthError RoutableMessage :=
  match v.signedSessionInfo P marshal challenge m with
  | (v, .error e) => (v, .error e)
  | (v, .ok (encodedInfo, tag)) =>
    (v, .ok
      { message with
        payload := some (.sessionInfo encodedInfo)
        subSigData := some { signerIdentity := none, sigType := some (.sessionInfoTag (some tag)) } })

def signatureError (v : Verifier) (code : MessageFault) (challenge : Option Bytes) (m : Moment) : Verifier × AuthError :=
  match v.signedSessionInfo P marshal challenge m with
  | (v, .ok (info, tag)) => (v, .invalidSignature code info tag)
  | (v, .error _) => (v, .fault MessageFault.internal ("Error collecting session info after encountering " ++ code.string))

/-- The fault of a message that does not fit the session: `.inl` reports session info with it. -/
def verifySessionInfo (v : Verifier) (message : RoutableMessage) (info : SigInfo) (now : Instant) :
    Option (MessageFault ⊕ AuthError) :=
  let domain := Destination.getDomain message.toDestination
  let timestamp := v.peer.timestamp now
  if domain ≠ v.peer.domain ∧ v.peer.domain ≠ domainBroadcast then
    some (.inr (.fault MessageFault.invalidDomains "wrong domain"))
  else if ∃ epoch ∈ info.epoch, epoch ≠ v.peer.epoch.1 then some (.inl MessageFault.incorrectEpoch)
  else if info.expiresAt ≠ 0 ∧ info.expiresAt < timestamp then some (.inl MessageFault.timeExpired)
  else if epochLength < info.expiresAt.toNat then some (.inl MessageFault.badParameter)
  else if (info.counter = 0 ∨ info.counter < v.peer.counter) ∧
      (info.expiresAt = 0 ∨ maxSecondsWithoutCounter < info.expiresAt - timestamp) then
    some (.inl MessageFault.timeToLiveTooLong)
  else none

def verifyGcm (v : Verifier) (message : RoutableMessage) (data : AesGcmPersonalizedSignatureData) (now : Instant) :
    Except (MessageFault ⊕ AuthError) Bytes :=
  match v.verifySessionInfo message data.info now with
  | some e => .error e
  | none =>
    match extractMetadata v.peer .new message data.info SignatureType.aesGcmPersonalized with
    | .error e => .error (.inr e)
    | .ok m =>
      match v.peer.session.decrypt P data.nonce message.getProtobufMessageAsBytes (P.sha256 (m.checksum [])) data.tag with
      | none => .error (.inl MessageFault.invalidSignature)
      | some plaintext => .ok plaintext

def verifyHmac (v : Verifier) (message : RoutableMessage) (data : HmacPersonalizedSignatureData) (now : Instant) :
    Except (MessageFault ⊕ AuthError) Bytes :=
  match v.verifySessionInfo message data.info now with
  | some e => .error e
  | none =>
    match v.peer.hmacTag P message data with
    | .error e => .error (.inr e)
    | .ok expectedTag =>
      if data.tag = expectedTag then .ok message.getProtobufMessageAsBytes else .error (.inl MessageFault.invalidSignature)

/-- `m'`: where the session info of a refusal is made. -/
def refuse (v : Verifier) (message : RoutableMessage) (m' : Moment) : MessageFault ⊕ AuthError → Verifier × Except AuthError Bytes
  | .inl code =>
    let (v, e) := v.signatureError P marshal code message.uuid m'
    (v, .error e)
  | .inr e => (v, .error e)

/-- The window is consulted only for a message that verified. -/
def checkCounter (v : Verifier) (message : RoutableMessage) (m' : Moment) (counter : UInt32) :
    Except (MessageFault ⊕ AuthError) Bytes → Verifier × Except AuthError Bytes
  | .error e => v.refuse P marshal message m' e
  | .ok plaintext =>
    if counter > 0 then
      match updateSlidingWindow v.peer.counter v.window counter with
      | (_, _, false) => v.refuse P marshal message m' (.inl MessageFault.invalidTokenOrCounter)
      | (counter, window, true) => ({ v with peer := { v.peer with counter }, window }, .ok plaintext)
    else (v, .ok plaintext)

def verify (v : Verifier) (message : RoutableMessage) (m m' : Moment) : Verifier × Except AuthError Bytes :=
  match v.adjustClock m with
  | (v, some e) => (v, .error e)
  | (v, none) =>
    match message.subSigData with
    | none => (v, .error (.fault MessageFault.badParameter "signature data missing"))
    | some data =>
      match data.sigType with
      | some (.aesGcmPersonalizedData data) => v.checkCounter P marshal message m' data.counter (v.verifyGcm P message data m.now)
      | some (.hmacPersonalizedData data) => v.checkCounter P marshal message m' data.counter (v.verifyHmac P message data m.now)
      | _ => (v, .error (.fault MessageFault.badParameter "unrecognized authentication method"))

/-- A response to the request of that id. -/
def encrypt (v : Verifier) (message : RoutableMessage) (id : Option Bytes) (counter : UInt32) (random : RandomRead) :
    Except AuthError RoutableMessage :=
  match responseMetadata v.peer message id counter with
  | .error e => .error (.metadata e)
  | .ok m =>
    match random.err with
    | some e => .error (.library e)
    | none =>
      let (nonce, ciphertext, tag) := v.peer.session.encrypt P random.buffer message.getProtobufMessageAsBytes (P.sha256 (m.checksum []))
      .ok
        { message with
          subSigData := some { signerIdentity := none, sigType := some (.aesGcmResponseData { counter, nonce, tag }) }
          payload := some (.protobufMessageAsBytes ciphertext) }

end

end Verifier

/-! ## What a call leaves -/

/-- After the clock was adjusted: the session goes on, a new epoch has begun, or there is none. -/
inductive Adjusted (v : Verifier) (m : Moment) : Verifier → Option AuthError → Prop
  | same {v' : Verifier} : v'.peer.epoch = v.peer.epoch → v'.peer.counter = v.peer.counter → v.peer.counter ≠ 0xFFFFFFFF →
      v'.window = v.window → Adjusted v m v' none
  | rotated {v' : Verifier} : v'.peer.epoch = m.random.1 → m.random.2 = true → v'.peer.counter = 0 → Adjusted v m v' none
  | broken {v' : Verifier} {e : AuthError} : v'.peer.epoch = m.random.1 → v'.peer.counter = 0xFFFFFFFF → Adjusted v m v' (some e)

namespace Verifier

theorem rotate_adjusted {v v' : Verifier} {m : Moment} {force : Bool} (he : v'.peer.epoch = v.peer.epoch)
    (hc : v'.peer.counter = v.peer.counter) (hw : v'.window = v.window) :
    Adjusted v m (v'.rotateEpochIfNeeded force m).1 (v'.rotateEpochIfNeeded force m).2 := by
  unfold rotateEpochIfNeeded
  split
  · dsimp only
    split
    · exact .rotated rfl ‹_› rfl
    · exact .broken rfl rfl
  · rename_i hno
    refine .same he hc (fun hmax => hno ?_) hw
    exact Or.inr (Or.inr (Or.inl (hc.trans hmax)))

theorem adjustClock_adjusted (v : Verifier) (m : Moment) : Adjusted v m (v.adjustClock m).1 (v.adjustClock m).2 := by
  unfold adjustClock
  dsimp only
  split
  · exact rotate_adjusted rfl rfl rfl
  · split
    · split
      · exact rotate_adjusted rfl rfl rfl
      · exact rotate_adjusted rfl rfl rfl
    · exact rotate_adjusted rfl rfl rfl

variable {P : Primitives} {marshal : SessionInfo → Bytes}

theorem signedSessionInfo_adjusted (v : Verifier) (challenge : Option Bytes) (m : Moment) :
    ∃ e, Adjusted v m (v.signedSessionInfo P marshal challenge m).1 e := by
  have ha := v.adjustClock_adjusted m
  unfold signedSessionInfo sessionInfo
  generalize v.adjustClock m = r at ha
  obtain ⟨v', e⟩ := r
  refine ⟨e, ?_⟩
  cases e with
  | none =>
    dsimp only
    split <;> exact ha
  | some e => exact ha

theorem signatureError_adjusted (v : Verifier) (code : MessageFault) (challenge : Option Bytes) (m : Moment) :
    ∃ e, Adjusted v m (v.signatureError P marshal code challenge m).1 e := by
  obtain ⟨e, ha⟩ := v.signedSessionInfo_adjusted  challenge m
  refine ⟨e, ?_⟩
  unfold signatureError
  split
  · rename_i h
    rw [h] at ha
    exact ha
  · rename_i h
    rw [h] at ha
    exact ha

end Verifier

/-! ## What a verified message passed -/

/-- A tag of the message verifies over `x`, the bytes of a command with that info and text. -/
inductive Authenticates (P : Primitives) (p : Peer) (message : RoutableMessage) :
    SigInfo → SignatureType → (text plaintext x : Bytes) → Prop
  | gcm {data : AesGcmPersonalizedSignatureData} {plaintext x : Bytes} :
      message.sigType = some (.aesGcmPersonalizedData data) →
      (Digested.command p message data.info SignatureType.aesGcmPersonalized []).bytes = some x →
      p.session.decrypt P data.nonce message.getProtobufMessageAsBytes (P.sha256 x) data.tag = some plaintext →
      Authenticates P p message data.info SignatureType.aesGcmPersonalized [] plaintext x
  | hmac {data : HmacPersonalizedSignatureData} {x : Bytes} :
      message.sigType = some (.hmacPersonalizedData data) →
      (Digested.command p message data.info SignatureType.hmacPersonalized message.getProtobufMessageAsBytes).bytes = some x →
      data.tag = p.session.newHmac P labelMessageAuth x →
      Authenticates P p message data.info SignatureType.hmacPersonalized message.getProtobufMessageAsBytes
        message.getProtobufMessageAsBytes x

/-- How a call of `verify` ends. -/
inductive Verdict (P : Primitives) (v : Verifier) (message : RoutableMessage) (m m' : Moment) :
    Verifier → Except AuthError Bytes → Prop
  | refused {vc v' : Verifier} {e : Option AuthError} {err : AuthError} : Adjusted v m vc e →
      v' = vc ∨ (∃ e', Adjusted vc m' v' e') → Verdict P v message m m' v' (.error err)
  /-- The counter 0 is not checked. -/
  | accepted {vc v' : Verifier} {info : SigInfo} {method : SignatureType} {text plaintext x : Bytes} : Adjusted v m vc none →
      v.adjustClock m = (vc, none) → vc.verifySessionInfo message info m.now = none →
      Authenticates P vc.peer message info method text plaintext x →
      info.counter = 0 ∧ v' = vc ∨
        info.counter > 0 ∧ (updateSlidingWindow vc.peer.counter vc.window info.counter).2.2 = true ∧
          v' =
            { vc with
              peer := { vc.peer with counter := (updateSlidingWindow vc.peer.counter vc.window info.counter).1 }
              window := (updateSlidingWindow vc.peer.counter vc.window info.counter).2.1 } →
      Verdict P v message m m' v' (.ok plaintext)

namespace Verifier

variable {P : Primitives} {marshal : SessionInfo → Bytes}

theorem verifyGcm_ok {v : Verifier} {message : RoutableMessage} {data : AesGcmPersonalizedSignatureData} {now : Instant}
    {plaintext : Bytes} (hsig : message.sigType = some (.aesGcmPersonalizedData data))
    (h : v.verifyGcm P message data now = .ok plaintext) :
    v.verifySessionInfo message data.info now = none ∧
      ∃ x, Authenticates P v.peer message data.info SignatureType.aesGcmPersonalized [] plaintext x := by
  unfold verifyGcm at h
  split at h
  · cases h
  · rename_i hinfo
    split at h
    · cases h
    · rename_i m hm
      split at h
      · cases h
      · rename_i hp
        cases h
        refine ⟨hinfo, m.checksum [], .gcm hsig ?_ hp⟩
        simp only [Digested.bytes, hm, Except.toOption, Option.map_some]

theorem verifyHmac_ok {v : Verifier} {message : RoutableMessage} {data : HmacPersonalizedSignatureData} {now : Instant}
    {plaintext : Bytes} (hsig : message.sigType = some (.hmacPersonalizedData data))
    (h : v.verifyHmac P message data now = .ok plaintext) :
    v.verifySessionInfo message data.info now = none ∧
      ∃ x, Authenticates P v.peer message data.info SignatureType.hmacPersonalized message.getProtobufMessageAsBytes plaintext x := by
  unfold verifyHmac Peer.hmacTag at h
  split at h
  · cases h
  · rename_i hinfo
    cases hm : extractMetadata v.peer .new message data.info SignatureType.hmacPersonalized with
    | error e => simp [hm, Except.map] at h
    | ok m =>
      simp only [hm, Except.map] at h
      split at h
      · rename_i htag
        cases h
        refine ⟨hinfo, m.checksum message.getProtobufMessageAsBytes, .hmac hsig ?_ htag⟩
        simp only [Digested.bytes, hm, Except.toOption, Option.map_some]
      · cases h

theorem refuse_verdict {v vc : Verifier} {message : RoutableMessage} {m m' : Moment} {o : Option AuthError}
    (ha : Adjusted v m vc o) (e : MessageFault ⊕ AuthError) :
    Verdict P v message m m' (vc.refuse P marshal message m' e).1 (vc.refuse P marshal message m' e).2 := by
  cases e with
  | inl code => exact .refused ha (Or.inr (vc.signatureError_adjusted code message.uuid m'))
  | inr e => exact .refused ha (Or.inl rfl)

theorem checkCounter_verdict {v vc : Verifier} {message : RoutableMessage} {m m' : Moment} (ha : Adjusted v m vc none)
    (hadj : v.adjustClock m = (vc, none)) (info : SigInfo) {method : SignatureType} {text : Bytes}
    {r : Except (MessageFault ⊕ AuthError) Bytes}
    (hok : ∀ plaintext, r = .ok plaintext → vc.verifySessionInfo message info m.now = none ∧
      ∃ x, Authenticates P vc.peer message info method text plaintext x) :
    Verdict P v message m m' (vc.checkCounter P marshal message m' info.counter r).1
      (vc.checkCounter P marshal message m' info.counter r).2 := by
  cases r with
  | error e => exact refuse_verdict ha e
  | ok plaintext =>
    obtain ⟨hinfo, x, hx⟩ := hok plaintext rfl
    unfold checkCounter
    by_cases hc : info.counter > 0
    · simp only [hc, if_true]
      split
      · exact refuse_verdict ha _
      · rename_i counter window hw
        refine .accepted ha hadj hinfo hx (Or.inr ⟨hc, ?_, ?_⟩)
        · rw [hw]
        · rw [hw]
    · have h0 : info.counter = 0 := UInt32.le_antisymm (UInt32.not_lt.1 hc) UInt32.zero_le
      simp only [hc, if_false]
      exact .accepted ha hadj hinfo hx (Or.inl ⟨h0, rfl⟩)

theorem verify_verdict (v : Verifier) (message : RoutableMessage) (m m' : Moment) :
    Verdict P v message m m' (v.verify P marshal message m m').1 (v.verify P marshal message m m').2 := by
  have ha := v.adjustClock_adjusted m
  unfold verify
  cases hadj : v.adjustClock m with
  | mk vc e =>
    rw [hadj] at ha
    cases e with
    | some e => exact .refused ha (Or.inl rfl)
    | none =>
      dsimp only
      split
      · exact .refused ha (Or.inl rfl)
      · rename_i data hdata
        split
        · rename_i gcmData hsig
          have hs : message.sigType = some (.aesGcmPersonalizedData gcmData) := by simp [RoutableMessage.sigType, hdata, hsig]
          exact checkCounter_verdict ha hadj gcmData.info fun plaintext h => verifyGcm_ok hs h
        · rename_i hmacData hsig
          have hs : message.sigType = some (.hmacPersonalizedData hmacData) := by simp [RoutableMessage.sigType, hdata, hsig]
          exact checkCounter_verdict ha hadj hmacData.info fun plaintext h => verifyHmac_ok hs h
        · exact .refused ha (Or.inl rfl)

end Verifier

end ElectricEel.Vehicle
