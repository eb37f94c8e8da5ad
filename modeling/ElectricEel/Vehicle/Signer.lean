/-
  ElectricEel.Vehicle.Signer — the client's end of an authenticated session
  (vehicle-command/internal/authentication/signer.go).

  The decoder of session info and the key exchange are parameters. A message is changed in
  place by the code, also where the call fails, so the calls return it with their result.

  Proved: a name that the constructor accepted never makes a response's metadata fail, so
  `decrypt` does not reach the branch that reports counter 0 without decrypting
  (`responseMetadata_name`); an update never lowers the counter (`update_counter`); over any run of
  authorisations and updates every issued counter is above all issued before it, whatever
  epochs and counters the vehicle reports, until an unchecked increment wraps
  (`issued_increasing`).
-/
import ElectricEel.Lib.Runs
import ElectricEel.Vehicle.Metadata

namespace ElectricEel.Vehicle

open Lib

structure Signer where
  peer : Peer
  verifierPublicBytes : Bytes
  /-- The vehicle's time of the newest session info the signer took. -/
  setTime : UInt32
  deriving DecidableEq

def epochStartTime (now : Instant) (epochTime : UInt32) : Instant := now.add (-(second * epochTime.toNat))

section Construction

variable (P : Primitives) (unmarshal : Bytes → Option SessionInfo) (exchange : Bytes → Except String Session)

def newSigner (verifierName : Bytes) (info : SessionInfo) (now : Instant) : Except AuthError Signer :=
  if h : verifierName.length ≤ 255 then
    match exchange info.publicKey with
    | .error e => .error (.library e)
    | .ok session =>
      .ok
        { peer :=
            { domain := domainBroadcast
              verifierName := some verifierName
              counter := info.counter
              epoch := EpochId.zero.copy info.epoch
              timeZero := epochStartTime now info.clockTime
              session
              nameLe := fun name hn => by cases hn; exact h }
          verifierPublicBytes := info.publicKey
          setTime := info.clockTime }
  else .error (.metadata .fieldTooLong)

def importSessionInfo (verifierName encodedInfo : Bytes) (generatedAt : Instant) : Except AuthError Signer :=
  match unmarshal encodedInfo with
  | none => .error (.fault MessageFault.decoding "invalid session info protobuf")
  | some info =>
    (newSigner exchange verifierName info generatedAt).map fun signer =>
      { signer with peer := { signer.peer with timeZero := generatedAt.add (-(second * info.clockTime.toNat)) } }

def newAuthenticatedSigner (verifierName : Bytes) (challenge : Option Bytes) (encodedInfo tag : Bytes) (now : Instant) :
    Except AuthError Signer :=
  match importSessionInfo unmarshal exchange verifierName encodedInfo now with
  | .error e => .error e
  | .ok signer =>
    match signer.peer.session.sessionInfoHmac P (some verifierName) challenge encodedInfo with
    | .error e => .error (.metadata e)
    | .ok validTag =>
      if validTag = tag then .ok signer
      else .error (.fault MessageFault.invalidSignature "session info hmac invalid")

end Construction

namespace Signer

def updateSessionInfo (s : Signer) (info : SessionInfo) (now : Instant) : Signer × Option AuthError :=
  if info.publicKey ≠ s.verifierPublicBytes then
    (s, some (.fault MessageFault.unknownKeyId "public key in SessionInfo doesn't match value used to initialize Signer"))
  else if s.peer.epoch.1 ≠ info.epoch ∨ s.setTime ≤ info.clockTime then
    ({ s with
        peer :=
          { s.peer with
            counter := if s.peer.counter < info.counter then info.counter else s.peer.counter
            epoch := s.peer.epoch.copy info.epoch
            timeZero := epochStartTime now info.clockTime }
        setTime := info.clockTime }, none)
  else (s, none)

def updateSignedSessionInfo (P : Primitives) (unmarshal : Bytes → Option SessionInfo) (s : Signer) (challenge : Option Bytes)
    (encodedInfo tag : Bytes) (now : Instant) : Signer × Option AuthError :=
  match s.peer.session.sessionInfoHmac P s.peer.verifierName challenge encodedInfo with
  | .error e => (s, some (.metadata e))
  | .ok validTag =>
    if validTag = tag then
      match unmarshal encodedInfo with
      | none => (s, some (.fault MessageFault.decoding "invalid session info protobuf"))
      | some info => s.updateSessionInfo info now
    else (s, some (.fault MessageFault.invalidSignature "session info hmac invalid"))

def expiresAt (s : Signer) (expiresIn : Int) (now : Instant) : UInt32 := seconds ((now.add expiresIn).sub s.peer.timeZero)

def signatureData (s : Signer) (sigType : SigType) : SignatureData :=
  { signerIdentity := some s.peer.session.localPublic, sigType := some sigType }

def encryptWithCounter (P : Primitives) (s : Signer) (message : RoutableMessage) (expiresIn : Int) (counter : UInt32)
    (now : Instant) (random : RandomRead) : RoutableMessage × Option AuthError :=
  let gcmData : AesGcmPersonalizedSignatureData :=
    { epoch := some s.peer.epoch.1, nonce := [], counter, expiresAt := s.expiresAt expiresIn now, tag := [] }
  let message := { message with subSigData := some (s.signatureData (.aesGcmPersonalizedData gcmData)) }
  match extractMetadata s.peer .new message gcmData.info SignatureType.aesGcmPersonalized with
  | .error e => (message, some e)
  | .ok m =>
    match message.payload with
    | some (.protobufMessageAsBytes plaintext) =>
      match random.err with
      -- The failed call returns no ciphertext, which replaces the payload.
      | some e =>
        ({ message with
            payload := some (.protobufMessageAsBytes [])
            subSigData := some (s.signatureData (.aesGcmPersonalizedData { gcmData with nonce := random.buffer })) },
          some (.library e))
      | none =>
        let (nonce, ciphertext, tag) := s.peer.session.encrypt P random.buffer plaintext (P.sha256 (m.checksum []))
        ({ message with
            payload := some (.protobufMessageAsBytes ciphertext)
            subSigData := some (s.signatureData (.aesGcmPersonalizedData { gcmData with nonce, tag })) }, none)
    | _ => (message, some (.fault MessageFault.badParameter "Missing protobuf message"))

/-- The counter has moved also where the message could not be encrypted. -/
def encrypt (P : Primitives) (s : Signer) (message : RoutableMessage) (expiresIn : Int) (now : Instant)
    (random : RandomRead) : Signer × RoutableMessage × Option AuthError :=
  if s.peer.counter = 0xFFFFFFFF then (s, message, some (.fault MessageFault.invalidTokenOrCounter "counter rollover"))
  else
    let s := { s with peer := { s.peer with counter := s.peer.counter + 1 } }
    (s, s.encryptWithCounter P message expiresIn s.peer.counter now random)

/-- The increment is not checked here. -/
def authorizeHmac (P : Primitives) (s : Signer) (message : RoutableMessage) (expiresIn : Int) (now : Instant) :
    Signer × RoutableMessage × Option AuthError :=
  let s := { s with peer := { s.peer with counter := s.peer.counter + 1 } }
  let hmacData : HmacPersonalizedSignatureData :=
    { epoch := some s.peer.epoch.1, counter := s.peer.counter, expiresAt := s.expiresAt expiresIn now, tag := [] }
  match s.peer.hmacTag P message hmacData with
  | .error e => (s, { message with subSigData := some (s.signatureData (.hmacPersonalizedData hmacData)) }, some e)
  | .ok tag => (s, { message with subSigData := some (s.signatureData (.hmacPersonalizedData { hmacData with tag })) }, none)

def decrypt (P : Primitives) (s : Signer) (message : RoutableMessage) (id : Option Bytes) :
    RoutableMessage × Except AuthError UInt32 :=
  match message.getAesGcmResponseData with
  | none => (message, .error (.fault MessageFault.badParameter "missing AES-GCM data"))
  | some gcmInfo =>
    match responseMetadata s.peer message id gcmInfo.counter with
    -- The code returns no error here.
    | .error _ => (message, .ok 0)
    | .ok m =>
      match s.peer.session.decrypt P gcmInfo.nonce message.getProtobufMessageAsBytes (P.sha256 (m.checksum [])) gcmInfo.tag with
      | none => (message, .error (.library "cipher: message authentication failed"))
      | some plaintext =>
        ({ message with payload := some (.protobufMessageAsBytes plaintext), subSigData := none }, .ok gcmInfo.counter)

end Signer

/-! ## The metadata of a response -/

theorem responseMetadata_name (p : Peer) (message : RoutableMessage) (id : Option Bytes) (counter : UInt32) :
    ∃ m, responseMetadata p message id counter = .ok m := by
  have h2 := (Metadata.Holds.new.add_short (by decide : 0 ≤ Tag.signatureType) (v := [SignatureType.aesGcmResponse]) (by simp)).add_short
    (by decide : Tag.signatureType ≤ Tag.domain) (v := [byte (Destination.getDomain message.fromDestination)]) (by simp)
  have h3 := (h2.add (by decide : Tag.domain ≤ Tag.personalization) p.nameLe).2
  unfold responseMetadata
  dsimp only
  split
  · rename_i hadd
    rw [hadd] at h3
    cases h3
  · exact ⟨_, rfl⟩

/-- What is decrypted was opened under the response's own metadata. -/
theorem decrypt_ok {P : Primitives} {s : Signer} {message message' : RoutableMessage} {id : Option Bytes} {counter : UInt32}
    (h : s.decrypt P message id = (message', .ok counter)) :
    ∃ gcmInfo x plaintext, message.getAesGcmResponseData = some gcmInfo ∧ gcmInfo.counter = counter ∧
      (Digested.response s.peer message id counter).bytes = some x ∧
      s.peer.session.decrypt P gcmInfo.nonce message.getProtobufMessageAsBytes (P.sha256 x) gcmInfo.tag = some plaintext ∧
      message' = { message with payload := some (.protobufMessageAsBytes plaintext), subSigData := none } := by
  unfold Signer.decrypt at h
  split at h
  · cases h
  · rename_i gcmInfo hg
    obtain ⟨m, hm⟩ := responseMetadata_name s.peer message id gcmInfo.counter
    rw [hm] at h
    dsimp only at h
    split at h
    · cases h
    · rename_i plaintext hp
      cases h
      refine ⟨gcmInfo, m.checksum [], plaintext, hg, rfl, ?_, hp, rfl⟩
      simp only [Digested.bytes, hm, Except.toOption, Option.map_some]

/-! ## Counters -/

theorem toNat_succ {n : UInt32} (h : n ≠ 0xFFFFFFFF) : (n + 1).toNat = n.toNat + 1 := by
  have hlt := n.toNat_lt
  have hne : n.toNat ≠ 0xFFFFFFFF := fun he => h (UInt32.toNat_inj.1 he)
  rw [UInt32.toNat_add]
  exact Nat.mod_eq_of_lt (by simp only [UInt32.toNat_one]; omega)

namespace Signer

variable {P : Primitives} {s : Signer}

theorem update_counter (info : SessionInfo) (now : Instant) : s.peer.counter ≤ (s.updateSessionInfo info now).1.peer.counter := by
  unfold updateSessionInfo
  split
  · exact UInt32.le_refl _
  · split
    · dsimp only
      split
      · exact UInt32.le_of_lt ‹_›
      · exact UInt32.le_refl _
    · exact UInt32.le_refl _

theorem encrypt_counter {message : RoutableMessage} {expiresIn : Int} {now : Instant} {random : RandomRead} :
    (s.encrypt P message expiresIn now random).1 = s ∧ (s.encrypt P message expiresIn now random).2.2 ≠ none ∨
      s.peer.counter ≠ 0xFFFFFFFF ∧ (s.encrypt P message expiresIn now random).1.peer.counter = s.peer.counter + 1 := by
  unfold encrypt
  split
  · exact Or.inl ⟨rfl, by simp⟩
  · exact Or.inr ⟨‹_›, rfl⟩

theorem authorizeHmac_counter (message : RoutableMessage) (expiresIn : Int) (now : Instant) :
    (s.authorizeHmac P message expiresIn now).1.peer.counter = s.peer.counter + 1 := by
  unfold authorizeHmac
  dsimp only
  split <;> rfl

end Signer

inductive SignerEvent where
  | encrypt (message : RoutableMessage) (expiresIn : Int) (now : Instant) (random : RandomRead)
  | authorizeHmac (message : RoutableMessage) (expiresIn : Int) (now : Instant)
  | updateSessionInfo (info : SessionInfo) (now : Instant)

/-- A signer and the counters of the commands it authorised, the newest first. -/
def signing (P : Primitives) (s₀ : Signer) : Machine (Signer × List UInt32) SignerEvent where
  init := (· = (s₀, []))
  step
    | (s, issued), .encrypt message expiresIn now random =>
      let (s, _, err) := s.encrypt P message expiresIn now random
      (s, if err = none then s.peer.counter :: issued else issued)
    | (s, issued), .authorizeHmac message expiresIn now =>
      let (s, _, err) := s.authorizeHmac P message expiresIn now
      (s, if err = none then s.peer.counter :: issued else issued)
    | (s, issued), .updateSessionInfo info now => ((s.updateSessionInfo info now).1, issued)

/-- The unchecked increment does not wrap. -/
def NoWrap (st : Signer × List UInt32) : SignerEvent → Prop
  | .authorizeHmac .. => st.1.peer.counter ≠ 0xFFFFFFFF
  | _ => True

/-- Newest first, each counter above the ones before it; all above `low` and at most `high`. -/
structure Increasing (low high : UInt32) (issued : List UInt32) : Prop where
  sorted : issued.Pairwise (· > ·)
  above : ∀ c ∈ issued, low < c
  upTo : ∀ c ∈ issued, c ≤ high
  lowLe : low ≤ high

namespace Increasing

variable {low high high' : UInt32} {issued : List UInt32}

theorem raise (h : Increasing low high issued) (hle : high ≤ high') : Increasing low high' issued :=
  ⟨h.sorted, h.above, fun c hc => UInt32.le_trans (h.upTo c hc) hle, UInt32.le_trans h.lowLe hle⟩

/-- The counter moves by one, and is issued or not. -/
theorem issue (h : Increasing low high issued) (hne : high ≠ 0xFFFFFFFF) (err : Option AuthError) :
    Increasing low (high + 1) (if err = none then (high + 1) :: issued else issued) := by
  have hlt : high < high + 1 := UInt32.lt_iff_toNat_lt.2 (by rw [toNat_succ hne]; exact Nat.lt_succ_self _)
  split
  case isFalse => exact h.raise (UInt32.le_of_lt hlt)
  refine ⟨List.pairwise_cons.2 ⟨fun c hc => UInt32.lt_of_le_of_lt (h.upTo c hc) hlt, h.sorted⟩, ?_, ?_, ?_⟩
  · intro c hc
    rcases List.mem_cons.mp hc with rfl | hc
    · exact UInt32.lt_of_le_of_lt h.lowLe hlt
    · exact h.above c hc
  · intro c hc
    rcases List.mem_cons.mp hc with rfl | hc
    · exact UInt32.le_refl _
    · exact UInt32.le_of_lt (UInt32.lt_of_le_of_lt (h.upTo c hc) hlt)
  · exact UInt32.le_of_lt (UInt32.lt_of_le_of_lt h.lowLe hlt)

end Increasing

theorem signing_step {P : Primitives} {s₀ : Signer} (st : Signer × List UInt32) (e : SignerEvent)
    (h : Increasing s₀.peer.counter st.1.peer.counter st.2) (hok : NoWrap st e) :
    Increasing s₀.peer.counter ((signing P s₀).step st e).1.peer.counter ((signing P s₀).step st e).2 := by
  obtain ⟨s, issued⟩ := st
  cases e with
  | encrypt message expiresIn now random =>
    simp only [signing]
    rcases @Signer.encrypt_counter P s message expiresIn now random with ⟨hs, herr⟩ | ⟨hne, hc⟩
    · rw [hs, if_neg herr]
      exact h
    · rw [hc]
      exact h.issue hne _
  | authorizeHmac message expiresIn now =>
    simp only [signing, Signer.authorizeHmac_counter]
    exact h.issue hok _
  | updateSessionInfo info now => exact h.raise (Signer.update_counter info now)

/-- Whatever session infos arrive between them, of whatever epochs, authorised commands carry
    counters that only go up. -/
theorem issued_increasing {P : Primitives} {s₀ : Signer} {st : Signer × List UInt32} (h : (signing P s₀).Reach NoWrap st) :
    st.2.Pairwise (· > ·) ∧ ∀ c ∈ st.2, s₀.peer.counter < c ∧ c ≤ st.1.peer.counter := by
  have hi : Increasing s₀.peer.counter st.1.peer.counter st.2 := by
    refine h.inv (fun s hs => ?_) (fun s e hs hok => signing_step s e hs hok)
    rw [hs]
    exact ⟨List.Pairwise.nil, fun c hc => absurd hc List.not_mem_nil, fun c hc => absurd hc List.not_mem_nil, UInt32.le_refl _⟩
  exact ⟨hi.sorted, fun c hc => ⟨hi.above c hc, hi.upTo c hc⟩⟩

/-! ## A run -/

/-- Primitives to evaluate a run with: a tag is the text it vouches for. -/
def openPrimitives : Primitives where
  sha256 text := text
  hmacSha256 key text := key ++ text
  gcmSeal _ nonce plaintext associatedData := plaintext ++ (nonce ++ associatedData)
  gcmOpen _ nonce ctAndTag associatedData :=
    if (nonce ++ associatedData).isSuffixOf ctAndTag then some (ctAndTag.take (ctAndTag.length - (nonce ++ associatedData).length))
    else none

def samplePeer (domain : Domain) : Peer where
  domain := domain
  verifierName := some [86]
  counter := 0
  epoch := EpochId.zero
  timeZero := { wall := 0, monotonic := 0 }
  session := { key := [1], localPublic := [2] }
  nameLe := fun name hn => by cases hn; decide

def sampleMessage : RoutableMessage where
  toDestination := some { subDestination := some (.domain domainVehicleSecurity) }
  fromDestination := some { subDestination := some (.routingAddress [9]) }
  payload := some (.protobufMessageAsBytes [42])
  subSigData := none
  signedMessageStatus := none
  requestUuid := none
  uuid := some [8]
  flags := 2

def sampleInstant : Instant := { wall := second, monotonic := second }

def sampleSigner : Signer := { peer := samplePeer domainBroadcast, verifierPublicBytes := [3], setTime := 0 }

/-- Between the two commands the vehicle reports a counter of its own. -/
def sampleSigning : List SignerEvent :=
  [.encrypt sampleMessage (5 * second) sampleInstant { buffer := [7], err := none },
    .updateSessionInfo { counter := 20, publicKey := [3], epoch := [5], clockTime := 9, status := 0, handle := 0 } sampleInstant,
    .encrypt sampleMessage (5 * second) sampleInstant { buffer := [8], err := none }]

theorem issued_increasing_sample : ([21, 1] : List UInt32).Pairwise (· > ·) ∧ ∀ c ∈ ([21, 1] : List UInt32), 0 < c ∧ c ≤ 21 := by
  have h0 : (signing openPrimitives sampleSigner).Reach NoWrap (sampleSigner, []) := .init rfl
  exact issued_increasing (h0.run sampleSigning ⟨trivial, trivial, trivial, trivial⟩)

end ElectricEel.Vehicle
