/-
  ElectricEel.Session.Foreign — authentication requests read out of other messages
  (auth.go `parseAuthenticationRequest`).

  The payload of a decoded RoutableMessage is walked as a FromVCSECMessage whoever sent it
  and whether or not it is encrypted: neither signature_data nor from_destination is looked
  at. What keeps an ordinary reply from being read as a request is only its bytes.

  Proved: the walk accepts exactly the complete messages with a field 3, all of whose
  fields 3 are requests with a level (`reads_iff`), so a message signed or from another
  domain is refused exactly where its payload is none of these (`foreign_refused_iff`).
-/
import ElectricEel.Session.Decoding

namespace ElectricEel.Session

open Lib.Protowire

/-! ## What the walks accept -/

def IsRequest (b : Bytes) : Prop :=
  ∃ fs, IsMessage fs b ∧ (∃ v, ⟨3, .varint v⟩ ∈ fs) ∧ ∀ t, ⟨2, .bytes t⟩ ∈ fs → ∃ gs, IsMessage gs t

/-- A complete message with a field 3, all of whose fields 3 are requests. -/
def ReadsAsRequest (b : Bytes) : Prop :=
  ∃ fs, IsMessage fs b ∧ (∃ r, ⟨3, .bytes r⟩ ∈ fs) ∧ ∀ r, ⟨3, .bytes r⟩ ∈ fs → IsRequest r

variable {W : Codec}

theorem parseAuthRequestToken_isSome (b : Bytes) : (parseAuthRequestToken W b).isSome = true ↔ ∃ gs, IsMessage gs b := by
  rw [parseAuthRequestToken_eq, Option.isSome_map, Option.isSome_iff_exists]
  exact exists_congr fun gs => Codec.fields_iff

theorem foldlM_tokenPartStep_isSome (fs : List Field) (token : Bytes) :
    (fs.foldlM (tokenPartStep W) token).isSome = true ↔ ∀ t, ⟨2, .bytes t⟩ ∈ fs → ∃ gs, IsMessage gs t := by
  induction fs generalizing token with
  | nil => simp
  | cons f fs ih =>
    rw [List.foldlM_cons]
    have hstep : (tokenPartStep W token f).isSome = true ↔ ∀ t, f = ⟨2, .bytes t⟩ → ∃ gs, IsMessage gs t := by
      unfold tokenPartStep
      split
      · rename_i val
        rw [parseAuthRequestToken_isSome]
        constructor
        · rintro h t heq
          cases heq
          exact h
        · exact fun h => h val rfl
      · rename_i hne
        exact ⟨fun _ t heq => absurd heq (hne t), fun _ => rfl⟩
    constructor
    · intro h t ht
      obtain ⟨token', htok⟩ := Option.isSome_iff_exists.1 (Option.isSome_of_isSome_bind h)
      rcases List.mem_cons.1 ht with heq | ht
      · exact hstep.1 (by rw [htok]; rfl) t heq.symm
      · rw [htok] at h
        exact (ih token').1 h t ht
    · intro h
      obtain ⟨token', htok⟩ := Option.isSome_iff_exists.1 (hstep.2 fun t heq => h t (heq ▸ List.mem_cons_self))
      rw [htok]
      exact (ih token').2 fun t ht => h t (List.mem_cons_of_mem f ht)

theorem foldl_levelStep_isSome (fs : List Field) (level : Option Int) :
    (fs.foldl levelStep level).isSome = true ↔ level.isSome = true ∨ ∃ v, ⟨3, .varint v⟩ ∈ fs := by
  induction fs generalizing level with
  | nil => simp
  | cons f fs ih =>
    rw [List.foldl_cons, ih]
    unfold levelStep
    split
    · simp
    · rename_i hne
      constructor
      · rintro (h | ⟨v, hv⟩)
        · exact .inl h
        · exact .inr ⟨v, List.mem_cons_of_mem f hv⟩
      · rintro (h | ⟨v, hv⟩)
        · exact .inl h
        · exact .inr ⟨v, (List.mem_cons.1 hv).resolve_left fun heq => hne v heq.symm⟩

theorem parseAuthRequestMessage_isSome (b : Bytes) : (parseAuthRequestMessage W b).isSome = true ↔ IsRequest b := by
  rw [parseAuthRequestMessage_eq]
  cases hf : W.fields b with
  | none =>
    constructor
    · intro h
      cases h
    · rintro ⟨fs, hm, _⟩
      rw [Codec.fields_iff.2 hm] at hf
      cases hf
  | some fs =>
    have hm : IsMessage fs b := Codec.fields_iff.1 hf
    have hlevel := foldl_levelStep_isSome fs none
    have htoken := foldlM_tokenPartStep_isSome (W := W) fs []
    have hiff : IsRequest b ↔ (∃ v, ⟨3, .varint v⟩ ∈ fs) ∧ ∀ t, ⟨2, .bytes t⟩ ∈ fs → ∃ gs, IsMessage gs t := by
      constructor
      · rintro ⟨gs, hgs, h⟩
        have heq : gs = fs := Option.some.inj ((Codec.fields_iff.2 hgs).symm.trans hf)
        rwa [heq] at h
      · exact fun h => ⟨fs, hm, h⟩
    rw [Option.bind_some, foldlM_requestStep, hiff, ← htoken]
    simp only [Option.isSome_none, Bool.false_eq_true, false_or] at hlevel
    rw [← hlevel]
    cases fs.foldlM (tokenPartStep W) [] with
    | none => simp
    | some token => simp

theorem foldlM_fromVCSECStep_isSome (fs : List Field) (found : Option AuthenticationRequest) :
    ((fs.foldlM (fromVCSECStep W) found).bind id).isSome = true ↔
      (found.isSome = true ∨ ∃ r, ⟨3, .bytes r⟩ ∈ fs) ∧ ∀ r, ⟨3, .bytes r⟩ ∈ fs → IsRequest r := by
  induction fs generalizing found with
  | nil => simp
  | cons f fs ih =>
    rw [List.foldlM_cons]
    unfold fromVCSECStep
    split
    · rename_i val
      have hval := parseAuthRequestMessage_isSome (W := W) val
      cases hp : parseAuthRequestMessage W val with
      | none =>
        rw [hp] at hval
        constructor
        · intro h
          cases h
        · rintro ⟨_, h⟩
          exact absurd (hval.2 (h val List.mem_cons_self)) (by simp)
      | some r =>
        rw [hp] at hval
        have hreq : IsRequest val := hval.1 rfl
        refine (ih (some r)).trans ⟨?_, ?_⟩
        · rintro ⟨_, h⟩
          refine ⟨.inr ⟨val, List.mem_cons_self⟩, ?_⟩
          intro r' hr'
          rcases List.mem_cons.1 hr' with heq | hr'
          · cases heq
            exact hreq
          · exact h r' hr'
        · rintro ⟨_, h⟩
          exact ⟨.inl rfl, fun r' hr' => h r' (List.mem_cons_of_mem _ hr')⟩
    · rename_i hne
      refine (ih found).trans ⟨?_, ?_⟩
      · rintro ⟨hsome, h⟩
        refine ⟨hsome.imp_right fun ⟨r, hr⟩ => ⟨r, List.mem_cons_of_mem f hr⟩, ?_⟩
        intro r hr
        exact h r ((List.mem_cons.1 hr).resolve_left fun heq => hne r heq.symm)
      · rintro ⟨hsome, h⟩
        refine ⟨hsome.imp_right fun ⟨r, hr⟩ => ⟨r, (List.mem_cons.1 hr).resolve_left fun heq => hne r heq.symm⟩, ?_⟩
        exact fun r hr => h r (List.mem_cons_of_mem f hr)

theorem reads_iff (b : Bytes) : (parseAuthRequestFromFromVCSEC W b).isSome = true ↔ ReadsAsRequest b := by
  rw [parseAuthRequestFromFromVCSEC_eq]
  cases hf : W.fields b with
  | none =>
    constructor
    · intro h
      cases h
    · rintro ⟨fs, hm, _⟩
      rw [Codec.fields_iff.2 hm] at hf
      cases hf
  | some fs =>
    rw [Option.bind_some, foldlM_fromVCSECStep_isSome]
    simp only [Option.isSome_none, Bool.false_eq_true, false_or]
    constructor
    · exact fun h => ⟨fs, Codec.fields_iff.1 hf, h⟩
    · rintro ⟨gs, hgs, h⟩
      have heq : gs = fs := Option.some.inj ((Codec.fields_iff.2 hgs).symm.trans hf)
      rwa [heq] at h

/-! ## RoutableMessage -/

/-- Domain's DOMAIN_VEHICLE_SECURITY. -/
def domainVehicleSecurity : Nat := 2

/-- What of a UniversalMessage.RoutableMessage tells a request from a reply. -/
structure RoutableMessage where
  /-- from_destination's domain. -/
  fromDomain : Option Nat
  signatureData : Option Bytes
  /-- `GetProtobufMessageAsBytes()`. -/
  protobufMessageAsBytes : Bytes
  deriving DecidableEq, Repr

/-- `proto.Unmarshal`; no bytes are the empty message. -/
structure RoutableDecoder where
  unmarshal : Bytes → Option RoutableMessage
  empty : ∀ msg, unmarshal [] = some msg → msg.protobufMessageAsBytes = []

def RoutableDecoder.payload (D : RoutableDecoder) (datagram : Bytes) : Option Bytes :=
  (D.unmarshal datagram).map (·.protobufMessageAsBytes)

/-- Encrypted or authenticated, or from another domain. -/
def RoutableMessage.Foreign (msg : RoutableMessage) : Prop :=
  msg.signatureData ≠ none ∨ ∃ d, msg.fromDomain = some d ∧ d ≠ domainVehicleSecurity

theorem parseAuthenticationRequest_payload (W : Codec) (D : RoutableDecoder) {datagram : Bytes} {msg : RoutableMessage}
    (h : D.unmarshal datagram = some msg) (hp : msg.protobufMessageAsBytes ≠ []) :
    parseAuthenticationRequest ⟨D.payload, W⟩ datagram = parseAuthRequestFromFromVCSEC W msg.protobufMessageAsBytes := by
  have hne : datagram ≠ [] := fun he => hp (D.empty msg (he ▸ h))
  have hpay : D.payload datagram = some msg.protobufMessageAsBytes := by rw [RoutableDecoder.payload, h]; rfl
  rw [parseAuthenticationRequest, if_neg hne]
  simp only [hpay]
  cases hm : msg.protobufMessageAsBytes with
  | nil => exact absurd hm hp
  | cons b payload => rfl

/-- A foreign message is refused exactly where its payload does not read as a request. -/
theorem foreign_refused_iff (W : Codec) (D : RoutableDecoder) {datagram : Bytes} {msg : RoutableMessage}
    (h : D.unmarshal datagram = some msg) (hp : msg.protobufMessageAsBytes ≠ []) :
    (msg.Foreign → parseAuthenticationRequest ⟨D.payload, W⟩ datagram = none) ↔
      (msg.Foreign → ¬ReadsAsRequest msg.protobufMessageAsBytes) := by
  rw [parseAuthenticationRequest_payload W D h hp, ← reads_iff (W := W)]
  simp

/-! ## A reply that reads as a request -/

/-- The fields of a RoutableMessage that `RoutableMessage` names; the last of each counts. -/
def unmarshalFields (fs : List Field) : RoutableMessage :=
  fs.foldl
    (fun msg f =>
      match f with
      | ⟨7, .bytes dest⟩ =>
        match wire.fields dest with
        | some [⟨1, .varint d⟩] => { msg with fromDomain := some d }
        | _ => msg
      | ⟨10, .bytes payload⟩ => { msg with protobufMessageAsBytes := payload }
      | ⟨13, .bytes sig⟩ => { msg with signatureData := some sig }
      | _ => msg)
    { fromDomain := none, signatureData := none, protobufMessageAsBytes := [] }

def plainDecoder : RoutableDecoder where
  unmarshal b := (wire.fields b).map unmarshalFields
  empty := by
    intro msg h
    cases h
    rfl

/-- From infotainment, with signature data, and a payload that reads as UNLOCK. -/
def infotainmentReply : Bytes := [0x3A, 2, 8, 3, 0x6A, 0, 0x52, 4, 0x1A, 2, 0x18, 1]

def infotainmentMessage : RoutableMessage :=
  { fromDomain := some 3, signatureData := some [], protobufMessageAsBytes := [0x1A, 2, 0x18, 1] }

theorem foreign_refused_iff_reply :
    (infotainmentMessage.Foreign → parseAuthenticationRequest ⟨plainDecoder.payload, wire⟩ infotainmentReply = none) ↔
      (infotainmentMessage.Foreign → ¬ReadsAsRequest infotainmentMessage.protobufMessageAsBytes) :=
  foreign_refused_iff wire plainDecoder (by decide) (by decide)

theorem foreign_granted :
    plainDecoder.unmarshal infotainmentReply = some infotainmentMessage ∧ infotainmentMessage.Foreign ∧
      parseAuthenticationRequest ⟨plainDecoder.payload, wire⟩ infotainmentReply = some { requestedLevel := authLevelUnlock, token := [] } :=
  ⟨by decide, .inl (by decide), by decide⟩

end ElectricEel.Session
