/-
  ElectricEel.Session.Auth — the messages of passive entry (helper/session/auth.go).

  What reads and writes the bytes is not the helper's own: `Decoders` are the generated
  decoder of UniversalMessage.RoutableMessage and the functions of protowire. Go's int has
  64 bits on the device.

  Proved: a response carries the level it is made for (`responseLevel_encode`).
-/
import ElectricEel.Lib.WireGrammar

namespace ElectricEel.Session

open Lib.Protowire

def authLevelNone : Int := 0

def authLevelUnlock : Int := 1

def authLevelDrive : Int := 2

structure AuthenticationRequest where
  requestedLevel : Int
  token : Bytes
  deriving DecidableEq, Repr

structure Decoders where
  /-- None where it fails, else the message's payload. -/
  routable : Bytes → Option Bytes
  protowire : Codec

/-! ## Requests -/

section

variable (W : Codec)

def parseAuthRequestToken (b : Bytes) : Option Bytes := do
  let fs ← W.fields b
  pure (fs.foldl (fun token f => match f with | ⟨1, .bytes val⟩ => val | _ => token) [])

/-- `requestedLevel` is required. -/
def parseAuthRequestMessage (b : Bytes) : Option AuthenticationRequest := do
  let fs ← W.fields b
  let (level, token) ← fs.foldlM
    (fun (acc : Option Int × Bytes) f =>
      match f with
      | ⟨2, .bytes val⟩ => (parseAuthRequestToken W val).map fun token => (acc.1, token)
      | ⟨3, .varint v⟩ => some (some (Int.bmod v (2 ^ 64)), acc.2)
      | _ => some acc)
    (none, [])
  level.map fun requestedLevel => { requestedLevel, token }

/-- The last field 3 counts, and every one must parse. -/
def parseAuthRequestFromFromVCSEC (b : Bytes) : Option AuthenticationRequest := do
  let fs ← W.fields b
  let found ← fs.foldlM
    (fun (found : Option AuthenticationRequest) f =>
      match f with
      | ⟨3, .bytes val⟩ => (parseAuthRequestMessage W val).map some
      | _ => some found)
    none
  found

end

def parseAuthenticationRequest (D : Decoders) (datagram : Bytes) : Option AuthenticationRequest :=
  if datagram = [] then none
  else
    match D.routable datagram with
    | some (b :: payload) => parseAuthRequestFromFromVCSEC D.protowire (b :: payload)
    | _ => parseAuthRequestFromFromVCSEC D.protowire datagram

/-! ## Responses -/

def encodeAuthenticationResponse (W : Codec) (level : Int) : Bytes :=
  let authResp := W.appendTag [] 1 .varint
  let authResp := W.appendVarint authResp (level % 2 ^ 64).toNat
  let msg := W.appendTag [] 3 .bytes
  W.appendBytes msg authResp

/-- `sendAuthenticationResponse`: the payload it sends, if the level may be granted. -/
def responsePayload (W : Codec) (level : Int) : Option Bytes :=
  if level = authLevelUnlock ∨ level = authLevelDrive then some (encodeAuthenticationResponse W level) else none

/-- What the vehicle reads: UnsignedMessage's AuthenticationResponse and its level. -/
def responseLevel (payload : Bytes) : Option Int :=
  match wire.fields payload with
  | some [⟨3, .bytes authResp⟩] =>
    match wire.fields authResp with
    | some [⟨1, .varint v⟩] => some v
    | _ => none
  | _ => none

/-- A response is one field 3, in it one field 1 with the level's 64 bits. -/
theorem message_encodeAuthenticationResponse (W : Codec) (level : Int) :
    ∃ authResp, IsMessage [⟨3, .bytes authResp⟩] (encodeAuthenticationResponse W level) ∧
      IsMessage [⟨1, .varint (level % 2 ^ 64).toNat⟩] authResp := by
  have hlt : (level % 2 ^ 64).toNat < 2 ^ 64 := by omega
  generalize hv : (level % 2 ^ 64).toNat = v at hlt
  have hnum : ∀ {num : Nat}, 1 ≤ num → num ≤ 3 → 1 ≤ num ∧ num ≤ maxNumber := fun h1 h3 => ⟨h1, Nat.le_trans h3 (by decide)⟩
  have h1 := hnum (Nat.le_refl 1) (by decide)
  have h3 := hnum (by decide) (Nat.le_refl 3)
  have hinner : IsField ⟨1, .varint v⟩ (varintBytes 10 (1 * 8 + WireType.varint.code) ++ varintBytes 10 v) :=
    .varint (isTag_varintBytes h1 _) (isVarint_varintBytes hlt)
  have hlen : (varintBytes 10 (1 * 8 + WireType.varint.code) ++ varintBytes 10 v).length < 2 ^ 64 := by
    have htag := varintBytes_length 10 (1 * 8 + WireType.varint.code)
    have hlevel := varintBytes_length 10 v
    rw [List.length_append]
    omega
  refine ⟨_, ?_, .one hinner⟩
  rw [encodeAuthenticationResponse, hv, W.appendTag_eq [] h1, W.appendVarint_eq _ hlt, W.appendTag_eq [] h3, List.nil_append,
    List.nil_append, W.appendBytes_eq _ hlen, List.append_assoc]
  exact .one (.bytes (isTag_varintBytes h3 _) ⟨_, isVarint_varintBytes hlen, rfl⟩)

theorem responseLevel_encode (W : Codec) {level : Nat} (h : level < 2 ^ 64) :
    responseLevel (encodeAuthenticationResponse W level) = some (level : Int) := by
  have hmod : ((level : Int) % 2 ^ 64).toNat = level := by omega
  obtain ⟨authResp, houter, hinner⟩ := message_encodeAuthenticationResponse W level
  simp only [responseLevel, Codec.fields_iff.2 houter, Codec.fields_iff.2 hinner, hmod]

end ElectricEel.Session
