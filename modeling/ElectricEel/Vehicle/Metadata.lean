/-
  ElectricEel.Vehicle.Metadata — what the vehicle protocol authenticates
  (vehicle-command/internal/authentication: metadata.go, peer.go, native.go).

  Every tag of the protocol is computed over the bytes of a `Metadata`: the items added to
  it, a stop byte and a text. The metadata of a command (`extractMetadata`), of a response
  (`responseMetadata`) and of session info (`sessionInfoHmac`) are the three uses. Hash
  functions and AES-GCM are parameters.

  Proved: the conversion is injective, as metadata.go requires (`digested_inj`): the bytes
  of two uses, of one kind or of two, are equal iff they authenticate the same contents. So no tag of
  a response or of session info is ever one of a command, and the epoch, the counter, the
  expiry, the flags and the recipient of a command cannot be traded for each other.
-/
import ElectricEel.Lib.Tlv
import ElectricEel.Vehicle.Message

namespace ElectricEel.Vehicle

open Lib

/-! ## Metadata -/

abbrev Tag := UInt8

namespace Tag

def signatureType : Tag := 0

def domain : Tag := 1

def personalization : Tag := 2

def epoch : Tag := 3

def expiresAt : Tag := 4

def counter : Tag := 5

def challenge : Tag := 6

def flags : Tag := 7

def requestHash : Tag := 8

def fault : Tag := 9

def stop : Tag := 255

end Tag

/-- `context`: what was written to the hash. -/
structure Metadata where
  context : Bytes
  last : Tag
  deriving DecidableEq, Repr

namespace Metadata

def new : Metadata := { context := [], last := 0 }

def add (m : Metadata) (tag : Tag) (value : Option Bytes) : Metadata × Option MetadataError :=
  if tag < m.last then (m, some .outOfOrder)
  else
    match value with
    | none => (m, none)
    | some value =>
      if 255 < value.length then (m, some .fieldTooLong)
      else ({ context := m.context ++ [tag] ++ [UInt8.ofNat value.length] ++ value, last := tag }, none)

def addUint32 (m : Metadata) (tag : Tag) (value : UInt32) : Metadata × Option MetadataError :=
  m.add tag (some (Tlv.bigEndian value))

/-- The bytes `Checksum` hashes. -/
def checksum (m : Metadata) (message : Bytes) : Bytes := m.context ++ [Tag.stop] ++ message

end Metadata

/-! ## Sessions -/

/-- The standard library's primitives. `gcmSeal` returns the ciphertext and then its tag. -/
structure Primitives where
  sha256 : Bytes → Bytes
  hmacSha256 : (key text : Bytes) → Bytes
  gcmSeal : (key nonce plaintext associatedData : Bytes) → Bytes
  gcmOpen : (key nonce ctAndTag associatedData : Bytes) → Option Bytes

structure Session where
  key : Bytes
  localPublic : Bytes
  deriving DecidableEq, Repr

def labelSessionInfo : Bytes := "session info".toUTF8.toList

def labelMessageAuth : Bytes := "authenticated command".toUTF8.toList

/-- The buffer after `rand.Read`, and its error. -/
structure RandomRead where
  buffer : Bytes
  err : Option String
  deriving DecidableEq, Repr

namespace Session

variable (P : Primitives) (s : Session)

def subkey (label : Bytes) : Bytes := P.hmacSha256 s.key label

def newHmac (label text : Bytes) : Bytes := P.hmacSha256 (s.subkey P label) text

/-- `nonce`: the random bytes read. -/
def encrypt (nonce plaintext associatedData : Bytes) : Bytes × Bytes × Bytes :=
  let ciphertext := P.gcmSeal s.key nonce plaintext associatedData
  (nonce, ciphertext.take plaintext.length, ciphertext.drop plaintext.length)

def decrypt (nonce ciphertext associatedData tag : Bytes) : Option Bytes :=
  P.gcmOpen s.key nonce (ciphertext ++ tag) associatedData

end Session

def sessionInfoMetadata (id challenge : Option Bytes) : Except MetadataError Metadata :=
  match Metadata.new.add Tag.signatureType (some [SignatureType.hmac]) with
  | (_, some e) => .error e
  | (m, none) =>
    match m.add Tag.personalization id with
    | (_, some e) => .error e
    | (m, none) =>
      match m.add Tag.challenge challenge with
      | (_, some e) => .error e
      | (m, none) => .ok m

def Session.sessionInfoHmac (P : Primitives) (s : Session) (id challenge : Option Bytes) (encodedInfo : Bytes) :
    Except MetadataError Bytes :=
  (sessionInfoMetadata id challenge).map fun m => s.newHmac P labelSessionInfo (m.checksum encodedInfo)

/-! ## Time -/

/-- The two readings of a Go time, in nanoseconds: since 1970, and of the monotonic clock. -/
structure Instant where
  wall : Int
  monotonic : Int
  deriving DecidableEq, Repr

def second : Int := 10 ^ 9

def Instant.add (t : Instant) (d : Int) : Instant := { wall := t.wall + d, monotonic := t.monotonic + d }

/-- `Sub` saturates at the ends of an int64. -/
def Instant.sub (t u : Instant) : Int := max (-2 ^ 63) (min (2 ^ 63 - 1) (t.monotonic - u.monotonic))

/-- The conversion of a duration in whole seconds to uint32. -/
def seconds (d : Int) : UInt32 := UInt32.ofNat (d.tdiv second % 2 ^ 32).toNat

/-! ## Peers -/

def epochIdLength : Nat := 16

abbrev EpochId := { b : Bytes // b.length = epochIdLength }

def EpochId.zero : EpochId := ⟨List.replicate epochIdLength 0, List.length_replicate⟩

/-- Go's `copy` into the array. -/
def EpochId.copy (e : EpochId) (b : Bytes) : EpochId :=
  ⟨b.take epochIdLength ++ e.1.drop b.length, by
    have he : e.1.length = 16 := e.2
    simp only [List.length_append, List.length_take, List.length_drop, epochIdLength, he]
    omega⟩

/-- The constructors refuse names that no length byte can say. -/
structure Peer where
  domain : Domain
  verifierName : Option Bytes
  counter : UInt32
  epoch : EpochId
  timeZero : Instant
  session : Session
  nameLe : ∀ name ∈ verifierName, name.length ≤ 255
  deriving DecidableEq

def Peer.timestamp (p : Peer) (now : Instant) : UInt32 := seconds (now.sub p.timeZero)

/-- In seconds. -/
def epochLength : Nat := 2 ^ 30

structure SigInfo where
  counter : UInt32
  epoch : Option Bytes
  expiresAt : UInt32
  deriving DecidableEq, Repr

def AesGcmPersonalizedSignatureData.info (d : AesGcmPersonalizedSignatureData) : SigInfo :=
  { counter := d.counter, epoch := d.epoch, expiresAt := d.expiresAt }

def HmacPersonalizedSignatureData.info (d : HmacPersonalizedSignatureData) : SigInfo :=
  { counter := d.counter, epoch := d.epoch, expiresAt := d.expiresAt }

def byte (d : Domain) : UInt8 := UInt8.ofNat (d % 256).toNat

def extractMetadata (p : Peer) (m : Metadata) (message : RoutableMessage) (info : SigInfo) (method : SignatureType) :
    Except AuthError Metadata :=
  let m := (m.add Tag.signatureType (some [method])).1
  match message.toDestination.bind (·.subDestination) with
  | some (.domain d) =>
    if 0 > d ∨ d > 255 then .error (.fault MessageFault.invalidDomains "domain out of range")
    else
      let m := (m.add Tag.domain (some [byte d])).1
      match m.add Tag.personalization p.verifierName with
      | (_, some _) => .error (.fault MessageFault.wrongPersonalization "recipient name too long")
      | (m, none) =>
        if epochLength < info.expiresAt.toNat then
          .error (.fault MessageFault.badParameter "out of bounds expiration time")
        else
          let m := (m.add Tag.epoch (some p.epoch.1)).1
          let m := (m.addUint32 Tag.expiresAt info.expiresAt).1
          let m := (m.addUint32 Tag.counter info.counter).1
          .ok (if message.flags > 0 then (m.addUint32 Tag.flags message.flags).1 else m)
  | _ => .error (.fault MessageFault.invalidDomains "domain missing")

def Peer.hmacTag (P : Primitives) (p : Peer) (message : RoutableMessage) (data : HmacPersonalizedSignatureData) :
    Except AuthError Bytes :=
  (extractMetadata p .new message data.info SignatureType.hmacPersonalized).map fun m =>
    p.session.newHmac P labelMessageAuth (m.checksum message.getProtobufMessageAsBytes)

/-- The tags have 16 or 32 bytes, so the slice is in range. -/
def requestId (message : RoutableMessage) : Option Bytes :=
  match message.sigType with
  | some (.aesGcmPersonalizedData data) => some (SignatureType.aesGcmPersonalized :: data.tag)
  | some (.hmacPersonalizedData data) =>
    let tag := if Destination.getDomain message.toDestination = domainVehicleSecurity then data.tag.take 16 else data.tag
    some (SignatureType.hmacPersonalized :: tag)
  | _ => none

def responseMetadata (p : Peer) (message : RoutableMessage) (id : Option Bytes) (counter : UInt32) :
    Except MetadataError Metadata :=
  let m := (Metadata.new.add Tag.signatureType (some [SignatureType.aesGcmResponse])).1
  let m := (m.add Tag.domain (some [byte (Destination.getDomain message.fromDestination)])).1
  match m.add Tag.personalization p.verifierName with
  | (_, some e) => .error e
  | (m, none) =>
    let m := (m.addUint32 Tag.counter counter).1
    let m := (m.addUint32 Tag.flags message.flags).1
    let m := (m.add Tag.requestHash id).1
    .ok (m.addUint32 Tag.fault (UInt32.ofNat (message.signedMessageFault % 2 ^ 32).toNat)).1

/-! ## What the bytes say -/

/-- The item that `add` writes, if any. -/
def item (tag : Tag) (value : Option Bytes) : List Tlv.Item := (value.map fun v => ⟨tag, v⟩).toList

@[simp] theorem item_some (tag : Tag) (v : Bytes) : item tag (some v) = [⟨tag, v⟩] := rfl

@[simp] theorem item_none (tag : Tag) : item tag none = [] := rfl

/-- Flags are an item only where one is set. -/
def flagItems (flags : UInt32) : List Tlv.Item := if flags > 0 then [⟨Tag.flags, Tlv.bigEndian flags⟩] else []

/-- One of the three computations of authenticated bytes, with its arguments. -/
inductive Digested where
  | command (p : Peer) (message : RoutableMessage) (info : SigInfo) (method : SignatureType) (text : Bytes)
  | response (p : Peer) (message : RoutableMessage) (id : Option Bytes) (counter : UInt32)
  | sessionInfo (id challenge : Option Bytes) (encodedInfo : Bytes)

def Digested.bytes : Digested → Option Bytes
  | .command p message info method text => (extractMetadata p .new message info method).toOption.map (·.checksum text)
  | .response p message id counter => (responseMetadata p message id counter).toOption.map (·.checksum [])
  | .sessionInfo id challenge encodedInfo => (sessionInfoMetadata id challenge).toOption.map (·.checksum encodedInfo)

/-- What a tag over those bytes vouches for. -/
inductive Contents where
  | command (method : SignatureType) (domain : Domain) (name : Option Bytes) (epoch : EpochId)
      (expiresAt counter flags : UInt32) (text : Bytes)
  | response (domain : UInt8) (name : Option Bytes) (counter flags : UInt32) (id : Option Bytes) (fault : UInt32)
  | sessionInfo (name challenge : Option Bytes) (encodedInfo : Bytes)
  deriving DecidableEq

/-- A response hash that no length byte can say is left out. -/
def fitting (id : Option Bytes) : Option Bytes := id.filter fun id => id.length ≤ 255

def Digested.contents : Digested → Contents
  | .command p message info method text =>
    .command method (Destination.getDomain message.toDestination) p.verifierName p.epoch info.expiresAt info.counter message.flags text
  | .response p message id counter =>
    .response (byte (Destination.getDomain message.fromDestination)) p.verifierName counter message.flags (fitting id)
      (UInt32.ofNat (message.signedMessageFault % 2 ^ 32).toNat)
  | .sessionInfo id challenge encodedInfo => .sessionInfo id challenge encodedInfo

namespace Contents

def items : Contents → List Tlv.Item
  | .command method domain name epoch expiresAt counter flags _ =>
    [⟨Tag.signatureType, [method]⟩, ⟨Tag.domain, [byte domain]⟩] ++ item Tag.personalization name ++
      [⟨Tag.epoch, epoch.1⟩, ⟨Tag.expiresAt, Tlv.bigEndian expiresAt⟩, ⟨Tag.counter, Tlv.bigEndian counter⟩] ++
      flagItems flags
  | .response domain name counter flags id fault =>
    [⟨Tag.signatureType, [SignatureType.aesGcmResponse]⟩, ⟨Tag.domain, [domain]⟩] ++ item Tag.personalization name ++
      [⟨Tag.counter, Tlv.bigEndian counter⟩, ⟨Tag.flags, Tlv.bigEndian flags⟩] ++ item Tag.requestHash id ++
      [⟨Tag.fault, Tlv.bigEndian fault⟩]
  | .sessionInfo name challenge _ =>
    [⟨Tag.signatureType, [SignatureType.hmac]⟩] ++ item Tag.personalization name ++ item Tag.challenge challenge

def text : Contents → Bytes
  | .command _ _ _ _ _ _ _ text => text
  | .response .. => []
  | .sessionInfo _ _ encodedInfo => encodedInfo

/-- The sizes that the code checks. -/
def Fits : Contents → Prop
  | .command _ domain name _ _ _ _ _ => 0 ≤ domain ∧ domain ≤ 255 ∧ ∀ n ∈ name, n.length ≤ 255
  | .response _ name _ _ id _ => (∀ n ∈ name, n.length ≤ 255) ∧ ∀ i ∈ id, i.length ≤ 255
  | .sessionInfo name challenge _ => (∀ n ∈ name, n.length ≤ 255) ∧ ∀ c ∈ challenge, c.length ≤ 255

end Contents

/-! ## The metadata holds its items -/

namespace Metadata

theorem add_fits {m : Metadata} {tag : Tag} {value : Option Bytes} (hlast : ¬tag < m.last) (hlen : ∀ v ∈ value, v.length ≤ 255) :
    m.add tag value =
      ({ context := m.context ++ Tlv.encode (item tag value), last := if value.isSome then tag else m.last }, none) := by
  cases value with
  | none => simp [add, hlast]
  | some v =>
    have hv : ¬255 < v.length := by
      have := hlen v rfl
      omega
    simp [add, hlast, hv, Tlv.Item.encode]

theorem add_long {m : Metadata} {tag : Tag} {v : Bytes} (hlast : ¬tag < m.last) (hlen : ¬v.length ≤ 255) :
    m.add tag (some v) = (m, some .fieldTooLong) := by
  have hv : 255 < v.length := by omega
  simp [add, hlast, hv]

/-- The items written so far, none of a tag above `top`. -/
structure Holds (m : Metadata) (items : List Tlv.Item) (top : Tag) : Prop where
  context : m.context = Tlv.encode items
  last : m.last ≤ top

theorem Holds.new : Metadata.new.Holds [] 0 := ⟨rfl, by decide⟩

theorem Holds.add {m : Metadata} {items : List Tlv.Item} {top : Tag} (h : m.Holds items top) {tag : Tag} (htop : top ≤ tag)
    {value : Option Bytes} (hlen : ∀ v ∈ value, v.length ≤ 255) :
    (m.add tag value).1.Holds (items ++ item tag value) tag ∧ (m.add tag value).2 = none := by
  have hlast : ¬tag < m.last := UInt8.not_lt.2 (UInt8.le_trans h.last htop)
  rw [add_fits hlast hlen]
  refine ⟨⟨by rw [h.context, Tlv.encode_append], ?_⟩, rfl⟩
  dsimp only
  split
  · exact UInt8.le_refl _
  · exact UInt8.le_trans h.last htop

theorem Holds.add_word {m : Metadata} {items : List Tlv.Item} {top : Tag} (h : m.Holds items top) {tag : Tag} (htop : top ≤ tag)
    (n : UInt32) : (m.addUint32 tag n).1.Holds (items ++ item tag (some (Tlv.bigEndian n))) tag :=
  (h.add htop fun v hv => by cases hv; exact Nat.le_of_ble_eq_true rfl).1

theorem Holds.add_short {m : Metadata} {items : List Tlv.Item} {top : Tag} (h : m.Holds items top) {tag : Tag} (htop : top ≤ tag)
    {v : Bytes} (hlen : v.length ≤ 255) : (m.add tag (some v)).1.Holds (items ++ item tag (some v)) tag :=
  (h.add htop fun w hw => by cases hw; exact hlen).1

theorem Holds.add_fitting {m : Metadata} {items : List Tlv.Item} {top : Tag} (h : m.Holds items top) {tag : Tag}
    (htop : top ≤ tag) (v : Option Bytes) : (m.add tag v).1.Holds (items ++ item tag (fitting v)) tag := by
  cases v with
  | none => exact (h.add htop fun w hw => by cases hw).1
  | some v =>
    by_cases hv : v.length ≤ 255
    · have hf : fitting (some v) = some v := by simp [fitting, Option.filter, hv]
      rw [hf]
      exact h.add_short htop hv
    · have hlast : ¬tag < m.last := UInt8.not_lt.2 (UInt8.le_trans h.last htop)
      have hf : fitting (some v) = none := by simp [fitting, Option.filter, hv]
      rw [add_long hlast hv, hf, item_none, List.append_nil]
      exact ⟨h.context, UInt8.le_trans h.last htop⟩

theorem fits_of_add {m m' : Metadata} {tag : Tag} {value : Option Bytes} (h : m.add tag value = (m', none)) :
    ∀ v ∈ value, v.length ≤ 255 := by
  intro v hv
  cases hv
  unfold add at h
  split at h
  · cases h
  · dsimp only at h
    split at h
    · cases h
    · omega

end Metadata

theorem extractMetadata_ok {p : Peer} {message : RoutableMessage} {info : SigInfo} {method : SignatureType} {m : Metadata}
    (h : extractMetadata p .new message info method = .ok m) (text : Bytes) :
    m.context = Tlv.encode (Digested.command p message info method text).contents.items ∧
      (Digested.command p message info method text).contents.Fits := by
  have h1 := Metadata.Holds.new.add_short (by decide : 0 ≤ Tag.signatureType) (v := [method]) (by simp)
  unfold extractMetadata at h
  dsimp only at h
  split at h
  case h_2 => cases h
  rename_i d hd
  have hdom : Destination.getDomain message.toDestination = d := by simp only [Destination.getDomain, hd]
  have h2 := h1.add_short (by decide : Tag.signatureType ≤ Tag.domain) (v := [byte d]) (by simp)
  have h3 := h2.add (by decide : Tag.domain ≤ Tag.personalization) p.nameLe
  split at h
  · cases h
  rename_i hrange
  split at h
  · cases h
  rename_i m3 hadd
  rw [hadd] at h3
  split at h
  · cases h
  have h4 := h3.1.add_short (by decide : Tag.personalization ≤ Tag.epoch) (v := p.epoch.1) (by rw [p.epoch.2]; decide)
  have h6 := (h4.add_word (by decide : Tag.epoch ≤ Tag.expiresAt) info.expiresAt).add_word
    (by decide : Tag.expiresAt ≤ Tag.counter) info.counter
  have h7 := h6.add_word (by decide : Tag.counter ≤ Tag.flags) message.flags
  cases h
  refine ⟨?_, ?_⟩
  · simp only [Digested.contents, Contents.items, flagItems, hdom]
    split
    · simpa using h7.context
    · simpa using h6.context
  · simp only [Digested.contents, Contents.Fits, hdom]
    exact ⟨Int.not_lt.1 fun hlt => hrange (Or.inl hlt), Int.not_lt.1 fun hlt => hrange (Or.inr hlt), p.nameLe⟩

theorem responseMetadata_ok {p : Peer} {message : RoutableMessage} {id : Option Bytes} {counter : UInt32} {m : Metadata}
    (h : responseMetadata p message id counter = .ok m) :
    m.context = Tlv.encode (Digested.response p message id counter).contents.items ∧
      (Digested.response p message id counter).contents.Fits := by
  have h2 := (Metadata.Holds.new.add_short (by decide : 0 ≤ Tag.signatureType) (v := [SignatureType.aesGcmResponse]) (by simp)).add_short
    (by decide : Tag.signatureType ≤ Tag.domain) (v := [byte (Destination.getDomain message.fromDestination)]) (by simp)
  have h3 := h2.add (by decide : Tag.domain ≤ Tag.personalization) p.nameLe
  unfold responseMetadata at h
  dsimp only at h
  split at h
  · cases h
  rename_i m3 hadd
  rw [hadd] at h3
  have h5 := (h3.1.add_word (by decide : Tag.personalization ≤ Tag.counter) counter).add_word
    (by decide : Tag.counter ≤ Tag.flags) message.flags
  have h6 := h5.add_fitting (by decide : Tag.flags ≤ Tag.requestHash) id
  have h7 := h6.add_word (by decide : Tag.requestHash ≤ Tag.fault) (UInt32.ofNat (message.signedMessageFault % 2 ^ 32).toNat)
  cases h
  refine ⟨?_, p.nameLe, fun i hi => ?_⟩
  · simpa [Digested.contents, Contents.items] using h7.context
  · simpa using (Option.mem_filter_iff.1 hi).2

theorem sessionInfoMetadata_ok {id challenge : Option Bytes} {m : Metadata} (h : sessionInfoMetadata id challenge = .ok m)
    (encodedInfo : Bytes) :
    m.context = Tlv.encode (Digested.sessionInfo id challenge encodedInfo).contents.items ∧
      (Digested.sessionInfo id challenge encodedInfo).contents.Fits := by
  have h1 := Metadata.Holds.new.add_short (by decide : 0 ≤ Tag.signatureType) (v := [SignatureType.hmac]) (by simp)
  unfold sessionInfoMetadata at h
  split at h
  · cases h
  rename_i m1 hadd1
  rw [hadd1] at h1
  split at h
  · cases h
  rename_i m2 hadd2
  split at h
  · cases h
  rename_i m3 hadd3
  cases h
  have hid := Metadata.fits_of_add hadd2
  have hch := Metadata.fits_of_add hadd3
  have h2 := (h1.add (by decide : Tag.signatureType ≤ Tag.personalization) hid).1
  rw [hadd2] at h2
  have h3 := (h2.add (by decide : Tag.personalization ≤ Tag.challenge) hch).1
  rw [hadd3] at h3
  refine ⟨?_, hid, hch⟩
  simpa [Digested.contents, Contents.items] using h3.context

namespace Contents

theorem mem_flagItems {flags : UInt32} {i : Tlv.Item} (h : i ∈ flagItems flags) : i = ⟨Tag.flags, Tlv.bigEndian flags⟩ := by
  unfold flagItems at h
  split at h
  · exact List.mem_singleton.1 h
  · cases h

theorem items_readable {c : Contents} (h : c.Fits) : ∀ i ∈ c.items, i.Readable Tag.stop := by
  have hitem : ∀ {tag : Tag} {v : Option Bytes}, tag ≠ Tag.stop → (∀ b ∈ v, b.length ≤ 255) → ∀ i ∈ item tag v, i.Readable Tag.stop := by
    intro tag v ht hv i hi
    cases v with
    | none => cases hi
    | some b =>
      rw [item_some, List.mem_singleton] at hi
      subst hi
      exact ⟨ht, hv b rfl⟩
  have hword : ∀ {tag : Tag} (n : UInt32), tag ≠ Tag.stop → (Tlv.Item.mk tag (Tlv.bigEndian n)).Readable Tag.stop :=
    fun n ht => ⟨ht, by simp⟩
  have hbyte : ∀ {tag : Tag} (b : UInt8), tag ≠ Tag.stop → (Tlv.Item.mk tag [b]).Readable Tag.stop := fun b ht => ⟨ht, by simp⟩
  cases c with
  | command method domain name epoch expiresAt counter flags text =>
    have hepoch : (Tlv.Item.mk Tag.epoch epoch.1).Readable Tag.stop := ⟨(by decide : Tag.epoch ≠ Tag.stop), by rw [epoch.2]; decide⟩
    intro i hi
    simp only [items, List.mem_append, List.mem_cons, List.not_mem_nil, or_false] at hi
    rcases hi with (((rfl | rfl) | hi) | rfl | rfl | rfl) | hi
    · exact hbyte _ (by decide)
    · exact hbyte _ (by decide)
    · exact hitem (by decide) h.2.2 i hi
    · exact hepoch
    · exact hword _ (by decide)
    · exact hword _ (by decide)
    · rw [mem_flagItems hi]
      exact hword _ (by decide)
  | response domain name counter flags id fault =>
    intro i hi
    simp only [items, List.mem_append, List.mem_cons, List.not_mem_nil, or_false] at hi
    rcases hi with ((((rfl | rfl) | hi) | rfl | rfl) | hi) | rfl
    · exact hbyte _ (by decide)
    · exact hbyte _ (by decide)
    · exact hitem (by decide) h.1 i hi
    · exact hword _ (by decide)
    · exact hword _ (by decide)
    · exact hitem (by decide) h.2 i hi
    · exact hword _ (by decide)
  | sessionInfo name challenge encodedInfo =>
    intro i hi
    simp only [items, List.mem_append, List.mem_cons, List.not_mem_nil, or_false] at hi
    rcases hi with (rfl | hi) | hi
    · exact hbyte _ (by decide)
    · exact hitem (by decide) h.1 i hi
    · exact hitem (by decide) h.2 i hi

theorem item_append_inj {tag : Tag} {v v' : Option Bytes} {is is' : List Tlv.Item} (hi : ∀ i ∈ is, i.tag ≠ tag)
    (hi' : ∀ i ∈ is', i.tag ≠ tag) (h : item tag v ++ is = item tag v' ++ is') : v = v' ∧ is = is' := by
  cases v with
  | none =>
    cases v' with
    | none => exact ⟨rfl, h⟩
    | some b =>
      simp only [item_none, List.nil_append, item_some, List.cons_append] at h
      exact absurd rfl (hi ⟨tag, b⟩ (by rw [h]; exact List.mem_cons_self))
  | some a =>
    cases v' with
    | none =>
      simp only [item_none, List.nil_append, item_some, List.cons_append] at h
      exact absurd rfl (hi' ⟨tag, a⟩ (by rw [← h]; exact List.mem_cons_self))
    | some b =>
      simp only [item_some, List.cons_append, List.nil_append, List.cons.injEq, Tlv.Item.mk.injEq, true_and] at h
      exact ⟨congrArg some h.1, h.2⟩

theorem byte_inj {d d' : Int} (h : 0 ≤ d ∧ d ≤ 255) (h' : 0 ≤ d' ∧ d' ≤ 255) (he : byte d = byte d') : d = d' := by
  have hn := congrArg UInt8.toNat he
  simp only [byte, UInt8.toNat_ofNat'] at hn
  omega

theorem tag_of_mem_item {tag : Tag} {v : Option Bytes} {i : Tlv.Item} (h : i ∈ item tag v) : i.tag = tag := by
  cases v with
  | none => cases h
  | some b =>
    rw [item_some, List.mem_singleton] at h
    rw [h]

theorem flagItems_inj {f f' : UInt32} (h : flagItems f = flagItems f') : f = f' := by
  have hzero : ∀ {f : UInt32}, ¬f > 0 → f = 0 := fun h => UInt32.le_antisymm (UInt32.not_lt.1 h) UInt32.zero_le
  unfold flagItems at h
  split at h
  · split at h
    · simp only [List.cons.injEq, Tlv.Item.mk.injEq, true_and, and_true] at h
      exact Tlv.bigEndian_inj h
    · cases h
  · split at h
    · cases h
    · rename_i hf hf'
      rw [hzero hf, hzero hf']

theorem command_ne_sessionInfo {method domain name epoch expiresAt counter flags text name' challenge encodedInfo} :
    (Contents.command method domain name epoch expiresAt counter flags text).items ≠
      (Contents.sessionInfo name' challenge encodedInfo).items := by
  intro h
  have hm : (Tlv.Item.mk Tag.domain [byte domain]) ∈ (Contents.sessionInfo name' challenge encodedInfo).items := by
    rw [← h]
    simp [items]
  simp only [items, List.mem_append, List.mem_singleton, Tlv.Item.mk.injEq] at hm
  rcases hm with (⟨ht, -⟩ | hm) | hm
  · exact absurd ht (by decide)
  · exact absurd (tag_of_mem_item hm) (by decide : Tag.domain ≠ Tag.personalization)
  · exact absurd (tag_of_mem_item hm) (by decide : Tag.domain ≠ Tag.challenge)

theorem command_ne_response {method domain name epoch expiresAt counter flags text domain' name' counter' flags' id fault} :
    (Contents.command method domain name epoch expiresAt counter flags text).items ≠
      (Contents.response domain' name' counter' flags' id fault).items := by
  intro h
  have hm : (Tlv.Item.mk Tag.epoch epoch.1) ∈ (Contents.response domain' name' counter' flags' id fault).items := by
    rw [← h]
    simp [items]
  have htag : ∀ i ∈ (Contents.response domain' name' counter' flags' id fault).items, i.tag ≠ Tag.epoch := by
    intro i hi
    simp only [items, List.mem_append, List.mem_cons, List.not_mem_nil, or_false] at hi
    rcases hi with ((((rfl | rfl) | hi) | rfl | rfl) | hi) | rfl
    all_goals first
      | exact (by decide : Tag.signatureType ≠ Tag.epoch)
      | exact (by decide : Tag.domain ≠ Tag.epoch)
      | exact (by decide : Tag.counter ≠ Tag.epoch)
      | exact (by decide : Tag.flags ≠ Tag.epoch)
      | exact (by decide : Tag.fault ≠ Tag.epoch)
      | rw [tag_of_mem_item hi]; decide
  exact htag _ hm rfl

theorem response_ne_sessionInfo {domain name counter flags id fault name' challenge encodedInfo} :
    (Contents.response domain name counter flags id fault).items ≠ (Contents.sessionInfo name' challenge encodedInfo).items := by
  intro h
  have hv : [SignatureType.aesGcmResponse] = [SignatureType.hmac] := by
    simp only [items, List.cons_append, List.nil_append, List.append_assoc, List.cons.injEq, Tlv.Item.mk.injEq, true_and] at h
    exact congrArg (fun x => [x]) h.1.1
  exact absurd hv (by decide)

theorem commandRest_tag (e : EpochId) (x c f : UInt32) :
    ∀ i ∈ (⟨Tag.epoch, e.1⟩ :: ⟨Tag.expiresAt, Tlv.bigEndian x⟩ :: ⟨Tag.counter, Tlv.bigEndian c⟩ :: flagItems f : List Tlv.Item),
      i.tag ≠ Tag.personalization := by
  intro i hi
  simp only [List.mem_cons] at hi
  rcases hi with rfl | rfl | rfl | hi
  · exact (by decide : Tag.epoch ≠ Tag.personalization)
  · exact (by decide : Tag.expiresAt ≠ Tag.personalization)
  · exact (by decide : Tag.counter ≠ Tag.personalization)
  · rw [mem_flagItems hi]
    exact (by decide : Tag.flags ≠ Tag.personalization)

theorem responseRest_tag (c f x : UInt32) (id : Option Bytes) :
    ∀ i ∈ (⟨Tag.counter, Tlv.bigEndian c⟩ :: ⟨Tag.flags, Tlv.bigEndian f⟩ :: (item Tag.requestHash id ++
      [⟨Tag.fault, Tlv.bigEndian x⟩]) : List Tlv.Item), i.tag ≠ Tag.personalization := by
  intro i hi
  simp only [List.mem_cons, List.mem_append, List.not_mem_nil, or_false] at hi
  rcases hi with rfl | rfl | hi | rfl
  · exact (by decide : Tag.counter ≠ Tag.personalization)
  · exact (by decide : Tag.flags ≠ Tag.personalization)
  · rw [tag_of_mem_item hi]
    decide
  · exact (by decide : Tag.fault ≠ Tag.personalization)

/-- Two contents that fit and have the same items and text are the same. -/
theorem eq_of_items {c c' : Contents} (h : c.Fits) (h' : c'.Fits) (hi : c.items = c'.items) (ht : c.text = c'.text) : c = c' := by
  cases c with
  | command method domain name epoch expiresAt counter flags text =>
    cases c' with
    | command method' domain' name' epoch' expiresAt' counter' flags' text' =>
      simp only [items, List.cons_append, List.nil_append, List.append_assoc, List.cons.injEq, Tlv.Item.mk.injEq, true_and,
        and_true] at hi
      obtain ⟨rfl, hd, hrest⟩ := hi
      obtain ⟨hname, htail⟩ := item_append_inj (commandRest_tag _ _ _ _) (commandRest_tag _ _ _ _) hrest
      simp only [List.cons.injEq, Tlv.Item.mk.injEq, true_and] at htail
      obtain ⟨he, hx, hc, hfl⟩ := htail
      subst hname
      obtain rfl := byte_inj ⟨h.1, h.2.1⟩ ⟨h'.1, h'.2.1⟩ hd
      obtain rfl := Subtype.ext he
      obtain rfl := Tlv.bigEndian_inj hx
      obtain rfl := Tlv.bigEndian_inj hc
      obtain rfl := flagItems_inj hfl
      obtain rfl : text = text' := ht
      rfl
    | response => exact absurd hi command_ne_response
    | sessionInfo => exact absurd hi command_ne_sessionInfo
  | response domain name counter flags id fault =>
    cases c' with
    | command => exact absurd hi.symm command_ne_response
    | response domain' name' counter' flags' id' fault' =>
      simp only [items, List.cons_append, List.nil_append, List.append_assoc, List.cons.injEq, Tlv.Item.mk.injEq, true_and,
        and_true] at hi
      obtain ⟨rfl, hrest⟩ := hi
      obtain ⟨hname, htail⟩ := item_append_inj (responseRest_tag _ _ _ _) (responseRest_tag _ _ _ _) hrest
      simp only [List.cons.injEq, Tlv.Item.mk.injEq, true_and] at htail
      obtain ⟨hc, hfl, htail⟩ := htail
      subst hname
      have hfault : ∀ {f : UInt32}, ∀ i ∈ [Tlv.Item.mk Tag.fault (Tlv.bigEndian f)], i.tag ≠ Tag.requestHash := by
        intro f i hi
        rw [List.mem_singleton.1 hi]
        exact (by decide : Tag.fault ≠ Tag.requestHash)
      obtain ⟨hid, hft⟩ := item_append_inj hfault hfault htail
      simp only [List.cons.injEq, Tlv.Item.mk.injEq, true_and, and_true] at hft
      obtain rfl := Tlv.bigEndian_inj hc
      obtain rfl := Tlv.bigEndian_inj hfl
      obtain rfl := Tlv.bigEndian_inj hft
      rw [hid]
    | sessionInfo => exact absurd hi response_ne_sessionInfo
  | sessionInfo name challenge encodedInfo =>
    cases c' with
    | command => exact absurd hi.symm command_ne_sessionInfo
    | response => exact absurd hi.symm response_ne_sessionInfo
    | sessionInfo name' challenge' encodedInfo' =>
      simp only [items, List.append_assoc] at hi
      have hch : ∀ {c : Option Bytes}, ∀ i ∈ item Tag.challenge c, i.tag ≠ Tag.personalization := by
        intro c i hi
        rw [tag_of_mem_item hi]
        decide
      obtain ⟨rfl, hrest⟩ := item_append_inj hch hch (List.append_cancel_left hi)
      have hnil : ∀ i ∈ ([] : List Tlv.Item), i.tag ≠ Tag.challenge := fun i hi => by cases hi
      rw [← List.append_nil (item Tag.challenge challenge), ← List.append_nil (item Tag.challenge challenge')] at hrest
      obtain ⟨rfl, -⟩ := item_append_inj hnil hnil hrest
      obtain rfl : encodedInfo = encodedInfo' := ht
      rfl

end Contents

/-! ## Injectivity -/

theorem checksum_ok {ε : Type} {r : Except ε Metadata} {text x : Bytes} (h : r.toOption.map (·.checksum text) = some x) :
    ∃ m, r = .ok m ∧ x = m.context ++ Tag.stop :: text := by
  cases r with
  | error e => cases h
  | ok m =>
    refine ⟨m, rfl, ?_⟩
    simp only [Except.toOption, Option.map_some, Option.some.injEq] at h
    rw [← h, Metadata.checksum, List.append_assoc, List.singleton_append]

theorem Digested.bytes_contents {d : Digested} {x : Bytes} (h : d.bytes = some x) :
    d.contents.Fits ∧ x = Tlv.encode d.contents.items ++ Tag.stop :: d.contents.text := by
  cases d with
  | command p message info method text =>
    obtain ⟨m, hm, hx⟩ := checksum_ok h
    obtain ⟨hc, hf⟩ := extractMetadata_ok hm text
    exact ⟨hf, by rw [hx, hc, Digested.contents, Contents.text]⟩
  | response p message id counter =>
    obtain ⟨m, hm, hx⟩ := checksum_ok h
    obtain ⟨hc, hf⟩ := responseMetadata_ok hm
    exact ⟨hf, by rw [hx, hc, Digested.contents, Contents.text]⟩
  | sessionInfo id challenge encodedInfo =>
    obtain ⟨m, hm, hx⟩ := checksum_ok h
    obtain ⟨hc, hf⟩ := sessionInfoMetadata_ok hm encodedInfo
    exact ⟨hf, by rw [hx, hc, Digested.contents, Contents.text]⟩

/-- Two computations of authenticated bytes, of one kind or of two, give the same bytes iff they
    vouch for the same contents. -/
theorem digested_inj {a b : Digested} {x y : Bytes} (ha : a.bytes = some x) (hb : b.bytes = some y) :
    x = y ↔ a.contents = b.contents := by
  obtain ⟨hfa, hxa⟩ := Digested.bytes_contents ha
  obtain ⟨hfb, hyb⟩ := Digested.bytes_contents hb
  constructor
  · intro he
    rw [hxa, hyb] at he
    obtain ⟨hi, ht⟩ := Tlv.encode_stop_inj (Contents.items_readable hfa) (Contents.items_readable hfb) he
    exact Contents.eq_of_items hfa hfb hi ht
  · intro he
    rw [hxa, hyb, he]

theorem digested_inj_hello :
    ([0, 1, 6, 2, 1, 86, 6, 1, 7, 255, 9] : Bytes) = [0, 1, 6, 2, 1, 86, 6, 1, 7, 255, 8] ↔
      (Digested.sessionInfo (some [86]) (some [7]) [9]).contents = (Digested.sessionInfo (some [86]) (some [7]) [8]).contents :=
  @digested_inj (.sessionInfo (some [86]) (some [7]) [9]) (.sessionInfo (some [86]) (some [7]) [8]) _ _ rfl rfl

end ElectricEel.Vehicle
