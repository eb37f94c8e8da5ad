/-
  ElectricEel.Vehicle.Message — the messages of the vehicle protocol
  (vehicle-command/pkg/protocol/protobuf: universal_message.proto, signatures.proto) and
  the errors of its parties (internal/authentication, pkg/protocol/error.go).

  Protobuf's enumerations are open: any int32 can arrive, so a code is a number and its
  names are constants. A byte slice that the code compares with nil is an option.
-/
import Mathlib.Data.List.Basic

namespace ElectricEel.Vehicle

abbrev Bytes := List UInt8

/-! ## Enumerations -/

abbrev Domain := Int

def domainBroadcast : Domain := 0

def domainVehicleSecurity : Domain := 2

def domainInfotainment : Domain := 3

abbrev MessageFault := Int

namespace MessageFault

def none : MessageFault := 0

def busy : MessageFault := 1

def timeout : MessageFault := 2

def unknownKeyId : MessageFault := 3

def invalidSignature : MessageFault := 5

def invalidTokenOrCounter : MessageFault := 6

def invalidDomains : MessageFault := 8

def decoding : MessageFault := 10

def internal : MessageFault := 11

def wrongPersonalization : MessageFault := 12

def badParameter : MessageFault := 13

def incorrectEpoch : MessageFault := 15

def timeExpired : MessageFault := 17

def timeToLiveTooLong : MessageFault := 20

def responseMtuExceeded : MessageFault := 25

def names : List String :=
    ["MESSAGEFAULT_ERROR_NONE", "MESSAGEFAULT_ERROR_BUSY", "MESSAGEFAULT_ERROR_TIMEOUT", "MESSAGEFAULT_ERROR_UNKNOWN_KEY_ID",
      "MESSAGEFAULT_ERROR_INACTIVE_KEY", "MESSAGEFAULT_ERROR_INVALID_SIGNATURE", "MESSAGEFAULT_ERROR_INVALID_TOKEN_OR_COUNTER",
      "MESSAGEFAULT_ERROR_INSUFFICIENT_PRIVILEGES", "MESSAGEFAULT_ERROR_INVALID_DOMAINS", "MESSAGEFAULT_ERROR_INVALID_COMMAND",
      "MESSAGEFAULT_ERROR_DECODING", "MESSAGEFAULT_ERROR_INTERNAL", "MESSAGEFAULT_ERROR_WRONG_PERSONALIZATION",
      "MESSAGEFAULT_ERROR_BAD_PARAMETER", "MESSAGEFAULT_ERROR_KEYCHAIN_IS_FULL", "MESSAGEFAULT_ERROR_INCORRECT_EPOCH",
      "MESSAGEFAULT_ERROR_IV_INCORRECT_LENGTH", "MESSAGEFAULT_ERROR_TIME_EXPIRED", "MESSAGEFAULT_ERROR_NOT_PROVISIONED_WITH_IDENTITY",
      "MESSAGEFAULT_ERROR_COULD_NOT_HASH_METADATA", "MESSAGEFAULT_ERROR_TIME_TO_LIVE_TOO_LONG",
      "MESSAGEFAULT_ERROR_REMOTE_ACCESS_DISABLED", "MESSAGEFAULT_ERROR_REMOTE_SERVICE_ACCESS_DISABLED",
      "MESSAGEFAULT_ERROR_COMMAND_REQUIRES_ACCOUNT_CREDENTIALS", "MESSAGEFAULT_ERROR_REQUEST_MTU_EXCEEDED",
      "MESSAGEFAULT_ERROR_RESPONSE_MTU_EXCEEDED", "MESSAGEFAULT_ERROR_REPEATED_COUNTER", "MESSAGEFAULT_ERROR_INVALID_KEY_HANDLE",
      "MESSAGEFAULT_ERROR_REQUIRES_RESPONSE_ENCRYPTION"]

def name? (code : MessageFault) : Option String := if code < 0 then Option.none else names[code.toNat]?

/-- `EnumStringOf`. -/
def string (code : MessageFault) : String := (name? code).getD (toString code)

end MessageFault

abbrev OperationStatus := Int

namespace OperationStatus

def ok : OperationStatus := 0

def wait : OperationStatus := 1

def error : OperationStatus := 2

end OperationStatus

abbrev SignatureType := UInt8

namespace SignatureType

def aesGcmPersonalized : SignatureType := 5

def hmac : SignatureType := 6

def hmacPersonalized : SignatureType := 8

def aesGcmResponse : SignatureType := 9

end SignatureType

/-! ## Messages -/

inductive SubDestination where
  | domain (d : Domain)
  | routingAddress (address : Bytes)
  deriving DecidableEq, Repr

structure Destination where
  subDestination : Option SubDestination
  deriving DecidableEq, Repr

def Destination.getDomain (d : Option Destination) : Domain :=
  match d.bind (·.subDestination) with
  | some (.domain d) => d
  | _ => domainBroadcast

structure AesGcmPersonalizedSignatureData where
  epoch : Option Bytes
  nonce : Bytes
  counter : UInt32
  expiresAt : UInt32
  tag : Bytes
  deriving DecidableEq, Repr

structure HmacPersonalizedSignatureData where
  epoch : Option Bytes
  counter : UInt32
  expiresAt : UInt32
  tag : Bytes
  deriving DecidableEq, Repr

structure AesGcmResponseSignatureData where
  nonce : Bytes
  counter : UInt32
  tag : Bytes
  deriving DecidableEq, Repr

inductive SigType where
  | aesGcmPersonalizedData (data : AesGcmPersonalizedSignatureData)
  | sessionInfoTag (tag : Option Bytes)
  | hmacPersonalizedData (data : HmacPersonalizedSignatureData)
  | aesGcmResponseData (data : AesGcmResponseSignatureData)
  deriving DecidableEq, Repr

structure SignatureData where
  signerIdentity : Option Bytes
  sigType : Option SigType
  deriving DecidableEq, Repr

structure MessageStatus where
  operationStatus : OperationStatus
  signedMessageFault : MessageFault
  deriving DecidableEq, Repr

inductive Payload where
  | protobufMessageAsBytes (b : Bytes)
  | sessionInfoRequest (publicKey : Bytes)
  | sessionInfo (b : Bytes)
  deriving DecidableEq, Repr

structure RoutableMessage where
  toDestination : Option Destination
  fromDestination : Option Destination
  payload : Option Payload
  subSigData : Option SignatureData
  signedMessageStatus : Option MessageStatus
  requestUuid : Option Bytes
  uuid : Option Bytes
  flags : UInt32
  deriving DecidableEq, Repr

namespace RoutableMessage

def getProtobufMessageAsBytes (m : RoutableMessage) : Bytes :=
  match m.payload with
  | some (.protobufMessageAsBytes b) => b
  | _ => []

def getSessionInfo (m : RoutableMessage) : Option Bytes :=
  match m.payload with
  | some (.sessionInfo b) => some b
  | _ => none

def sigType (m : RoutableMessage) : Option SigType := m.subSigData.bind (·.sigType)

def getSessionInfoTag (m : RoutableMessage) : Option Bytes :=
  match m.sigType with
  | some (.sessionInfoTag tag) => tag
  | _ => none

def getAesGcmResponseData (m : RoutableMessage) : Option AesGcmResponseSignatureData :=
  match m.sigType with
  | some (.aesGcmResponseData data) => some data
  | _ => none

def signedMessageFault (m : RoutableMessage) : MessageFault :=
  (m.signedMessageStatus.map (·.signedMessageFault)).getD MessageFault.none

def operationStatus (m : RoutableMessage) : OperationStatus :=
  (m.signedMessageStatus.map (·.operationStatus)).getD OperationStatus.ok

end RoutableMessage

structure SessionInfo where
  counter : UInt32
  publicKey : Bytes
  epoch : Bytes
  clockTime : UInt32
  status : Int
  handle : UInt32
  deriving DecidableEq, Repr

/-! ## Errors of the authentication package -/

inductive MetadataError where
  | outOfOrder
  | fieldTooLong
  deriving DecidableEq, Repr

inductive AuthError where
  | fault (code : MessageFault) (info : String)
  | metadata (e : MetadataError)
  /-- `InvalidSignatureError`, with the session info that lets the signer resync. -/
  | invalidSignature (code : MessageFault) (encodedInfo tag : Bytes)
  /-- What the ECDH key, the random source or the cipher report. -/
  | library (text : String)
  deriving DecidableEq, Repr

end ElectricEel.Vehicle
