/-
  ElectricEel.World — what lies outside the two processes: the files under the state
  directory, the vehicles' whitelists and the monotonic clock.

  Both processes act on it (the parent writes config.json and public_key.pem, the child
  or tesla-keygen writes private_key.pem, the vehicle enrolls a key when the driver taps
  the card), so every operation of either side takes a world and returns one.
-/
import ElectricEel.Config

namespace ElectricEel

open Wire Config

inductive Backend where
  | hci
  | bluez
  deriving DecidableEq, Repr

/-- private_key.pem: a P-256 key, or bytes that do not parse as one. -/
inductive PrivFile where
  | key (k : Key)
  | junk
  deriving DecidableEq, Repr

structure Disk where
  config : Option ConfigFile
  priv : Option PrivFile
  pub : Option Text
  deriving DecidableEq, Repr

structure World where
  disk : Disk
  /-- The keys each vehicle (by VIN) has enrolled. -/
  whitelist : List (String × Key)
  /-- Milliseconds of the monotonic clock. -/
  now : Nat
  /-- Ghost: the (VIN, key) pairs whose enrollment a `pair` request confirmed. -/
  confirmed : List (String × Key)
  deriving DecidableEq, Repr

namespace Disk

/-- `key_files_in`. -/
def keyFiles (d : Disk) : Bool := d.priv.isSome && d.pub.isSome

/-- `protocol.LoadPrivateKey` on private_key.pem. -/
def privateKey (d : Disk) : Option Key :=
  match d.priv with
  | some (.key k) => some k
  | _ => none

end Disk

namespace World

/-- The path of public_key.pem, the only one `Core::pair` passes on. -/
def publicKeyPath : String := "public_key.pem"

/-- `protocol.LoadPublicKey(path)`; `elsewhere` is the key in a file other than public_key.pem. -/
def loadPublicKey (w : World) (path : String) (elsewhere : Option Key) : Option Key :=
  if path = publicKeyPath then w.disk.pub.bind Text.publicKey else elsewhere

@[simp] theorem loadPublicKey_path (w : World) (elsewhere : Option Key) :
    w.loadPublicKey publicKeyPath elsewhere = w.disk.pub.bind Text.publicKey := if_pos rfl

/-- The driver approves the key at the console. -/
def enroll (w : World) (vin : String) (k : Key) : World := { w with whitelist := (vin, k) :: w.whitelist }

def setPriv (w : World) (p : Option PrivFile) : World := { w with disk := { w.disk with priv := p } }

def setPub (w : World) (t : Option Text) : World := { w with disk := { w.disk with pub := t } }

def setConfig (w : World) (f : Option ConfigFile) : World := { w with disk := { w.disk with config := f } }

def confirm (w : World) (vin : String) (k : Key) : World := { w with confirmed := (vin, k) :: w.confirmed }

@[simp] theorem enroll_disk (w : World) (vin : String) (k : Key) : (w.enroll vin k).disk = w.disk := rfl
@[simp] theorem enroll_confirmed (w : World) (vin : String) (k : Key) : (w.enroll vin k).confirmed = w.confirmed := rfl
@[simp] theorem setPriv_disk (w : World) (p : Option PrivFile) : (w.setPriv p).disk = { w.disk with priv := p } := rfl
@[simp] theorem setPriv_confirmed (w : World) (p : Option PrivFile) : (w.setPriv p).confirmed = w.confirmed := rfl
@[simp] theorem setPub_disk (w : World) (t : Option Text) : (w.setPub t).disk = { w.disk with pub := t } := rfl
@[simp] theorem setPub_confirmed (w : World) (t : Option Text) : (w.setPub t).confirmed = w.confirmed := rfl
@[simp] theorem setConfig_disk (w : World) (f : Option ConfigFile) : (w.setConfig f).disk = { w.disk with config := f } := rfl
@[simp] theorem setConfig_confirmed (w : World) (f : Option ConfigFile) : (w.setConfig f).confirmed = w.confirmed := rfl
@[simp] theorem confirm_disk (w : World) (vin : String) (k : Key) : (w.confirm vin k).disk = w.disk := rfl
@[simp] theorem confirm_confirmed (w : World) (vin : String) (k : Key) :
    (w.confirm vin k).confirmed = (vin, k) :: w.confirmed := rfl

end World

end ElectricEel
