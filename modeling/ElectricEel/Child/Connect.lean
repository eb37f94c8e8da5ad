/-
  ElectricEel.Child.Connect — the session child's vehicle link (helper/session/main.go:
  `session`, `sessionDomains`, `ensureConnectedLocked`, `teardownLocked`,
  `stopPresenceLocked`).

  A link exists while `car` is set. What the radio and the vehicle do is the
  environment's (`ConnectEnv`): whether the last beacon is recent and strong, whether the
  transport comes up, whether StartSession succeeds. Of the vehicle package it is assumed
  that StartSession(nil) starts both domains, StartSession(ds) exactly ds, and that a
  session lasts until Disconnect.

  `cmd` is `none` for the presence mode's empty command.

  Proved: when ensureConnectedLocked answers without an error the link is up, and it has
  every domain the command named, or both when the link is new and none was named
  (`ensureConnected_ok`); on an error the link is the old one (`ensureConnected_error`).
-/
import ElectricEel.World

namespace ElectricEel.Child

open Commands Wire

structure Link where
  /-- Domains StartSession completed on this connection. -/
  handshakes : List Domain
  /-- Ghost: what ensureConnectedLocked served on this connection, the opener first. -/
  uses : List (Option Cmd)
  deriving DecidableEq, Repr

structure Sess where
  vin : String
  bleBackend : Backend
  car : Option Link
  /-- `presenceCancel` is set: the presence loop runs. -/
  presence : Bool
  presenceGeneration : Nat
  deriving DecidableEq, Repr

def Sess.start (vin : String) (bleBackend : Backend) : Sess :=
  { vin, bleBackend, car := none, presence := false, presenceGeneration := 0 }

/-- `commandsWithoutSession`. -/
def withoutSession (cmd : Option Cmd) : Bool := cmd == some (.vendor .addKeyRequest)

/-- The empty list is Go's nil, "all domains". -/
def sessionDomains : Option Cmd → List Domain
  | none => [.vcsec]
  | some (.vendor .state) => [.infotainment]
  | some (.vendor v) => (commands v).domain.toList
  | some _ => []

/-- The domains `StartSession(ds)` starts. -/
def startSession (ds : List Domain) : List Domain := if ds = [] then [.vcsec, .infotainment] else ds

structure ConnectEnv where
  /-- `presenceTargetReadyLocked`: the watcher's last beacon is recent and strong. -/
  ready : Bool := true
  /-- The transport's error: bus, adapter, GATT, `NewVehicle` or `Vehicle.Connect`. -/
  transport : Option String := none
  /-- StartSession's error. -/
  handshake : Option String := none
  deriving DecidableEq, Repr

namespace Sess

def teardown (s : Sess) : Sess := { s with car := none }

def stopPresence (s : Sess) : Sess := { s with presence := false, presenceGeneration := s.presenceGeneration + 1 }

def ensureConnected (disk : Disk) (s : Sess) (cmd : Option Cmd) (e : ConnectEnv) : Sess × Except String Unit :=
  match s.car with
  | some link =>
    if withoutSession cmd then (s, .ok ())
    else if sessionDomains cmd = [] then
      -- nil: the live session is used as it is
      ({ s with car := some { link with uses := link.uses ++ [cmd] } }, .ok ())
    else
      match e.handshake with
      | some err => (s, .error err)
      | none =>
        ({ s with car := some { handshakes := link.handshakes ++ startSession (sessionDomains cmd),
                                uses := link.uses ++ [cmd] } }, .ok ())
  | none =>
    if s.presence && s.bleBackend == .bluez && !e.ready then
      (s, .error "vehicle not nearby; wait for phone key to connect and retry")
    else if disk.privateKey = none then (s, .error "load private key: no usable key")
    else
      match e.transport with
      | some err => (s, .error err)
      | none =>
        if withoutSession cmd then ({ s with car := some ⟨[], []⟩ }, .ok ())
        else
          match e.handshake with
          | some err => (s.teardown, .error err)
          | none => ({ s with car := some ⟨startSession (sessionDomains cmd), [cmd]⟩ }, .ok ())

@[simp] theorem teardown_car (s : Sess) : s.teardown.car = none := rfl
@[simp] theorem teardown_vin (s : Sess) : s.teardown.vin = s.vin := rfl
@[simp] theorem stopPresence_car (s : Sess) : s.stopPresence.car = s.car := rfl
@[simp] theorem stopPresence_vin (s : Sess) : s.stopPresence.vin = s.vin := rfl

@[simp] theorem ensureConnected_vin (disk : Disk) (s : Sess) (cmd : Option Cmd) (e : ConnectEnv) :
    (s.ensureConnected disk cmd e).1.vin = s.vin := by
  unfold ensureConnected
  split
  · split
    · rfl
    split
    · rfl
    · split <;> rfl
  · split
    · rfl
    split
    · rfl
    split
    · rfl
    split
    · rfl
    · split <;> rfl

/-- What a nil error means, for every command that starts a session. -/
theorem ensureConnected_ok {disk : Disk} {s : Sess} {cmd : Option Cmd} {e : ConnectEnv} (hw : withoutSession cmd = false)
    (h : (s.ensureConnected disk cmd e).2 = .ok ()) :
    (s.car = none ∧ (s.ensureConnected disk cmd e).1.car = some ⟨startSession (sessionDomains cmd), [cmd]⟩) ∨
    ∃ link, s.car = some link ∧
      (s.ensureConnected disk cmd e).1.car =
        some ⟨link.handshakes ++ sessionDomains cmd, link.uses ++ [cmd]⟩ := by
  unfold ensureConnected at h ⊢
  cases hc : s.car with
  | some link =>
    refine .inr ⟨link, rfl, ?_⟩
    simp only [hc, hw, Bool.false_eq_true, if_false] at h ⊢
    by_cases hn : sessionDomains cmd = []
    · simp [hn]
    · cases he : e.handshake with
      | some err => simp [hn, he] at h
      | none => simp [hn, startSession]
  | none =>
    refine .inl ⟨rfl, ?_⟩
    simp only [hc, hw, Bool.false_eq_true, if_false] at h ⊢
    split at h
    · cases h
    rename_i hr
    rw [if_neg hr]
    split at h
    · cases h
    rename_i hk
    rw [if_neg hk]
    cases ht : e.transport with
    | some err => simp [ht] at h
    | none =>
      cases he : e.handshake with
      | some err => simp [ht, he] at h
      | none => rfl

theorem ensureConnected_error {disk : Disk} {s : Sess} {cmd : Option Cmd} {e : ConnectEnv} {err : String}
    (h : (s.ensureConnected disk cmd e).2 = .error err) : (s.ensureConnected disk cmd e).1.car = s.car := by
  unfold ensureConnected at h ⊢
  cases hc : s.car with
  | some link =>
    simp only [hc] at h ⊢
    split
    · exact hc
    split
    · simp_all
    split
    · exact hc
    · simp_all
  | none =>
    simp only [hc] at h ⊢
    split
    · exact hc
    split
    · exact hc
    split
    · exact hc
    split
    · simp_all
    split
    · rfl
    · simp_all

end Sess

end ElectricEel.Child
