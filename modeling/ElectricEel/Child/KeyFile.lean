/-
  ElectricEel.Child.KeyFile — the key file through a keygen request (main.go
  `dispatchKeygen`, `publicKeyPEM`, protocol/key.go `LoadPrivateKey`, `SavePrivateKey`).

  A step may fail at each of its places: the read, the generator, the scalar, the
  encodings, and SavePrivateKey's nine, in the order of the code. The temporary file is a
  file of its own and goes at every return; the key file changes at the rename only. PEM,
  X.509 and the curve are the `KeyCodec`.

  Proved: the request leaves an existing key file alone without -f, leaves it alone when it
  answers false, and answers true with the public half of what is in it, exactly when
  no call fails at the directory after the rename (`keygen_atomic_iff`); the child's
  `dispatchKeygen` is this one with keys for files (`keygen_refines`).
-/
import ElectricEel.Child.Dispatch

namespace ElectricEel.Child.KeyFile

open Wire Config

/-! ## Keys and their files -/

structure KeyCodec (Bytes Scalar Skey : Type) where
  /-- pem.Decode, ParseECPrivateKey or ParsePKCS8PrivateKey, and the curve. -/
  parse : Bytes → Except String Skey
  /-- The PEM block of MarshalECPrivateKey. -/
  marshal : Skey → Bytes
  /-- UnmarshalECDHPrivateKey; none is its nil. -/
  unmarshal : Scalar → Option Skey
  publicKeyPEM : Skey → Option Text

inductive SaveStep where
  | exportable
  | marshal
  | createTemp
  | write
  | sync
  | close
  | rename
  | openDir
  | syncDir
  deriving DecidableEq, Repr

/-- What each step meets. -/
structure Env (Scalar : Type) where
  /-- os.ReadFile fails other than with ErrNotExist. -/
  read : Option String := none
  generate : Except String Scalar
  save : SaveStep → Option String := fun _ => none

variable {Bytes Scalar Skey : Type} (C : KeyCodec Bytes Scalar Skey)

inductive Loaded (Skey : Type) where
  | key (k : Skey)
  | notExist
  | failed (err : String)

def loadPrivateKey (file : Option Bytes) (read : Option String) : Loaded Skey :=
  match read, file with
  | some err, _ => .failed err
  | none, none => .notExist
  | none, some b =>
    match C.parse b with
    | .ok k => .key k
    | .error err => .failed err

/-- The first error up to the rename. -/
def renameError {Scalar : Type} (e : Env Scalar) : Option String :=
  e.save .exportable <|> e.save .marshal <|> e.save .createTemp <|> e.save .write <|> e.save .sync <|> e.save .close <|> e.save .rename

def directoryError {Scalar : Type} (e : Env Scalar) : Option String := e.save .openDir <|> e.save .syncDir

def savePrivateKey (k : Skey) (file : Option Bytes) (e : Env Scalar) : Option Bytes × Except String Unit :=
  match renameError e with
  | some err => (file, .error err)
  | none =>
    match directoryError e with
    | some err => (some (C.marshal k), .error err)
    | none => (some (C.marshal k), .ok ())

def generateKey (s : Sess) (req : Request) (force : Bool) (file : Option Bytes) (e : Env Scalar) : Sess × Option Bytes × Response :=
  match e.generate with
  | .error err => (s, file, { id := req.id, stderr := "Failed to generate private key: " ++ err ++ "\n", exitCode := 1 })
  | .ok scalar =>
    match C.unmarshal scalar with
    | none => (s, file, { id := req.id, stderr := "failed to build private key from generated scalar\n", exitCode := 1 })
    | some skey =>
      match C.publicKeyPEM skey with
      | none =>
        (s, file, { id := req.id, exitCode := 1,
                    stderr := "Failed to parse key. The keyring may be corrupted. Run with -f to generate new key.\n" })
      | some pub =>
        match savePrivateKey C skey file e with
        | (file, .error err) => (s, file, { id := req.id, stderr := "Failed to save private key: " ++ err ++ "\n", exitCode := 1 })
        | (file, .ok ()) => (if force then s.stopPresence.teardown else s, file, { id := req.id, ok := true, stdout := pub })

/-- `dispatchKeygen` on the key file. -/
def dispatchKeygen (s : Sess) (req : Request) (file : Option Bytes) (e : Env Scalar) : Sess × Option Bytes × Response :=
  if req.args.contains "-f" then generateKey C s req true file e
  else
    match loadPrivateKey C file e.read with
    | .key skey =>
      match C.publicKeyPEM skey with
      | some pub => (s, file, { id := req.id, ok := true, stdout := pub })
      | none => (s, file, { id := req.id, stderr := "existing private key is invalid; use -f to replace it", exitCode := 1 })
    | .failed err =>
      (s, file, { id := req.id, stderr := "cannot reuse existing private key: " ++ err ++ "; use -f to replace it", exitCode := 1 })
    | .notExist => generateKey C s req false file e

/-! ## What a request does to the file -/

/-- The request gets as far as the rename, with this content. -/
def Replaces (req : Request) (file : Option Bytes) (e : Env Scalar) (b : Bytes) : Prop :=
  (req.args.contains "-f" = true ∨ file = none ∧ e.read = none) ∧
  ∃ scalar skey, e.generate = .ok scalar ∧ C.unmarshal scalar = some skey ∧ (C.publicKeyPEM skey).isSome ∧
    renameError e = none ∧ b = C.marshal skey

structure Atomic (req : Request) (old new : Option Bytes) (resp : Response) : Prop where
  kept : req.args.contains "-f" = false → old.isSome → new = old
  failed : resp.ok = false → new = old
  answered : resp.ok = true → ∃ b skey, new = some b ∧ C.parse b = .ok skey ∧ C.publicKeyPEM skey = some resp.stdout

/-- The outcomes of a save. -/
theorem savePrivateKey_cases (k : Skey) (file : Option Bytes) (e : Env Scalar) :
    (∃ err, renameError e = some err ∧ savePrivateKey C k file e = (file, .error err)) ∨
    (∃ err, renameError e = none ∧ directoryError e = some err ∧ savePrivateKey C k file e = (some (C.marshal k), .error err)) ∨
    renameError e = none ∧ directoryError e = none ∧ savePrivateKey C k file e = (some (C.marshal k), .ok ()) := by
  unfold savePrivateKey
  cases hr : renameError e with
  | some err => exact .inl ⟨err, rfl, rfl⟩
  | none =>
    cases hd : directoryError e with
    | some err => exact .inr (.inl ⟨err, rfl, rfl, rfl⟩)
    | none => exact .inr (.inr ⟨rfl, rfl, rfl⟩)

/-- The outcomes of a request. -/
inductive Outcome (req : Request) (file : Option Bytes) (e : Env Scalar) : Sess × Option Bytes × Response → Prop
  | refused (s : Sess) {resp : Response} : resp.ok = false → (∀ b, ¬ Replaces C req file e b) → Outcome req file e (s, file, resp)
  | reused (s : Sess) {b : Bytes} {skey : Skey} {resp : Response} : file = some b → C.parse b = .ok skey →
      C.publicKeyPEM skey = some resp.stdout → resp.ok = true → (∀ b, ¬ Replaces C req file e b) → Outcome req file e (s, file, resp)
  | unsynced (s : Sess) {b : Bytes} {resp : Response} : resp.ok = false → Replaces C req file e b → (directoryError e).isSome →
      Outcome req file e (s, some b, resp)
  | replaced (s : Sess) {skey : Skey} {resp : Response} : resp.ok = true → Replaces C req file e (C.marshal skey) →
      directoryError e = none → C.publicKeyPEM skey = some resp.stdout → Outcome req file e (s, some (C.marshal skey), resp)

theorem generateKey_outcome (s : Sess) {req : Request} (force : Bool) {file : Option Bytes} {e : Env Scalar}
    (hgo : req.args.contains "-f" = true ∨ file = none ∧ e.read = none) :
    Outcome C req file e (generateKey C s req force file e) := by
  unfold generateKey
  cases hg : e.generate with
  | error err =>
    refine .refused s rfl fun b hb => ?_
    obtain ⟨-, _, _, h, -⟩ := hb
    simp [hg] at h
  | ok scalar =>
    dsimp only
    cases hu : C.unmarshal scalar with
    | none =>
      refine .refused s rfl fun b hb => ?_
      obtain ⟨-, _, _, h, h', -⟩ := hb
      cases hg.symm.trans h
      simp [hu] at h'
    | some skey =>
      dsimp only
      cases hp : C.publicKeyPEM skey with
      | none =>
        refine .refused s rfl fun b hb => ?_
        obtain ⟨-, _, _, h, h', h'', -⟩ := hb
        cases hg.symm.trans h
        cases hu.symm.trans h'
        simp [hp] at h''
      | some pub =>
        have hrep : renameError e = none → Replaces C req file e (C.marshal skey) :=
          fun hr => ⟨hgo, scalar, skey, hg, hu, by simp [hp], hr, rfl⟩
        dsimp only
        rcases savePrivateKey_cases C skey file e with ⟨err, hr, h⟩ | ⟨err, hr, hd, h⟩ | ⟨hr, hd, h⟩
        · rw [h]
          refine .refused s rfl fun b hb => ?_
          obtain ⟨-, _, _, -, -, -, h', -⟩ := hb
          simp [hr] at h'
        · rw [h]
          exact .unsynced s rfl (hrep hr) (by simp [hd])
        · rw [h]
          exact .replaced _ rfl (hrep hr) hd hp

theorem dispatchKeygen_outcome (s : Sess) (req : Request) (file : Option Bytes) (e : Env Scalar) :
    Outcome C req file e (dispatchKeygen C s req file e) := by
  unfold dispatchKeygen
  by_cases hf : req.args.contains "-f" = true
  · rw [if_pos hf]
    exact generateKey_outcome C s true (.inl hf)
  · rw [if_neg hf]
    have hno : file.isSome ∨ e.read.isSome → ∀ b, ¬ Replaces C req file e b := by
      intro h b hb
      rcases hb.1 with h' | ⟨h1, h2⟩
      · exact hf h'
      · simp [h1, h2] at h
    unfold loadPrivateKey
    cases hr : e.read with
    | some err => exact .refused s rfl (hno (.inr (by simp [hr])))
    | none =>
      cases hfile : file with
      | none => exact generateKey_outcome C s false (.inr ⟨rfl, hr⟩)
      | some b =>
        have hkeep := hno (.inl (by simp [hfile]))
        rw [hfile] at hkeep
        dsimp only
        cases hp : C.parse b with
        | error err => exact .refused s rfl hkeep
        | ok skey =>
          dsimp only
          cases hk : C.publicKeyPEM skey with
          | none => exact .refused s rfl hkeep
          | some pub => exact .reused s rfl hp hk rfl hkeep

/-- The request is atomic unless the directory fails it after the rename. -/
theorem keygen_atomic_iff (hround : ∀ skey, C.parse (C.marshal skey) = .ok skey) (s : Sess) (req : Request) (file : Option Bytes)
    (e : Env Scalar) :
    Atomic C req file (dispatchKeygen C s req file e).2.1 (dispatchKeygen C s req file e).2.2 ↔
      ¬ ∃ b, Replaces C req file e b ∧ file ≠ some b ∧ (e.save .openDir ≠ none ∨ e.save .syncDir ≠ none) := by
  have hdir : (directoryError e).isSome ↔ e.save .openDir ≠ none ∨ e.save .syncDir ≠ none := by
    unfold directoryError
    cases e.save .openDir <;> simp [Option.isSome_iff_ne_none]
  have hkept : ∀ b, Replaces C req file e b → req.args.contains "-f" = false → file.isSome → some b = file := by
    intro b hb hf hs
    rcases hb.1 with h | ⟨h, -⟩
    · exact absurd (h.symm.trans hf) (by simp)
    · exact absurd hs (by simp [h])
  simp only [← hdir]
  have ho := dispatchKeygen_outcome C s req file e
  generalize dispatchKeygen C s req file e = r at ho ⊢
  cases ho with
  | @refused _ resp hok hno =>
    refine ⟨fun _ hb => ?_, fun _ => ⟨fun _ _ => rfl, fun _ => rfl, fun h => ?_⟩⟩
    · obtain ⟨b, hb, -⟩ := hb
      exact hno b hb
    · simp [hok] at h
  | @reused _ b skey resp hfile hp hk hok hno =>
    refine ⟨fun _ hb => ?_, fun _ => ⟨fun _ _ => rfl, fun _ => rfl, fun _ => ⟨b, skey, hfile, hp, hk⟩⟩⟩
    obtain ⟨b, hb, -⟩ := hb
    exact hno b hb
  | @unsynced _ b resp hok hb hd =>
    constructor
    · intro ha hbad
      obtain ⟨b', hb', hne, -⟩ := hbad
      obtain ⟨-, _, _, h1, h2, -, -, h3⟩ := hb
      obtain ⟨-, _, _, h1', h2', -, -, h3'⟩ := hb'
      cases h1.symm.trans h1'
      cases h2.symm.trans h2'
      exact hne ((ha.failed hok).symm.trans (by rw [h3, h3']))
    · intro hgood
      have hsame : some b = file := by
        by_contra hne
        exact hgood ⟨b, hb, fun h => hne h.symm, hd⟩
      refine ⟨fun hf hs => hkept b hb hf hs, fun _ => hsame, fun h => ?_⟩
      simp [hok] at h
  | @replaced _ skey resp hok hb hd hk =>
    refine ⟨fun _ hbad => ?_, fun _ => ⟨fun hf hs => hkept _ hb hf hs, fun h => ?_, fun _ => ⟨_, skey, rfl, hround skey, hk⟩⟩⟩
    · obtain ⟨_, -, -, h⟩ := hbad
      simp [hd] at h
    · simp [hok] at h

/-! ## The defect -/

/-- Keys are numbers, a file is its key or junk. -/
def plainKeys : KeyCodec (Option Nat) Nat Nat :=
  { parse := fun b => b.elim (.error "invalid private key: expected PEM encoding") .ok
    marshal := some
    unmarshal := some
    publicKeyPEM := fun k => some (.pem k) }

def plainSess : Sess := .start "5YJ3E1EA7KF000000" .bluez

def keygenRequest (args : List String) : Request := { type := "request", id := "1", cmd := .keygen, args }

/-- A forced request whose directory cannot be synced. -/
def unsyncedEnv : Env Nat := { generate := .ok 2, save := fun st => if st = .syncDir then some "sync: input/output error" else none }

/-- The request fails, and the key file holds the new key. -/
theorem keygen_failed_replaced :
    (dispatchKeygen plainKeys plainSess (keygenRequest ["-f"]) (some (some 1)) unsyncedEnv).2.2.ok = false ∧
    (dispatchKeygen plainKeys plainSess (keygenRequest ["-f"]) (some (some 1)) unsyncedEnv).2.1 = some (some 2) ∧
    ¬ Atomic plainKeys (keygenRequest ["-f"]) (some (some 1))
      (dispatchKeygen plainKeys plainSess (keygenRequest ["-f"]) (some (some 1)) unsyncedEnv).2.1
      (dispatchKeygen plainKeys plainSess (keygenRequest ["-f"]) (some (some 1)) unsyncedEnv).2.2 :=
  ⟨by decide, by decide, fun h => absurd (h.failed (by decide)) (by decide)⟩

/-- An unreadable key without -f. -/
theorem keygen_atomic_junk :
    Atomic plainKeys (keygenRequest []) (some none)
      (dispatchKeygen plainKeys plainSess (keygenRequest []) (some none) unsyncedEnv).2.1
      (dispatchKeygen plainKeys plainSess (keygenRequest []) (some none) unsyncedEnv).2.2 :=
  (keygen_atomic_iff plainKeys (fun _ => rfl) plainSess _ _ unsyncedEnv).2 fun h => by
    obtain ⟨_, ⟨hgo, -⟩, -⟩ := h
    exact absurd hgo (by decide)

/-! ## The child's keygen -/

/-- What the child's model keeps of a key file. -/
def content (C : KeyCodec Bytes Scalar Key) (file : Option Bytes) : Option PrivFile :=
  file.map fun b =>
    match C.parse b with
    | .ok k => .key k
    | .error _ => .junk

/-- A save's fault, before or behind the rename. -/
def saveFault {Scalar : Type} (e : Env Scalar) : Option FsStep :=
  if (renameError e).isSome then some .rename
  else if (e.save .openDir).isSome then some .openDir
  else if (e.save .syncDir).isSome then some .syncDir
  else none

theorem saveFault_rename {Scalar : Type} {e : Env Scalar} {err : String} (h : renameError e = some err) :
    saveFault e = some .rename := by
  simp [saveFault, h]

theorem saveFault_directory {Scalar : Type} {e : Env Scalar} {err : String} (hr : renameError e = none)
    (hd : directoryError e = some err) : saveFault e = some .openDir ∨ saveFault e = some .syncDir := by
  unfold directoryError at hd
  unfold saveFault
  cases ho : e.save .openDir with
  | some _ => simp [hr]
  | none =>
    rw [ho] at hd
    have hs : e.save .syncDir = some err := hd
    simp [hr, hs]

theorem saveFault_none {Scalar : Type} {e : Env Scalar} (hr : renameError e = none) (hd : directoryError e = none) :
    saveFault e = none := by
  unfold directoryError at hd
  unfold saveFault
  cases ho : e.save .openDir with
  | some _ => simp [ho] at hd
  | none =>
    rw [ho] at hd
    have hs : e.save .syncDir = none := hd
    simp [hr, hs]

/-- The key a request makes, or where that fails. -/
def made (C : KeyCodec Bytes Scalar Key) (e : Env Scalar) : Except String Key :=
  match e.generate with
  | .error err => .error err
  | .ok scalar =>
    match C.unmarshal scalar with
    | none => .error "failed to build private key from generated scalar"
    | some k => .ok k

def coarse (C : KeyCodec Bytes Scalar Key) (e : Env Scalar) : KeygenEnv :=
  { key := (made C e).toOption.getD 0
    unreadable := e.read
    generate := match made C e with
      | .ok _ => none
      | .error err => some err
    save := saveFault e }

/-- Two answers that differ in their texts for a failure only. -/
structure SameAnswer (r r' : Response) : Prop where
  id : r.id = r'.id
  ok : r.ok = r'.ok
  stdout : r.stdout = r'.stdout

variable {C : KeyCodec Bytes Scalar Key} (hpem : ∀ k, C.publicKeyPEM k = some (.pem k))
  (hround : ∀ k, C.parse (C.marshal k) = .ok k)

include hpem hround in
theorem generateKey_refines {w : World} {file : Option Bytes} (hw : w.disk.priv = content C file) (s : Sess) (req : Request)
    (force : Bool) (e : Env Scalar) :
    (keygenFresh w s req force (coarse C e)).1 = (generateKey C s req force file e).1 ∧
    (keygenFresh w s req force (coarse C e)).2.1 = w.setPriv (content C (generateKey C s req force file e).2.1) ∧
    SameAnswer (keygenFresh w s req force (coarse C e)).2.2 (generateKey C s req force file e).2.2 := by
  have hkeep : w.setPriv (content C file) = w := by rw [← hw]; rfl
  have hnew : ∀ k, content C (some (C.marshal k)) = some (.key k) := fun k => by simp [content, hround]
  unfold keygenFresh generateKey coarse made
  cases hg : e.generate with
  | error err => exact ⟨rfl, hkeep.symm, rfl, rfl, rfl⟩
  | ok scalar =>
    dsimp only
    cases hu : C.unmarshal scalar with
    | none => exact ⟨rfl, hkeep.symm, rfl, rfl, rfl⟩
    | some k =>
      simp only [hpem, Except.toOption, Option.getD_some]
      rcases savePrivateKey_cases C k file e with ⟨err, hr, h⟩ | ⟨err, hr, hd, h⟩ | ⟨hr, hd, h⟩
      · rw [h, saveFault_rename hr]
        exact ⟨rfl, by rw [hw]; rfl, rfl, rfl, rfl⟩
      · rw [h, hnew]
        rcases saveFault_directory hr hd with hf | hf
        · rw [hf]
          exact ⟨rfl, rfl, rfl, rfl, rfl⟩
        · rw [hf]
          exact ⟨rfl, rfl, rfl, rfl, rfl⟩
      · rw [h, hnew, saveFault_none hr hd]
        exact ⟨rfl, rfl, rfl, rfl, rfl⟩

include hpem hround in
/-- Where an absent file reads as absent, the child's keygen is this one. -/
theorem keygen_refines {w : World} {file : Option Bytes} (hw : w.disk.priv = content C file) (s : Sess) (req : Request)
    {e : Env Scalar} (habsent : file = none → e.read = none) :
    (Child.dispatchKeygen w s req (coarse C e)).1 = (dispatchKeygen C s req file e).1 ∧
    (Child.dispatchKeygen w s req (coarse C e)).2.1 = w.setPriv (content C (dispatchKeygen C s req file e).2.1) ∧
    SameAnswer (Child.dispatchKeygen w s req (coarse C e)).2.2 (dispatchKeygen C s req file e).2.2 := by
  have hkeep : w.setPriv (content C file) = w := by rw [← hw]; rfl
  have hfresh := generateKey_refines hpem hround hw s req
  unfold Child.dispatchKeygen dispatchKeygen loadPrivateKey
  split
  · exact hfresh true e
  · cases hfile : file with
    | none =>
      rw [hfile] at hw hfresh
      rw [hw, habsent hfile]
      exact hfresh false e
    | some b =>
      rw [hfile] at hw hkeep
      have hread : (coarse C e).unreadable = e.read := rfl
      rw [hw, hread]
      unfold content at hkeep ⊢
      cases hr : e.read with
      | some err => exact ⟨rfl, hkeep.symm, rfl, rfl, rfl⟩
      | none =>
        cases hp : C.parse b with
        | error err =>
          simp only [hp, Option.map_some] at hkeep ⊢
          exact ⟨trivial, hkeep.symm, rfl, rfl, rfl⟩
        | ok k =>
          simp only [hp, hpem, Option.map_some] at hkeep ⊢
          exact ⟨trivial, hkeep.symm, rfl, rfl, rfl⟩

end ElectricEel.Child.KeyFile
