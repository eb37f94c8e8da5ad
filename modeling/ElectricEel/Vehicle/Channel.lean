/-
  ElectricEel.Vehicle.Channel — a signer and a verifier over a network that loses, repeats,
  reorders and invents messages.

  The parties run in any order. The network may deliver any message at any time to the
  verifier, and any session info to the signer. `made` records what the two authenticated:
  the arguments of each computation of authenticated bytes, with the text under the tag.
  `executed` records the commands the verifier passed on.

  Assumed of the environment (`Sound`): a tag verifies only over bytes and a text which one of
  the two authenticated (no forgery, no hash collision), and the random source never draws
  an epoch twice.

  Proved, of every reachable state: a command that was executed is one that the signer
  authorised, of the same method, domain, recipient, epoch, counter, expiry, flags and text
  (`executed_authorised`); no two executions under one epoch share a counter other than 0, and a
  command authorised by `encrypt` never has the counter 0 (`executed_once`); it was not
  executed after its expiry, and one that came out of order had at most 30 seconds left
  (`executed_fresh`, which needs no assumption). The epochs and counters of the session infos that the signer takes
  play no part in it.
-/
import ElectricEel.Lib.Runs
import ElectricEel.Vehicle.Signer
import ElectricEel.Vehicle.Verifier

namespace ElectricEel.Vehicle

open Lib

/-- A computation of authenticated bytes by a party, and the text its tag vouches for. -/
structure Made where
  use : Digested
  plaintext : Bytes

/-- A command that the verifier passed on: under which of its states, and when. -/
structure Executed where
  peer : Peer
  message : RoutableMessage
  info : SigInfo
  method : SignatureType
  text : Bytes
  plaintext : Bytes
  timestamp : UInt32

def Executed.use (e : Executed) : Digested := .command e.peer e.message e.info e.method e.text

structure Channel where
  signer : Signer
  verifier : Verifier
  made : List Made
  executed : List Executed
  /-- Every epoch the verifier had or drew. -/
  epochs : List EpochId

inductive ChannelEvent where
  | encrypt (message : RoutableMessage) (expiresIn : Int) (now : Instant) (random : RandomRead)
  | authorizeHmac (message : RoutableMessage) (expiresIn : Int) (now : Instant)
  | deliver (message : RoutableMessage) (m m' : Moment)
  | respond (message : RoutableMessage) (id : Option Bytes) (counter : UInt32) (random : RandomRead)
  | requestInfo (challenge : Option Bytes) (m : Moment)
  | hello (challenge : Option Bytes) (encodedInfo tag : Bytes) (now : Instant)

/-- What a verified message's execution is recorded as. -/
def Executed.of (v : Verifier) (message : RoutableMessage) (plaintext : Bytes) (now : Instant) : List Executed :=
  match message.sigType with
  | some (.aesGcmPersonalizedData data) =>
    [{ peer := v.peer
       message
       info := data.info
       method := SignatureType.aesGcmPersonalized
       text := []
       plaintext
       timestamp := v.peer.timestamp now }]
  | some (.hmacPersonalizedData data) =>
    [{ peer := v.peer
       message
       info := data.info
       method := SignatureType.hmacPersonalized
       text := message.getProtobufMessageAsBytes
       plaintext
       timestamp := v.peer.timestamp now }]
  | _ => []

/-- A read that succeeds draws an epoch that is new. -/
def Moment.Draws (m : Moment) (epochs : List EpochId) : Prop := m.random.2 = true → m.random.1 ∉ epochs

namespace Channel

section

variable (P : Primitives) (marshal : SessionInfo → Bytes) (unmarshal : Bytes → Option SessionInfo)

def step (c : Channel) : ChannelEvent → Channel
  | .encrypt message expiresIn now random =>
    match c.signer.encrypt P message expiresIn now random with
    | (s, _, some _) => { c with signer := s }
    | (s, _, none) =>
      let info : SigInfo :=
        { counter := s.peer.counter, epoch := some s.peer.epoch.1, expiresAt := s.expiresAt expiresIn now }
      { c with
        signer := s
        made := ⟨.command s.peer message info SignatureType.aesGcmPersonalized [], message.getProtobufMessageAsBytes⟩ :: c.made }
  | .authorizeHmac message expiresIn now =>
    match c.signer.authorizeHmac P message expiresIn now with
    | (s, _, some _) => { c with signer := s }
    | (s, _, none) =>
      let info : SigInfo :=
        { counter := s.peer.counter, epoch := some s.peer.epoch.1, expiresAt := s.expiresAt expiresIn now }
      let text := message.getProtobufMessageAsBytes
      { c with signer := s, made := ⟨.command s.peer message info SignatureType.hmacPersonalized text, text⟩ :: c.made }
  | .deliver message m m' =>
    let epochs := m'.random.1 :: m.random.1 :: c.epochs
    match c.verifier.verify P marshal message m m' with
    | (v, .error _) => { c with verifier := v, epochs }
    | (v, .ok plaintext) =>
      { c with
        verifier := v
        epochs
        executed := Executed.of (c.verifier.adjustClock m).1 message plaintext m.now ++ c.executed }
  | .respond message id counter random =>
    match c.verifier.encrypt P message id counter random with
    | .error _ => c
    | .ok _ => { c with made := ⟨.response c.verifier.peer message id counter, message.getProtobufMessageAsBytes⟩ :: c.made }
  | .requestInfo challenge m =>
    let epochs := m.random.1 :: c.epochs
    match c.verifier.signedSessionInfo P marshal challenge m with
    | (v, .error _) => { c with verifier := v, epochs }
    | (v, .ok (encodedInfo, _)) =>
      { c with verifier := v, epochs, made := ⟨.sessionInfo v.peer.verifierName challenge encodedInfo, encodedInfo⟩ :: c.made }
  | .hello challenge encodedInfo tag now =>
    { c with signer := (c.signer.updateSignedSessionInfo P unmarshal challenge encodedInfo tag now).1 }

/-- A tag that the verifier checks verifies only over what a party authenticated. -/
def Genuine (c : Channel) (message : RoutableMessage) (m : Moment) : Prop :=
  ∀ info method text plaintext x, Authenticates P (c.verifier.adjustClock m).1.peer message info method text plaintext x →
    ∃ made ∈ c.made, made.use.bytes = some x ∧ made.plaintext = plaintext

/-- The environment's part. -/
def Sound (c : Channel) : ChannelEvent → Prop
  | .deliver message m m' => c.Genuine P message m ∧ m.Draws c.epochs ∧ m'.Draws (m.random.1 :: c.epochs)
  | .requestInfo _ m => m.Draws c.epochs
  | _ => True

/-- Both ends as their constructors leave them, with nothing sent yet. -/
def Fresh (c : Channel) : Prop :=
  c.made = [] ∧ c.executed = [] ∧ c.epochs = [c.verifier.peer.epoch] ∧ c.verifier.peer.counter = 0

def machine : Machine Channel ChannelEvent where
  init := Fresh
  step := step P marshal unmarshal

end

end Channel

/-! ## The window over the epochs -/

/-- The counters accepted under an epoch, with the 0 that the epoch starts from. -/
def seenIn (keys : List (EpochId × UInt32)) (epoch : EpochId) : List Nat :=
  0 :: (keys.filter fun k => k.1 = epoch).map (·.2.toNat)

theorem mem_seenIn {keys : List (EpochId × UInt32)} {epoch : EpochId} {c : UInt32} (h : (epoch, c) ∈ keys) :
    c.toNat ∈ seenIn keys epoch := by
  refine List.mem_cons_of_mem _ (List.mem_map.2 ⟨(epoch, c), List.mem_filter.2 ⟨h, ?_⟩, rfl⟩)
  simp

/-- What a verifier knows of the accepted `keys`. A counter at its end waits for a new epoch. -/
structure Verifier.Tracks (v : Verifier) (keys : List (EpochId × UInt32)) (epochs : List EpochId) : Prop where
  known : ∀ k ∈ keys, k.1 ∈ epochs
  current : v.peer.epoch ∈ epochs
  window : v.peer.counter = 0xFFFFFFFF ∨ Remembers v.window v.peer.counter.toNat (seenIn keys v.peer.epoch)
  nodup : keys.Nodup

namespace Verifier.Tracks

variable {v v' vc : Verifier} {keys : List (EpochId × UInt32)} {epochs : List EpochId} {m : Moment} {e : Option AuthError}

theorem seen_new {epoch : EpochId} (h : ∀ k ∈ keys, k.1 ∈ epochs) (hnew : epoch ∉ epochs) : seenIn keys epoch = [0] := by
  have hnil : keys.filter (fun k => k.1 = epoch) = [] := by
    rw [List.filter_eq_nil_iff]
    intro k hk he
    exact hnew (of_decide_eq_true he ▸ h k hk)
  rw [seenIn, hnil, List.map_nil]

theorem remembers (h : v.Tracks keys epochs) (ha : Adjusted v m v' none) (hd : m.Draws epochs) :
    Remembers v'.window v'.peer.counter.toNat (seenIn keys v'.peer.epoch) := by
  cases ha with
  | same he hc hne hw =>
    rw [he, hc, hw]
    exact h.window.resolve_left hne
  | rotated he hr hc =>
    rw [he, hc, seen_new h.known (hd hr)]
    exact .restart _

theorem adjust (h : v.Tracks keys epochs) (ha : Adjusted v m v' e) (hd : m.Draws epochs) :
    v'.Tracks keys (m.random.1 :: epochs) := by
  refine ⟨fun k hk => List.mem_cons_of_mem _ (h.known k hk), ?_, ?_, h.nodup⟩
  · cases ha with
    | same he _ _ _ =>
      rw [he]
      exact List.mem_cons_of_mem _ h.current
    | rotated he _ _ =>
      rw [he]
      exact List.mem_cons_self
    | broken he _ =>
      rw [he]
      exact List.mem_cons_self
  · cases e with
    | none => exact Or.inr (h.remembers ha hd)
    | some e =>
      cases ha with
      | broken _ hc => exact Or.inl hc

theorem more (h : v.Tracks keys epochs) (epoch : EpochId) : v.Tracks keys (epoch :: epochs) :=
  ⟨fun k hk => List.mem_cons_of_mem _ (h.known k hk), List.mem_cons_of_mem _ h.current, h.window, h.nodup⟩

/-- The window lets a counter of this epoch through: it is not among the keys, and joins them. -/
theorem accept (h : v.Tracks keys epochs) (hr : Remembers v.window v.peer.counter.toNat (seenIn keys v.peer.epoch)) {c : UInt32}
    (hok : (updateSlidingWindow v.peer.counter v.window c).2.2 = true) {v' : Verifier}
    (hv : v' = { v with
      peer := { v.peer with counter := (updateSlidingWindow v.peer.counter v.window c).1 }
      window := (updateSlidingWindow v.peer.counter v.window c).2.1 }) :
    v'.Tracks ((v.peer.epoch, c) :: keys) epochs := by
  subst hv
  have hfresh : (v.peer.epoch, c) ∉ keys := fun hk => ((updateSlidingWindow_ok hr).1 hok).fresh hr.leTop (mem_seenIn hk)
  refine ⟨?_, h.current, Or.inr ?_, List.nodup_cons.2 ⟨hfresh, h.nodup⟩⟩
  · intro k hk
    rcases List.mem_cons.mp hk with rfl | hk
    · exact h.current
    · exact h.known k hk
  · refine (updateSlidingWindow_remembers hr hok).congr fun n => ?_
    simp [seenIn, or_left_comm]

end Verifier.Tracks

/-! ## The invariant -/

/-- The epoch and counter of the executions that the window counted. -/
def counted (es : List Executed) : List (EpochId × UInt32) :=
  (es.filter fun e => e.info.counter ≠ 0).map fun e => (e.peer.epoch, e.info.counter)

/-- An execution's origin among what was authenticated. -/
def Executed.Origin (e : Executed) (made : List Made) : Prop :=
  ∃ p message info, ⟨.command p message info e.method e.text, e.plaintext⟩ ∈ made ∧
    (Digested.command p message info e.method e.text).contents = e.use.contents

/-- What held of a command's info when it was executed. -/
structure Executed.Timely (e : Executed) : Prop where
  notExpired : e.info.expiresAt = 0 ∨ e.timestamp ≤ e.info.expiresAt
  expiryLe : e.info.expiresAt.toNat ≤ epochLength
  shortLived : e.info.counter = 0 ∨ e.info.counter < e.peer.counter →
    e.info.expiresAt ≠ 0 ∧ e.info.expiresAt - e.timestamp ≤ maxSecondsWithoutCounter

structure Channel.Inv (c : Channel) : Prop where
  tracks : c.verifier.Tracks (counted c.executed) c.epochs
  origin : ∀ e ∈ c.executed, e.Origin c.made
  counters : ∀ made ∈ c.made, ∀ p message info text,
    made.use = .command p message info SignatureType.aesGcmPersonalized text → info.counter ≠ 0

theorem Executed.of_authenticates {P : Primitives} {v : Verifier} {message : RoutableMessage} {info : SigInfo}
    {method : SignatureType} {text plaintext x : Bytes} (h : Authenticates P v.peer message info method text plaintext x)
    (now : Instant) :
    Executed.of v message plaintext now = [⟨v.peer, message, info, method, text, plaintext, v.peer.timestamp now⟩] := by
  cases h with
  | gcm hs _ _ => simp only [Executed.of, hs]
  | hmac hs _ _ => simp only [Executed.of, hs]

theorem Authenticates.bytes {P : Primitives} {p : Peer} {message : RoutableMessage} {info : SigInfo} {method : SignatureType}
    {text plaintext x : Bytes} (h : Authenticates P p message info method text plaintext x) :
    (Digested.command p message info method text).bytes = some x := by
  cases h with
  | gcm _ hx _ => exact hx
  | hmac _ hx _ => exact hx

/-- Bytes of a command are authenticated as a command only, with the same contents. -/
theorem command_of_bytes {d : Digested} {p : Peer} {message : RoutableMessage} {info : SigInfo} {method : SignatureType}
    {text x : Bytes} (hd : d.bytes = some x) (hc : (Digested.command p message info method text).bytes = some x) :
    ∃ p' message' info', d = .command p' message' info' method text ∧
      d.contents = (Digested.command p message info method text).contents := by
  have he := (digested_inj hd hc).1 rfl
  cases d with
  | command p' message' info' method' text' =>
    have he' := he
    simp only [Digested.contents, Contents.command.injEq] at he'
    obtain ⟨rfl, -, -, -, -, -, -, rfl⟩ := he'
    exact ⟨p', message', info', rfl, he⟩
  | response => cases he
  | sessionInfo => cases he

theorem timely_of_info {v : Verifier} {message : RoutableMessage} {info : SigInfo} {now : Instant}
    (h : v.verifySessionInfo message info now = none) (method : SignatureType) (text plaintext : Bytes) :
    (Executed.mk v.peer message info method text plaintext (v.peer.timestamp now)).Timely := by
  unfold Verifier.verifySessionInfo at h
  dsimp only at h
  split at h
  · cases h
  split at h
  · cases h
  split at h
  · cases h
  rename_i hexp
  split at h
  · cases h
  rename_i hle
  split at h
  · cases h
  rename_i httl
  refine ⟨?_, Nat.not_lt.1 hle, fun hc => ?_⟩
  · by_cases h0 : info.expiresAt = 0
    · exact Or.inl h0
    · exact Or.inr (UInt32.not_lt.1 fun hlt => hexp ⟨h0, hlt⟩)
  · refine ⟨fun h0 => httl ⟨hc, Or.inl h0⟩, UInt32.not_lt.1 fun hlt => httl ⟨hc, Or.inr hlt⟩⟩

namespace Channel.Inv

variable {P : Primitives} {marshal : SessionInfo → Bytes} {unmarshal : Bytes → Option SessionInfo} {c : Channel}

/-- Something more was authenticated. -/
theorem make (h : c.Inv) (s : Signer) (made : Made)
    (hc : ∀ p message info text, made.use = .command p message info SignatureType.aesGcmPersonalized text → info.counter ≠ 0) :
    ({ c with signer := s, made := made :: c.made } : Channel).Inv := by
  refine ⟨h.tracks, fun e he => ?_, fun made' hm => ?_⟩
  · obtain ⟨p, message, info, hmem, heq⟩ := h.origin e he
    exact ⟨p, message, info, List.mem_cons_of_mem _ hmem, heq⟩
  · rcases List.mem_cons.mp hm with rfl | hm
    · exact hc
    · exact h.counters made' hm

theorem withSigner (h : c.Inv) (s : Signer) : ({ c with signer := s } : Channel).Inv := ⟨h.tracks, h.origin, h.counters⟩

theorem withVerifier (h : c.Inv) {v : Verifier} {epochs : List EpochId} (ht : v.Tracks (counted c.executed) epochs) :
    ({ c with verifier := v, epochs } : Channel).Inv := ⟨ht, h.origin, h.counters⟩

theorem execute (h : c.Inv) {v : Verifier} {epochs : List EpochId} {e : Executed}
    (ht : v.Tracks (counted (e :: c.executed)) epochs) (ho : e.Origin c.made) :
    ({ c with verifier := v, epochs, executed := e :: c.executed } : Channel).Inv := by
  refine ⟨ht, fun e' he => ?_, h.counters⟩
  rcases List.mem_cons.mp he with rfl | he
  · exact ho
  · exact h.origin e' he

theorem deliver (h : c.Inv) {message : RoutableMessage} {m m' : Moment} (hs : c.Sound P (.deliver message m m')) :
    (c.step P marshal unmarshal (.deliver message m m')).Inv := by
  obtain ⟨hg, hd, hd'⟩ := hs
  have hv := @Verifier.verify_verdict P marshal c.verifier message m m'
  simp only [Channel.step]
  generalize c.verifier.verify P marshal message m m' = r at hv
  obtain ⟨v', result⟩ := r
  cases hv with
  | refused ha hv' =>
    have ht := h.tracks.adjust ha hd
    refine h.withVerifier ?_
    rcases hv' with rfl | ⟨e', ha'⟩
    · exact ht.more _
    · exact ht.adjust ha' hd'
  | @accepted vc _ info method text plaintext x ha hadj hinfo hauth hcnt =>
    have ht := (h.tracks.adjust ha hd).more m'.random.1
    have hr := h.tracks.remembers ha hd
    dsimp only
    rw [hadj, Executed.of_authenticates hauth]
    unfold Channel.Genuine at hg
    rw [hadj] at hg
    obtain ⟨made, hmem, hbytes, hplain⟩ := hg info method text plaintext x hauth
    obtain ⟨p, message', info', huse, hcont⟩ := command_of_bytes hbytes hauth.bytes
    obtain ⟨use, made⟩ := made
    obtain rfl : use = _ := huse
    obtain rfl : made = plaintext := hplain
    refine h.execute ?_ ⟨p, message', info', hmem, hcont⟩
    rcases hcnt with ⟨h0, rfl⟩ | ⟨hpos, hok, hv'⟩
    · simpa [counted, h0] using ht
    · have hne : info.counter ≠ 0 := fun h0 => by
        rw [h0] at hpos
        exact UInt32.lt_irrefl _ hpos
      simpa [counted, hne] using ht.accept hr hok hv'

theorem encrypt (h : c.Inv) (message : RoutableMessage) (expiresIn : Int) (now : Instant) (random : RandomRead) :
    (c.step P marshal unmarshal (.encrypt message expiresIn now random)).Inv := by
  have hc := @Signer.encrypt_counter P c.signer message expiresIn now random
  simp only [Channel.step]
  generalize c.signer.encrypt P message expiresIn now random = r at hc
  obtain ⟨s, message', err⟩ := r
  cases err with
  | some e => exact h.withSigner s
  | none =>
    refine h.make s _ fun p message'' info text huse => ?_
    cases huse
    rcases hc with ⟨-, hne⟩ | ⟨hmax, hcount⟩
    · exact absurd rfl hne
    · intro h0
      have hn := congrArg UInt32.toNat (hcount.symm.trans h0)
      rw [toNat_succ hmax] at hn
      cases hn

theorem authorizeHmac (h : c.Inv) (message : RoutableMessage) (expiresIn : Int) (now : Instant) :
    (c.step P marshal unmarshal (.authorizeHmac message expiresIn now)).Inv := by
  simp only [Channel.step]
  generalize c.signer.authorizeHmac P message expiresIn now = r
  obtain ⟨s, message', err⟩ := r
  cases err with
  | some e => exact h.withSigner s
  | none =>
    refine h.make s _ fun p message'' info text huse => ?_
    cases huse

theorem respond (h : c.Inv) (message : RoutableMessage) (id : Option Bytes) (counter : UInt32) (random : RandomRead) :
    (c.step P marshal unmarshal (.respond message id counter random)).Inv := by
  simp only [Channel.step]
  split
  · exact h
  · refine h.make c.signer _ fun p message'' info text huse => ?_
    cases huse

theorem requestInfo (h : c.Inv) (challenge : Option Bytes) {m : Moment} (hd : m.Draws c.epochs) :
    (c.step P marshal unmarshal (.requestInfo challenge m)).Inv := by
  obtain ⟨e, ha⟩ := @Verifier.signedSessionInfo_adjusted P marshal c.verifier challenge m
  have ht := h.tracks.adjust ha hd
  simp only [Channel.step]
  generalize c.verifier.signedSessionInfo P marshal challenge m = r at ht
  obtain ⟨v, result⟩ := r
  cases result with
  | error e => exact h.withVerifier ht
  | ok r =>
    refine (h.withVerifier ht).make c.signer _ fun p message'' info text huse => ?_
    cases huse

theorem step (h : c.Inv) {e : ChannelEvent} (hs : c.Sound P e) : (c.step P marshal unmarshal e).Inv := by
  cases e with
  | encrypt message expiresIn now random => exact h.encrypt message expiresIn now random
  | authorizeHmac message expiresIn now => exact h.authorizeHmac message expiresIn now
  | deliver message m m' => exact h.deliver hs
  | respond message id counter random => exact h.respond message id counter random
  | requestInfo challenge m => exact h.requestInfo challenge hs
  | hello challenge encodedInfo tag now => exact h.withSigner _

theorem fresh (h : c.Fresh) : c.Inv := by
  obtain ⟨hmade, hexec, hepochs, hcounter⟩ := h
  refine ⟨⟨?_, ?_, ?_, ?_⟩, ?_, ?_⟩
  · simp [hexec, counted]
  · simp [hepochs]
  · rw [hexec, hcounter]
    exact Or.inr (.restart _)
  · simp [hexec, counted]
  · simp [hexec]
  · simp [hmade]

theorem reach (h : (Channel.machine P marshal unmarshal).Reach (Channel.Sound P) c) : c.Inv :=
  h.inv (fun _ h0 => fresh h0) fun _ _ hi hs => hi.step hs

end Channel.Inv

/-! ## In time -/

namespace Channel

variable {P : Primitives} {marshal : SessionInfo → Bytes} {unmarshal : Bytes → Option SessionInfo} {c : Channel}

def Timely (c : Channel) : Prop := ∀ e ∈ c.executed, e.Timely

theorem Timely.deliver (h : c.Timely) (message : RoutableMessage) (m m' : Moment) :
    (c.step P marshal unmarshal (.deliver message m m')).Timely := by
  have hv := @Verifier.verify_verdict P marshal c.verifier message m m'
  simp only [Channel.step]
  generalize c.verifier.verify P marshal message m m' = r at hv
  obtain ⟨v', result⟩ := r
  cases hv with
  | refused _ _ => exact h
  | @accepted vc _ info method text plaintext x _ hadj hinfo hauth _ =>
    dsimp only
    rw [hadj, Executed.of_authenticates hauth]
    exact List.forall_mem_cons.2 ⟨timely_of_info hinfo method text plaintext, h⟩

/-- Only a delivery executes anything. -/
theorem Timely.step (h : c.Timely) (e : ChannelEvent) : (c.step P marshal unmarshal e).Timely := by
  have hsame : ∀ {d : Channel}, d.executed = c.executed → d.Timely := fun hd e he => h e (hd ▸ he)
  cases e with
  | deliver message m m' => exact h.deliver message m m'
  | encrypt message expiresIn now random =>
    refine hsame ?_
    simp only [Channel.step]
    split <;> rfl
  | authorizeHmac message expiresIn now =>
    refine hsame ?_
    simp only [Channel.step]
    split <;> rfl
  | respond message id counter random =>
    refine hsame ?_
    simp only [Channel.step]
    split <;> rfl
  | requestInfo challenge m =>
    refine hsame ?_
    simp only [Channel.step]
    split <;> rfl
  | hello challenge encodedInfo tag now => exact hsame rfl

end Channel

/-! ## A replayed command -/

def sampleChannel : Channel where
  signer := sampleSigner
  verifier := { peer := samplePeer domainVehicleSecurity, window := 0#64, handle := 0 }
  made := []
  executed := []
  epochs := [EpochId.zero]

/-- Read while the epoch lasts: what it would draw does not matter. -/
def sampleMoment : Moment := { now := sampleInstant, random := (EpochId.zero, false) }

def sampleEncrypt : ChannelEvent := .encrypt sampleMessage (5 * second) sampleInstant { buffer := [7], err := none }

def sampleSealed : RoutableMessage :=
  (sampleChannel.signer.encrypt openPrimitives sampleMessage (5 * second) sampleInstant { buffer := [7], err := none }).2.1

def sampleDeliver : ChannelEvent := .deliver sampleSealed sampleMoment sampleMoment

abbrev sampleMachine : Machine Channel ChannelEvent := Channel.machine openPrimitives (fun _ => []) fun _ => none

/-- The command is delivered twice. -/
def replayed : Channel := sampleMachine.run sampleChannel [sampleEncrypt, sampleDeliver, sampleDeliver]

def sealedBytes : Bytes :=
  [0, 1, 5, 1, 1, 2, 2, 1, 86, 3, 16, 0, 0, 0, 0, 0, 0, 0, 0, 0, 0, 0, 0, 0, 0, 0, 0, 4, 4, 0, 0, 0, 6, 5, 4, 0, 0, 0, 1, 7, 4, 0, 0, 0, 2,
    255]

/-- Of the sealed message only the signer's own bytes verify. -/
theorem sealed_authenticates {n : UInt32} {info : SigInfo} {method : SignatureType} {text plaintext x : Bytes}
    (h : Authenticates openPrimitives { samplePeer domainVehicleSecurity with counter := n } sampleSealed info method text plaintext x) :
    x = sealedBytes ∧ plaintext = [42] := by
  cases h with
  | @gcm data plaintext x hs hx hp =>
    have hdata : sampleSealed.sigType = some (.aesGcmPersonalizedData
        { epoch := some EpochId.zero.1, nonce := [7], counter := 1, expiresAt := 6, tag := [7] ++ sealedBytes }) := rfl
    rw [hdata] at hs
    cases hs
    have hbytes : x = sealedBytes := (Option.some.inj hx).symm
    subst hbytes
    refine ⟨rfl, ?_⟩
    have hopen : Session.decrypt openPrimitives (samplePeer domainVehicleSecurity).session [7] sampleSealed.getProtobufMessageAsBytes
        (openPrimitives.sha256 sealedBytes) ([7] ++ sealedBytes) = some [42] := rfl
    exact (Option.some.inj (hopen.symm.trans hp)).symm
  | hmac hs _ _ => cases hs

theorem replayed_reach : sampleMachine.Reach (Channel.Sound openPrimitives) replayed := by
  have h0 : sampleMachine.Reach (Channel.Sound openPrimitives) sampleChannel := .init ⟨rfl, rfl, rfl, rfl⟩
  refine h0.run _ ⟨trivial, ⟨?_, ?_, ?_⟩, ⟨?_, ?_, ?_⟩, trivial⟩
  · intro info method text plaintext x h
    obtain ⟨rfl, rfl⟩ := @sealed_authenticates 0 _ _ _ _ _ h
    exact ⟨_, List.mem_singleton_self _, rfl, rfl⟩
  · intro h
    cases h
  · intro h
    cases h
  · intro info method text plaintext x h
    obtain ⟨rfl, rfl⟩ := @sealed_authenticates 1 _ _ _ _ _ h
    exact ⟨_, List.mem_singleton_self _, rfl, rfl⟩
  · intro h
    cases h
  · intro h; cases h

/-- The second delivery was refused. -/
theorem replayed_length : replayed.executed.length = 1 := rfl

def replayedExecution : Executed := replayed.executed.head (List.ne_nil_of_length_pos (by rw [replayed_length]; decide))

/-! ## Safety -/

section

variable {P : Primitives} {marshal : SessionInfo → Bytes} {unmarshal : Bytes → Option SessionInfo} {c : Channel}

/-- Every executed command is one that the signer authorised. -/
theorem executed_authorised (h : (Channel.machine P marshal unmarshal).Reach (Channel.Sound P) c) {e : Executed}
    (he : e ∈ c.executed) :
    ∃ p message info, ⟨.command p message info e.method e.text, e.plaintext⟩ ∈ c.made ∧
      p.verifierName = e.peer.verifierName ∧ p.epoch = e.peer.epoch ∧ info.counter = e.info.counter ∧
      info.expiresAt = e.info.expiresAt ∧ message.flags = e.message.flags ∧
      Destination.getDomain message.toDestination = Destination.getDomain e.message.toDestination := by
  obtain ⟨p, message, info, hmem, hc⟩ := (Channel.Inv.reach h).origin e he
  simp only [Executed.use, Digested.contents, Contents.command.injEq] at hc
  obtain ⟨-, hdomain, hname, hepoch, hexp, hcounter, hflags, -⟩ := hc
  exact ⟨p, message, info, hmem, hname, hepoch, hcounter, hexp, hflags, hdomain⟩

theorem executed_authorised_replayed :
    ∃ p message info, ⟨.command p message info replayedExecution.method replayedExecution.text, replayedExecution.plaintext⟩ ∈
        replayed.made ∧
      p.verifierName = replayedExecution.peer.verifierName ∧ p.epoch = replayedExecution.peer.epoch ∧
      info.counter = replayedExecution.info.counter ∧ info.expiresAt = replayedExecution.info.expiresAt ∧
      message.flags = replayedExecution.message.flags ∧
      Destination.getDomain message.toDestination = Destination.getDomain replayedExecution.message.toDestination :=
  executed_authorised replayed_reach (List.head_mem _)

/-- Whatever is repeated, no counter but 0 is executed twice under one epoch, and what `encrypt`
    authorised never has the counter 0. -/
theorem executed_once (h : (Channel.machine P marshal unmarshal).Reach (Channel.Sound P) c) :
    (counted c.executed).Nodup ∧ ∀ e ∈ c.executed, e.method = SignatureType.aesGcmPersonalized → e.info.counter ≠ 0 := by
  have hi := Channel.Inv.reach h
  refine ⟨hi.tracks.nodup, fun e he hm => ?_⟩
  obtain ⟨p, message, info, hmem, hc⟩ := hi.origin e he
  simp only [Executed.use, Digested.contents, Contents.command.injEq] at hc
  rw [← hc.2.2.2.2.2.1]
  exact hi.counters _ hmem p message info e.text (by rw [hm])

theorem executed_once_replayed :
    (counted replayed.executed).Nodup ∧
      ∀ e ∈ replayed.executed, e.method = SignatureType.aesGcmPersonalized → e.info.counter ≠ 0 :=
  executed_once replayed_reach

/-- No command is executed after its expiry, and none out of order with a long life left. -/
theorem executed_fresh (h : (Channel.machine P marshal unmarshal).Reach (fun _ _ => True) c) {e : Executed}
    (he : e ∈ c.executed) : e.Timely := by
  have htimely : c.Timely := h.inv (fun s h0 e he => by rw [h0.2.1] at he; cases he) fun _ ev hs _ => hs.step ev
  exact htimely e he

theorem executed_fresh_replayed : replayedExecution.Timely :=
  executed_fresh (replayed_reach.mono fun _ _ _ => trivial) (List.head_mem _)

end

end ElectricEel.Vehicle
