/-
  ElectricEel.Vehicle.EarlyResponse — an encrypted response before the handshake
  (vehicle-command/internal/dispatcher: dispatcher.go decrypt, session.go decrypt).

  `decrypt` asks whether the domain has a session, not whether its handshake is complete; a
  session without a signer is dereferenced, and the listening goroutine takes the process
  with it. Proved: the listener lives as long as encrypted responses come only for domains
  whose handshake is complete (`never_panics`); in every state in which it is idle it dies of
  a message exactly if that is an encrypted response, to a pending request, of a domain whose
  session was started and is not ready (`early_response_panics`).
-/
import ElectricEel.Vehicle.Sessions

namespace ElectricEel.Vehicle

open Lib

/-! ## Encrypted responses before the handshake -/

/-- Encrypted responses arrive only for domains whose handshake is complete. -/
def Dispatcher.InTime (d : Dispatcher) : DispatchEvent → Prop
  | .receive message => message.getAesGcmResponseData ≠ none → ∀ key, receiverKey message = .ok key → d.handlers key ≠ none →
      ∃ ctx, d.Has key.domain ctx
  | _ => True

/-- What the listener is about to decrypt has a signer to decrypt it with. -/
structure Dispatcher.Served (d : Dispatcher) : Prop where
  alive : d.listener ≠ .panicked
  signer : ∀ message id r, d.listener = .found message id ∨ d.listener = .updated message id →
    message.getAesGcmResponseData ≠ none → d.receivers[id]? = some r → ∃ ctx, d.Has r.key.domain ctx

namespace Dispatcher

variable {P : Primitives} {unmarshal : Bytes → Option SessionInfo} {exchange : Bytes → Except String Session} {d d' : Dispatcher}

/-- What is not done by the listener leaves it alone, and the receivers as far as it can tell. -/
theorem act_kept {e : DispatchEvent} (hr : ∀ message, e ≠ .receive message) (hl : ∀ now, e ≠ .listen now) :
    Kept d.receivers (d.act P unmarshal exchange e).receivers ∧ (d.act P unmarshal exchange e).listener = d.listener := by
  have haside : ∀ {d' : Dispatcher}, d.Aside d' → Kept d.receivers d'.receivers ∧ d'.listener = d.listener :=
    fun ha => ⟨ha.receivers ▸ Kept.refl _, ha.listener⟩
  cases e with
  | receive message => exact absurd rfl (hr message)
  | listen now => exact absurd rfl (hl now)
  | begin message auth uuid addr => exact haside (begin_aside ..)
  | requestSessionInfo domain publicBytes uuid addr => exact haside (requestSessionInfo_aside ..)
  | startSession domain => exact haside (startSession_aside domain)
  | attempt i lifetime now random => exact haside (attempt_aside ..)
  | abandon i => exact ⟨Kept.refl _, rfl⟩
  | register i now =>
    simp only [act, register]
    split
    · exact ⟨Kept.refl _, rfl⟩
    · split
      · exact ⟨Kept.append _ _, rfl⟩
      · exact ⟨Kept.refl _, rfl⟩
  | close id =>
    simp only [act, closeHandler]
    split <;> exact ⟨Kept.refl _, rfl⟩
  | take id =>
    simp only [act, take]
    split
    · exact ⟨Kept.refl _, rfl⟩
    · rename_i r hr
      exact ⟨Kept.set hr rfl rfl rfl, rfl⟩
  | setMaxLatency latency => exact haside (setMaxLatency_aside latency)
  | stop => exact ⟨Kept.refl _, rfl⟩

theorem Served.idle (h : d.listener = .idle) : d.Served :=
  ⟨by simp [h], fun message id r hl => by simp [h] at hl⟩

theorem Served.decrypted {x : Delivery} {id : Nat} (h : d.listener = .decrypted x id) : d.Served :=
  ⟨by simp [h], fun message id r hl => by simp [h] at hl⟩

/-- The receiver that the listener has found is still the one it found. -/
theorem Served.keep (h : d.Served) (hi : d.Inv) (hk : Kept d.receivers d'.receivers) (hl : d'.listener = d.listener)
    (hs : ∀ domain ctx, d.Has domain ctx → ∃ ctx', d'.Has domain ctx') : d'.Served := by
  refine ⟨hl ▸ h.alive, fun message id r' hl' hg hr' => ?_⟩
  rw [hl] at hl'
  have hfound : ∃ r, d.receivers[id]? = some r := by
    have hok := hi.listener
    rcases hl' with hl' | hl'
    · rw [hl'] at hok
      cases hok with
      | found hr _ => exact ⟨_, hr⟩
    · rw [hl'] at hok
      cases hok with
      | updated hr _ => exact ⟨_, hr⟩
  obtain ⟨r, hr⟩ := hfound
  obtain ⟨r₁, hr₁, hkey, -, -⟩ := hk id r hr
  obtain rfl : r₁ = r' := Option.some.inj (hr₁.symm.trans hr')
  obtain ⟨ctx, hctx⟩ := h.signer message id r hl' hg hr
  rw [hkey]
  exact hs _ ctx hctx

theorem Served.receive (h : d.Served) (hi : d.Inv) {message : RoutableMessage} (hok : d.InTime (.receive message)) :
    (d.receive message).Served := by
  unfold Dispatcher.receive
  split
  · exact h
  rename_i key hkey
  split
  · exact h
  rename_i id hid
  refine ⟨by simp, fun message' id' r hl hg hr => ?_⟩
  rcases hl with hl | hl
  · cases hl
    obtain ⟨r', hr', he⟩ := hi.handlers key id hid
    cases hr.symm.trans hr'
    rw [he]
    exact hok hg key hkey (by rw [hid]; exact Option.some_ne_none id)
  · cases hl

theorem Served.listen (h : d.Served) (now : Instant)
    (hs : ∀ domain ctx, d.Has domain ctx → ∃ ctx', (d.listen P unmarshal exchange now).Has domain ctx') :
    (d.listen P unmarshal exchange now).Served := by
  cases hd : d.listener with
  | idle => rw [show d.listen P unmarshal exchange now = d by simp only [Dispatcher.listen, hd]]; exact h
  | panicked => exact absurd hd h.alive
  | found message id =>
    unfold Dispatcher.listen at hs ⊢
    rw [hd] at hs ⊢
    dsimp only at hs ⊢
    split at hs
    · exact h
    · rename_i r hr
      have hside := @checkForSessionUpdate_aside P unmarshal exchange d message r now
      refine ⟨by simp, fun message' id' r' hl hg hr' => ?_⟩
      rcases hl with hl | hl
      · cases hl
      · cases hl
        dsimp only at hr'
        rw [hside.receivers] at hr'
        obtain ⟨ctx, hctx⟩ := h.signer message id r' (.inl hd) hg hr'
        exact hs _ ctx hctx
  | updated message id =>
    unfold Dispatcher.listen
    rw [hd]
    dsimp only
    cases hr : d.receivers[id]? with
    | none => exact h
    | some r =>
      have hdec := decrypt_decryption P d message r
      dsimp only
      generalize d.decrypt P message r = result at hdec
      obtain ⟨r', result⟩ := result
      cases hdec with
      | plain => exact .decrypted rfl
      | failed => exact .idle rfl
      | replayed => exact .idle rfl
      | decrypted => exact .decrypted rfl
      | panicked hg hsome hnone =>
        obtain ⟨ctx, hctx⟩ := h.signer message id _ (.inr hd) hg hr
        cases hsome.symm.trans hctx
        cases hnone
  | decrypted x id =>
    unfold Dispatcher.listen
    rw [hd]
    dsimp only
    split
    · exact h
    · exact .idle rfl

theorem Served.step (h : d.Served) (hi : d.Inv) {e : DispatchEvent} (hok : d.InTime e) :
    (d.step P unmarshal exchange e).Served := by
  have hs : ∀ domain ctx, d.Has domain ctx → ∃ ctx', (d.step P unmarshal exchange e).Has domain ctx' := by
    intro domain ctx hctx
    obtain ⟨ctx', h', -⟩ := hctx.change (step_change d e)
    exact ⟨ctx', h'⟩
  unfold Dispatcher.step at hs ⊢
  split
  case isFalse => exact h
  rename_i hen
  rw [if_pos hen] at hs
  by_cases hr : ∀ message, e ≠ .receive message
  · by_cases hl : ∀ now, e ≠ .listen now
    · obtain ⟨hk, hlis⟩ := @act_kept P unmarshal exchange d e hr hl
      exact h.keep hi hk hlis hs
    · obtain ⟨now, he⟩ := not_forall.1 hl
      cases Classical.not_not.1 he
      exact h.listen now hs
  · obtain ⟨message, he⟩ := not_forall.1 hr
    cases Classical.not_not.1 he
    exact h.receive hi hok

end Dispatcher

section

variable {P : Primitives} {unmarshal : Bytes → Option SessionInfo} {exchange : Bytes → Except String Session} {d : Dispatcher}

theorem served_of_reach (h : (Dispatcher.machine P unmarshal exchange).Reach Dispatcher.InTime d) : d.Served := by
  induction h with
  | init h0 => exact .idle h0.listener
  | step e hr hok ih => exact ih.step (Dispatcher.Inv.reach hr) hok

theorem never_panics (h : (Dispatcher.machine P unmarshal exchange).Reach Dispatcher.InTime d) : d.listener ≠ .panicked :=
  (served_of_reach h).alive

end

theorem never_panics_answered : sampleAnswered.listener ≠ .panicked := by
  have hsent : sampleDispatch.Reach Dispatcher.InTime sampleSent := (Machine.Reach.init sampleStart_started).run
    (sampleHandshake ++ sampleSend)
    ⟨trivial, trivial, trivial, fun hg => absurd rfl hg, trivial, trivial, trivial, trivial, trivial, trivial, trivial⟩
  refine never_panics (hsent.run sampleReply ⟨fun _ key hkey _ => ?_, trivial, trivial, trivial, trivial⟩)
  cases hkey
  exact ⟨_, rfl⟩

/-! ## When it dies -/

/-- A message with an encrypted response carries no session info tag, so it completes no handshake. -/
theorem getSessionInfoTag_response {message : RoutableMessage} (h : message.getAesGcmResponseData ≠ none) :
    message.getSessionInfoTag = none := by
  unfold RoutableMessage.getAesGcmResponseData at h
  unfold RoutableMessage.getSessionInfoTag
  split at h
  · rw [‹message.sigType = _›]
  · exact absurd rfl h

section

variable {P : Primitives} {unmarshal : Bytes → Option SessionInfo} {exchange : Bytes → Except String Session} {d : Dispatcher}

theorem checkForSessionUpdate_response {message : RoutableMessage} (h : message.getAesGcmResponseData ≠ none) (r : Receiver)
    (now : Instant) : d.checkForSessionUpdate P unmarshal exchange message r now = d := by
  unfold Dispatcher.checkForSessionUpdate
  rw [getSessionInfoTag_response h]
  split
  · rfl
  · split
    · rfl
    · split <;> rfl

theorem decrypt_panicked (message : RoutableMessage) (r : Receiver) :
    (d.decrypt P message r).2 = .panicked ↔
      message.getAesGcmResponseData ≠ none ∧ ∃ s, d.sessions r.key.domain = some s ∧ s.ctx = none := by
  constructor
  · intro h
    have hdec := decrypt_decryption P d message r
    generalize d.decrypt P message r = result at h hdec
    obtain ⟨r', result⟩ := result
    obtain rfl : result = .panicked := h
    cases hdec with
    | panicked hg hs hctx => exact ⟨hg, _, hs, hctx⟩
  · rintro ⟨hg, s, hs, hctx⟩
    unfold Dispatcher.decrypt
    cases hg' : message.getAesGcmResponseData with
    | none => exact absurd hg' hg
    | some data =>
      dsimp only
      rw [hs]
      dsimp only
      rw [hctx]

theorem listen_panicked {message : RoutableMessage} {id : Nat} {r : Receiver} (hd : d.listener = .updated message id)
    (hr : d.receivers[id]? = some r) (now : Instant) :
    (d.listen P unmarshal exchange now).listener = .panicked ↔ (d.decrypt P message r).2 = .panicked := by
  unfold Dispatcher.listen
  rw [hd]
  dsimp only
  rw [hr]
  dsimp only
  generalize d.decrypt P message r = result
  obtain ⟨r', result⟩ := result
  cases result <;> simp

theorem Dispatcher.Settled.unready (h : d.Settled) {domain : Domain} {s : DispatchSession} (hs : d.sessions domain = some s) :
    s.ctx = none ↔ s.ready = false := by
  rcases h domain s hs with rfl | ⟨ctx, rfl⟩
  · simp [DispatchSession.new]
  · simp

theorem receive_found {message : RoutableMessage} {key : ReceiverKey} {id : Nat} (hkey : receiverKey message = .ok key)
    (hid : d.handlers key = some id) : d.receive message = { d with listener := .found message id } := by
  simp only [Dispatcher.receive, hkey, hid]

theorem receive_dropped {message : RoutableMessage} (h : ∀ key, receiverKey message = .ok key → d.handlers key = none) :
    d.receive message = d := by
  unfold Dispatcher.receive
  split
  · rfl
  · rename_i key hkey
    rw [h key hkey]

theorem listen_found {message : RoutableMessage} {id : Nat} {r : Receiver} (hd : d.listener = .found message id)
    (hr : d.receivers[id]? = some r) (now : Instant) : d.listen P unmarshal exchange now =
      { d.checkForSessionUpdate P unmarshal exchange message r now with listener := .updated message id } := by
  simp only [Dispatcher.listen, hd, hr]

theorem step_listen (h : d.listener ≠ .panicked) (now : Instant) :
    d.step P unmarshal exchange (.listen now) = d.listen P unmarshal exchange now := by
  unfold Dispatcher.step Dispatcher.enabled
  split <;> simp_all [Dispatcher.act]

/-- The listener at the message it found a receiver for: it dies at the second of its steps, if at all. -/
theorem found_panicked (hset : d.Settled) {message : RoutableMessage} {id : Nat} {r : Receiver} (hd : d.listener = .found message id)
    (hr : d.receivers[id]? = some r) (now now' : Instant) :
    ((d.step P unmarshal exchange (.listen now)).step P unmarshal exchange (.listen now')).listener = .panicked ↔
      message.getAesGcmResponseData ≠ none ∧ ∃ s, d.sessions r.key.domain = some s ∧ s.ready = false := by
  have hside := @checkForSessionUpdate_aside P unmarshal exchange d message r now
  have hfirst := @listen_found P unmarshal exchange d message id r hd hr now
  have hr' : (d.listen P unmarshal exchange now).receivers[id]? = some r := by
    rw [hfirst]
    exact (congrArg (·[id]?) hside.receivers).trans hr
  have hl' : (d.listen P unmarshal exchange now).listener = .updated message id := by rw [hfirst]
  have hfound : d.listener ≠ .panicked := by simp [hd]
  have hupdated : (d.listen P unmarshal exchange now).listener ≠ .panicked := by simp [hl']
  rw [step_listen hfound, step_listen hupdated, listen_panicked hl' hr', decrypt_panicked]
  refine and_congr_right fun hg => ?_
  have hsess : (d.listen P unmarshal exchange now).sessions = d.sessions := by
    rw [hfirst, checkForSessionUpdate_response hg]
  rw [hsess]
  constructor
  · rintro ⟨s, hs, hctx⟩
    exact ⟨s, hs, (hset.unready hs).1 hctx⟩
  · rintro ⟨s, hs, hready⟩
    exact ⟨s, hs, (hset.unready hs).2 hready⟩

/-- When a message kills the idle listener. -/
theorem early_response_panics (h : (Dispatcher.machine P unmarshal exchange).Reach (fun _ _ => True) d) (hidle : d.listener = .idle)
    (hlistening : d.listening = true) (message : RoutableMessage) (now now' : Instant) :
    ((Dispatcher.machine P unmarshal exchange).run d [.receive message, .listen now, .listen now']).listener = .panicked ↔
      message.getAesGcmResponseData ≠ none ∧ ∃ key s, receiverKey message = .ok key ∧ d.handlers key ≠ none ∧
        d.sessions key.domain = some s ∧ s.ready = false := by
  have hi := Dispatcher.Inv.reach h
  have hset := Dispatcher.Settled.reach h
  have hrec : d.step P unmarshal exchange (.receive message) = d.receive message := by
    simp only [Dispatcher.step, Dispatcher.enabled, hidle, hlistening, if_true, Dispatcher.act]
  change ((((d.step P unmarshal exchange (.receive message)).step P unmarshal exchange (.listen now)).step P unmarshal exchange
    (.listen now')).listener = .panicked) ↔ _
  rw [hrec]
  by_cases hk : ∃ key id, receiverKey message = .ok key ∧ d.handlers key = some id
  · obtain ⟨key, id, hkey, hid⟩ := hk
    obtain ⟨r, hr, hrkey⟩ := hi.handlers key id hid
    rw [receive_found hkey hid]
    refine (@found_panicked P unmarshal exchange { d with listener := .found message id } hset message id r rfl hr now now').trans ?_
    refine and_congr_right fun _ => ?_
    rw [hrkey]
    constructor
    · rintro ⟨s, hs, hready⟩
      exact ⟨key, s, hkey, by simp [hid], hs, hready⟩
    · rintro ⟨key', s, hkey', -, hs, hready⟩
      obtain rfl : key = key' := Except.ok.inj (hkey.symm.trans hkey')
      exact ⟨s, hs, hready⟩
  · have hnone : ∀ key, receiverKey message = .ok key → d.handlers key = none := by
      intro key hkey
      cases hid : d.handlers key with
      | none => rfl
      | some id => exact absurd ⟨key, id, hkey, hid⟩ hk
    have hstay : ∀ now, d.step P unmarshal exchange (.listen now) = d := by
      intro now
      rw [step_listen (by simp [hidle])]
      simp only [Dispatcher.listen, hidle]
    rw [receive_dropped hnone, hstay, hstay, hidle]
    constructor
    · intro hc
      cases hc
    · rintro ⟨-, key, s, hkey, hhand, -⟩
      exact absurd (hnone key hkey) hhand

end

/-- A handshake is under way and its peer answers with an encrypted response. -/
def sampleEarly : RoutableMessage :=
  { sampleResponse helloUuid (.protobufMessageAsBytes [43]) with
    subSigData := some { signerIdentity := none, sigType := some (.aesGcmResponseData { nonce := [9], counter := 1, tag := [] }) } }

theorem early_response_panics_early :
    (sampleDispatch.run (sampleDispatch.run sampleStart (sampleHandshake.take 3))
      [.receive sampleEarly, .listen sampleInstant, .listen sampleInstant]).listener = .panicked := by
  have hstart : sampleDispatch.Reach (fun _ _ => True) sampleStart := .init sampleStart_started
  have hpending := hstart.run (sampleHandshake.take 3) (.of_forall (fun _ _ => trivial) _ _)
  refine (early_response_panics hpending rfl rfl sampleEarly sampleInstant sampleInstant).2 ⟨fun hc => ?_, ?_⟩
  · cases hc
  · exact ⟨_, _, rfl, fun hc => (by cases hc), rfl, rfl⟩

end ElectricEel.Vehicle
