/-
  ElectricEel.Vehicle.Sessions — the sessions of a dispatcher
  (vehicle-command/internal/dispatcher: dispatcher.go, session.go).

  What an event can do to the sessions is said once (`step_change`). From it, over every
  interleaving of senders, handshakes and messages:
  - a session that is complete stays so, with the vehicle's key, name and shared secret it
    was made with (`session_pinned`);
  - its epoch and clock change only by a session info that verifies under that secret and
    answers a request not yet expired (`session_authenticated`);
  - the commands authorised for a domain carry counters that only go up (`session_counters`).
-/
import ElectricEel.Vehicle.Receivers

namespace ElectricEel.Vehicle

open Lib

/-! ## What a step does -/

/-- What `processHello` makes of a session. -/
inductive Hello (P : Primitives) (unmarshal : Bytes → Option SessionInfo) (exchange : Bytes → Except String Session) (vin : Bytes)
    (challenge : Option Bytes) (encodedInfo tag : Bytes) (now : Instant) (s : DispatchSession) : DispatchSession → Prop
  | refused : Hello P unmarshal exchange vin challenge encodedInfo tag now s s
  | made {ctx : Signer} : s.ctx = none → newAuthenticatedSigner P unmarshal exchange vin challenge encodedInfo tag now = .ok ctx →
      Hello P unmarshal exchange vin challenge encodedInfo tag now s { ctx := some ctx, ready := true }
  | updated {ctx : Signer} {info : SessionInfo} : s.ctx = some ctx →
      ctx.peer.session.sessionInfoHmac P ctx.peer.verifierName challenge encodedInfo = .ok tag →
      unmarshal encodedInfo = some info → (ctx.updateSessionInfo info now).2 = none →
      Hello P unmarshal exchange vin challenge encodedInfo tag now s { ctx := some (ctx.updateSessionInfo info now).1, ready := true }

theorem Signer.update_refused {s : Signer} {info : SessionInfo} {now : Instant} {e : AuthError}
    (h : (s.updateSessionInfo info now).2 = some e) : (s.updateSessionInfo info now).1 = s := by
  unfold updateSessionInfo at h ⊢
  split
  · rfl
  · rw [if_neg ‹_›] at h
    split
    · rw [if_pos ‹_›] at h
      cases h
    · rfl

section

variable {P : Primitives} {unmarshal : Bytes → Option SessionInfo} {exchange : Bytes → Except String Session}

theorem processHello_hello (vin : Bytes) (s : DispatchSession) (challenge : Option Bytes) (encodedInfo tag : Bytes) (now : Instant) :
    Hello P unmarshal exchange vin challenge encodedInfo tag now s
      (Dispatcher.processHello P unmarshal exchange vin s challenge encodedInfo tag now).1 := by
  unfold Dispatcher.processHello
  split
  · split
    · exact .refused
    · exact .made ‹_› ‹_›
  · rename_i ctx hctx
    have hsame : ({ s with ctx := some ctx } : DispatchSession) = s := by rw [← hctx]
    unfold Signer.updateSignedSessionInfo
    cases hmac : ctx.peer.session.sessionInfoHmac P ctx.peer.verifierName challenge encodedInfo with
    | error e =>
      dsimp only
      rw [hsame]
      exact .refused
    | ok validTag =>
      dsimp only
      by_cases htag : validTag = tag
      · subst htag
        rw [if_pos rfl]
        cases hinfo : unmarshal encodedInfo with
        | none =>
          dsimp only
          rw [hsame]
          exact .refused
        | some info =>
          dsimp only
          cases herr : (ctx.updateSessionInfo info now).2 with
          | none =>
            have hpair : ctx.updateSessionInfo info now = ((ctx.updateSessionInfo info now).1, none) := Prod.ext rfl herr
            rw [hpair]
            exact .updated hctx hmac hinfo herr
          | some e =>
            have hpair : ctx.updateSessionInfo info now = (ctx, some e) := Prod.ext (Signer.update_refused herr) herr
            rw [hpair]
            dsimp only
            rw [hsame]
            exact .refused
      · rw [if_neg htag]
        dsimp only
        rw [hsame]
        exact .refused

end

/-- What an event can do to the sessions and to what was issued. -/
inductive Dispatcher.Change (P : Primitives) (unmarshal : Bytes → Option SessionInfo) (exchange : Bytes → Except String Session)
    (d d' : Dispatcher) : DispatchEvent → Prop
  | same {e : DispatchEvent} : d'.sessions = d.sessions → d'.issued = d.issued → Change P unmarshal exchange d d' e
  | started {domain : Domain} : d.sessions domain = none → d'.sessions = (d.setSession domain .new).sessions →
      d'.issued = d.issued → Change P unmarshal exchange d d' (.startSession domain)
  | attempted {i : Nat} {lifetime : Int} {now : Instant} {random : RandomRead} {s : Sending} {ctx : Signer} :
      d.sending[i]? = some s → d.sessions s.key.domain = some { ctx := some ctx, ready := true } →
      d'.sessions = (d.setSession s.key.domain
        { ctx := some (authorizeWith P ctx s lifetime now random).1, ready := true }).sessions →
      d'.issued = (if (authorizeWith P ctx s lifetime now random).2.2 = none then
          (s.key.domain, (authorizeWith P ctx s lifetime now random).1.peer.counter) :: d.issued
        else d.issued) →
      Change P unmarshal exchange d d' (.attempt i lifetime now random)
  | hello {now : Instant} {message : RoutableMessage} {id : Nat} {r : Receiver} {encodedInfo tag : Bytes} {s s' : DispatchSession} :
      d.listener = .found message id → d.receivers[id]? = some r → r.expired d.maxLatency now = false →
      message.getSessionInfo = some encodedInfo → message.getSessionInfoTag = some tag → d.sessions r.key.domain = some s →
      Hello P unmarshal exchange d.vin message.requestUuid encodedInfo tag now s s' →
      d'.sessions = (d.setSession r.key.domain s').sessions → d'.issued = d.issued → Change P unmarshal exchange d d' (.listen now)

namespace Dispatcher

variable {P : Primitives} {unmarshal : Bytes → Option SessionInfo} {exchange : Bytes → Except String Session} {d : Dispatcher}

theorem begin_change (message : RoutableMessage) (auth : AuthMethod) (uuid addr : Uuid) (e : DispatchEvent) :
    d.Change P unmarshal exchange (d.begin message auth uuid addr).1 e := by
  unfold begin
  split
  · exact .same rfl rfl
  · split
    · exact .same rfl rfl
    · split
      · split <;> exact .same rfl rfl
      · exact .same rfl rfl

theorem attempt_change (i : Nat) (lifetime : Int) (now : Instant) (random : RandomRead) :
    d.Change P unmarshal exchange (d.attempt P i lifetime now random) (.attempt i lifetime now random) := by
  unfold attempt
  split
  · exact .same rfl rfl
  · rename_i s hs
    split
    · exact .same rfl rfl
    · split
      · exact .attempted hs ‹_› rfl rfl
      · exact .same rfl rfl

theorem checkForSessionUpdate_change {now : Instant} {message : RoutableMessage} {id : Nat} {r : Receiver}
    (hl : d.listener = .found message id) (hr : d.receivers[id]? = some r) (l : Listener) :
    d.Change P unmarshal exchange { d.checkForSessionUpdate P unmarshal exchange message r now with listener := l } (.listen now) := by
  unfold checkForSessionUpdate
  split
  · exact .same rfl rfl
  rename_i encodedInfo hinfo
  split
  · exact .same rfl rfl
  split
  · exact .same rfl rfl
  rename_i hexp
  split
  · exact .same rfl rfl
  rename_i tag htag
  split
  · exact .same rfl rfl
  rename_i s hs
  exact .hello hl hr (Bool.not_eq_true _ ▸ hexp) hinfo htag hs (processHello_hello ..) rfl rfl

theorem listen_change (now : Instant) : d.Change P unmarshal exchange (d.listen P unmarshal exchange now) (.listen now) := by
  unfold listen
  split
  · split
    · exact .same rfl rfl
    · exact checkForSessionUpdate_change ‹_› ‹_› _
  · split
    · exact .same rfl rfl
    · split <;> exact .same rfl rfl
  · split <;> exact .same rfl rfl
  · exact .same rfl rfl
  · exact .same rfl rfl

theorem step_change (d : Dispatcher) (e : DispatchEvent) : d.Change P unmarshal exchange (d.step P unmarshal exchange e) e := by
  unfold step
  split
  case isFalse => exact .same rfl rfl
  cases e with
  | begin message auth uuid addr => exact begin_change ..
  | requestSessionInfo domain publicBytes uuid addr =>
    simp only [act, requestSessionInfo]
    split
    · exact begin_change ..
    · exact .same rfl rfl
  | startSession domain =>
    simp only [act, startSession]
    split
    · exact .started ‹_› rfl rfl
    · exact .same rfl rfl
  | attempt i lifetime now random => exact attempt_change ..
  | abandon i => exact .same rfl rfl
  | register i now =>
    simp only [act, register]
    split
    · exact .same rfl rfl
    · split <;> exact .same rfl rfl
  | close id =>
    simp only [act, closeHandler]
    split <;> exact .same rfl rfl
  | take id =>
    simp only [act, take]
    split <;> exact .same rfl rfl
  | setMaxLatency latency =>
    simp only [act, setMaxLatency]
    split <;> exact .same rfl rfl
  | receive message =>
    simp only [act, receive]
    split
    · exact .same rfl rfl
    · split <;> exact .same rfl rfl
  | listen now => exact listen_change now
  | stop => exact .same rfl rfl

end Dispatcher

/-! ## Completed sessions -/

/-- The same vehicle, name and shared secret. -/
structure Signer.SameKeys (s s' : Signer) : Prop where
  publicKey : s'.verifierPublicBytes = s.verifierPublicBytes
  session : s'.peer.session = s.peer.session
  name : s'.peer.verifierName = s.peer.verifierName

theorem Signer.SameKeys.refl (s : Signer) : s.SameKeys s := ⟨rfl, rfl, rfl⟩

theorem Signer.SameKeys.trans {s t u : Signer} (h : s.SameKeys t) (h' : t.SameKeys u) : s.SameKeys u :=
  ⟨h'.publicKey.trans h.publicKey, h'.session.trans h.session, h'.name.trans h.name⟩

theorem updateSessionInfo_keys (s : Signer) (info : SessionInfo) (now : Instant) : s.SameKeys (s.updateSessionInfo info now).1 := by
  unfold Signer.updateSessionInfo
  split
  · exact .refl s
  · split <;> exact ⟨rfl, rfl, rfl⟩

theorem authorizeHmac_keys (P : Primitives) (s : Signer) (message : RoutableMessage) (expiresIn : Int) (now : Instant) :
    s.SameKeys (s.authorizeHmac P message expiresIn now).1 := by
  unfold Signer.authorizeHmac
  dsimp only
  split <;> exact ⟨rfl, rfl, rfl⟩

theorem encrypt_keys (P : Primitives) (s : Signer) (message : RoutableMessage) (expiresIn : Int) (now : Instant)
    (random : RandomRead) : s.SameKeys (s.encrypt P message expiresIn now random).1 := by
  unfold Signer.encrypt
  split
  · exact .refl s
  · exact ⟨rfl, rfl, rfl⟩

theorem authorizeWith_keys (P : Primitives) (ctx : Signer) (s : Sending) (lifetime : Int) (now : Instant) (random : RandomRead) :
    ctx.SameKeys (Dispatcher.authorizeWith P ctx s lifetime now random).1 := by
  unfold Dispatcher.authorizeWith
  split
  · exact encrypt_keys ..
  · exact authorizeHmac_keys ..

/-- The domain's handshake is complete, with that signer. -/
def Dispatcher.Has (d : Dispatcher) (domain : Domain) (ctx : Signer) : Prop :=
  d.sessions domain = some { ctx := some ctx, ready := true }

/-- A session is complete or has no signer. -/
def Dispatcher.Settled (d : Dispatcher) : Prop :=
  ∀ domain s, d.sessions domain = some s → s = .new ∨ ∃ ctx, s = { ctx := some ctx, ready := true }

namespace Dispatcher

variable {P : Primitives} {unmarshal : Bytes → Option SessionInfo} {exchange : Bytes → Except String Session} {d d' : Dispatcher}

theorem setSession_self (d : Dispatcher) (domain : Domain) (s : DispatchSession) : (d.setSession domain s).sessions domain = some s :=
  if_pos rfl

theorem setSession_ne (d : Dispatcher) {domain domain' : Domain} (s : DispatchSession) (h : domain' ≠ domain) :
    (d.setSession domain s).sessions domain' = d.sessions domain' := if_neg h

theorem Settled.set (h : d.Settled) {domain : Domain} {s : DispatchSession}
    (hs : s = .new ∨ ∃ ctx, s = { ctx := some ctx, ready := true }) {d' : Dispatcher}
    (he : d'.sessions = (d.setSession domain s).sessions) : d'.Settled := by
  intro domain' s' hs'
  rw [he] at hs'
  by_cases hd : domain' = domain
  · subst hd
    rw [setSession_self] at hs'
    cases hs'
    exact hs
  · rw [setSession_ne d s hd] at hs'
    exact h domain' s' hs'

theorem Settled.change (h : d.Settled) {e : DispatchEvent} (hc : d.Change P unmarshal exchange d' e) : d'.Settled := by
  cases hc with
  | same hs _ =>
    intro domain s hd
    exact h domain s (hs ▸ hd)
  | started _ hs _ => exact h.set (.inl rfl) hs
  | attempted _ _ hs _ => exact h.set (.inr ⟨_, rfl⟩) hs
  | hello _ _ _ _ _ hold hh hs _ =>
    refine h.set ?_ hs
    cases hh with
    | refused => exact h _ _ hold
    | made => exact .inr ⟨_, rfl⟩
    | updated => exact .inr ⟨_, rfl⟩

theorem Settled.reach {ok : Dispatcher → DispatchEvent → Prop} (h : (machine P unmarshal exchange).Reach ok d) : d.Settled := by
  induction h with
  | init h0 =>
    intro domain s hs
    rw [h0.sessions] at hs
    cases hs
  | step e _ _ ih => exact ih.change (step_change _ e)

/-- A complete session stays complete, its signer's keys the same. -/
theorem Has.change {domain : Domain} {ctx : Signer} (h : d.Has domain ctx) {e : DispatchEvent}
    (hc : d.Change P unmarshal exchange d' e) : ∃ ctx', d'.Has domain ctx' ∧ ctx.SameKeys ctx' := by
  cases hc with
  | same hs _ => exact ⟨ctx, by rw [Has, hs]; exact h, .refl ctx⟩
  | @started domain' hn hs _ =>
    have hne : domain ≠ domain' := by
      rintro rfl
      rw [h] at hn
      cases hn
    exact ⟨ctx, by rw [Has, hs, setSession_ne d _ hne]; exact h, .refl ctx⟩
  | @attempted i lifetime now random s ctx₁ _ hold hs _ =>
    by_cases hd : domain = s.key.domain
    · subst hd
      obtain rfl : ctx = ctx₁ := by
        rw [h] at hold
        cases hold
        rfl
      exact ⟨_, by rw [Has, hs, setSession_self], authorizeWith_keys ..⟩
    · exact ⟨ctx, by rw [Has, hs, setSession_ne d _ hd]; exact h, .refl ctx⟩
  | @hello now message id r encodedInfo tag s s' _ _ _ _ _ hold hh hs _ =>
    by_cases hd : domain = r.key.domain
    · subst hd
      obtain rfl : s = { ctx := some ctx, ready := true } := Option.some.inj (hold.symm.trans h)
      cases hh with
      | refused => exact ⟨ctx, by rw [Has, hs, setSession_self], .refl ctx⟩
      | made hn => cases hn
      | updated hctx _ _ _ =>
        cases hctx
        exact ⟨_, by rw [Has, hs, setSession_self], updateSessionInfo_keys ..⟩
    · exact ⟨ctx, by rw [Has, hs, setSession_ne d _ hd]; exact h, .refl ctx⟩

end Dispatcher

section

variable {P : Primitives} {unmarshal : Bytes → Option SessionInfo} {exchange : Bytes → Except String Session} {d d' : Dispatcher}

/-- Whatever happens next, the signer of a complete session speaks to the vehicle it was made for. -/
theorem session_pinned (h : (Dispatcher.machine P unmarshal exchange).Path (fun _ _ => True) d d') {domain : Domain} {ctx : Signer}
    (hc : d.Has domain ctx) : ∃ ctx', d'.Has domain ctx' ∧ ctx'.verifierPublicBytes = ctx.verifierPublicBytes ∧
      ctx'.peer.session = ctx.peer.session ∧ ctx'.peer.verifierName = ctx.peer.verifierName := by
  have hkeys : ∃ ctx', d'.Has domain ctx' ∧ ctx.SameKeys ctx' := by
    induction h with
    | refl => exact ⟨ctx, hc, .refl ctx⟩
    | tail _ hst ih =>
      obtain ⟨ctx₁, h₁, hk₁⟩ := ih
      obtain ⟨e, -, rfl⟩ := hst
      obtain ⟨ctx₂, h₂, hk₂⟩ := h₁.change (Dispatcher.step_change _ e)
      exact ⟨ctx₂, h₂, hk₁.trans hk₂⟩
  obtain ⟨ctx', hh, hk⟩ := hkeys
  exact ⟨ctx', hh, hk.publicKey, hk.session, hk.name⟩

end

def sampleGreeted : Dispatcher := sampleDispatch.run sampleStart sampleHandshake

def sampleGreetedSigner : Signer := ((sampleGreeted.sessions domainInfotainment).bind (·.ctx)).getD sampleSigner

theorem sampleSent_path : sampleDispatch.Path (fun _ _ => True) sampleGreeted sampleSent :=
  (((Relation.ReflTransGen.refl).tail ⟨_, trivial, rfl⟩).tail ⟨_, trivial, rfl⟩).tail ⟨_, trivial, rfl⟩

theorem session_pinned_sent :
    ∃ ctx', sampleSent.Has domainInfotainment ctx' ∧ ctx'.verifierPublicBytes = sampleGreetedSigner.verifierPublicBytes ∧
      ctx'.peer.session = sampleGreetedSigner.peer.session ∧ ctx'.peer.verifierName = sampleGreetedSigner.peer.verifierName :=
  session_pinned sampleSent_path rfl

/-! ## Session info -/

/-- Session info that verifies and answers a request that is not yet expired. -/
structure Introduced (P : Primitives) (unmarshal : Bytes → Option SessionInfo) (d : Dispatcher) (now : Instant) (domain : Domain)
    (message : RoutableMessage) (info : SessionInfo) (ctx : Signer) : Prop where
  receiver : ∃ id r, d.listener = .found message id ∧ d.receivers[id]? = some r ∧ r.key.domain = domain ∧
    Answers r.key message ∧ r.expired d.maxLatency now = false
  verifies : ∃ encodedInfo tag, message.getSessionInfo = some encodedInfo ∧ unmarshal encodedInfo = some info ∧
    message.getSessionInfoTag = some tag ∧
    ctx.peer.session.sessionInfoHmac P ctx.peer.verifierName message.requestUuid encodedInfo = .ok tag
  publicKey : info.publicKey = ctx.verifierPublicBytes
  counter : info.counter ≤ ctx.peer.counter
  epoch : ∃ old : EpochId, ctx.peer.epoch = old.copy info.epoch
  setTime : ctx.setTime = info.clockTime
  timeZero : ctx.peer.timeZero = epochStartTime now info.clockTime

theorem newAuthenticatedSigner_ok {P : Primitives} {unmarshal : Bytes → Option SessionInfo}
    {exchange : Bytes → Except String Session} {verifierName : Bytes} {challenge : Option Bytes} {encodedInfo tag : Bytes}
    {now : Instant} {ctx : Signer}
    (h : newAuthenticatedSigner P unmarshal exchange verifierName challenge encodedInfo tag now = .ok ctx) :
    ∃ info, unmarshal encodedInfo = some info ∧ info.publicKey = ctx.verifierPublicBytes ∧ ctx.peer.counter = info.counter ∧
      ctx.peer.epoch = EpochId.zero.copy info.epoch ∧ ctx.setTime = info.clockTime ∧
      ctx.peer.timeZero = epochStartTime now info.clockTime ∧
      ctx.peer.session.sessionInfoHmac P ctx.peer.verifierName challenge encodedInfo = .ok tag := by
  unfold newAuthenticatedSigner at h
  split at h
  · cases h
  rename_i signer himport
  split at h
  · cases h
  rename_i validTag hmac
  split at h
  case isFalse => cases h
  rename_i htag
  subst htag
  cases h
  unfold importSessionInfo at himport
  split at himport
  · cases himport
  rename_i info hinfo
  unfold newSigner at himport
  split at himport
  case isFalse => cases himport
  split at himport
  · cases himport
  · cases himport
    exact ⟨info, hinfo, rfl, rfl, rfl, rfl, rfl, hmac⟩

theorem updateSessionInfo_taken {s : Signer} {info : SessionInfo} {now : Instant} (h : (s.updateSessionInfo info now).2 = none) :
    (s.updateSessionInfo info now).1 = s ∨
      info.publicKey = (s.updateSessionInfo info now).1.verifierPublicBytes ∧
        info.counter ≤ (s.updateSessionInfo info now).1.peer.counter ∧
        (s.updateSessionInfo info now).1.peer.epoch = s.peer.epoch.copy info.epoch ∧
        (s.updateSessionInfo info now).1.setTime = info.clockTime ∧
        (s.updateSessionInfo info now).1.peer.timeZero = epochStartTime now info.clockTime := by
  unfold Signer.updateSessionInfo at h ⊢
  by_cases hkey : info.publicKey ≠ s.verifierPublicBytes
  · rw [if_pos hkey] at h
    cases h
  · rw [if_neg hkey]
    split
    · refine .inr ⟨Decidable.not_not.1 hkey, ?_, rfl, rfl, rfl⟩
      dsimp only
      split
      · exact UInt32.le_refl _
      · exact UInt32.not_lt.1 ‹_›
    · exact .inl rfl

theorem encrypt_clock (P : Primitives) (s : Signer) (message : RoutableMessage) (expiresIn : Int) (now : Instant)
    (random : RandomRead) : (s.encrypt P message expiresIn now random).1.peer.epoch = s.peer.epoch ∧
      (s.encrypt P message expiresIn now random).1.setTime = s.setTime ∧
      (s.encrypt P message expiresIn now random).1.peer.timeZero = s.peer.timeZero := by
  unfold Signer.encrypt
  split <;> exact ⟨rfl, rfl, rfl⟩

theorem authorizeHmac_clock (P : Primitives) (s : Signer) (message : RoutableMessage) (expiresIn : Int) (now : Instant) :
    (s.authorizeHmac P message expiresIn now).1.peer.epoch = s.peer.epoch ∧
      (s.authorizeHmac P message expiresIn now).1.setTime = s.setTime ∧
      (s.authorizeHmac P message expiresIn now).1.peer.timeZero = s.peer.timeZero := by
  unfold Signer.authorizeHmac
  dsimp only
  split <;> exact ⟨rfl, rfl, rfl⟩

theorem authorizeWith_clock (P : Primitives) (ctx : Signer) (s : Sending) (lifetime : Int) (now : Instant) (random : RandomRead) :
    (Dispatcher.authorizeWith P ctx s lifetime now random).1.peer.epoch = ctx.peer.epoch ∧
      (Dispatcher.authorizeWith P ctx s lifetime now random).1.setTime = ctx.setTime ∧
      (Dispatcher.authorizeWith P ctx s lifetime now random).1.peer.timeZero = ctx.peer.timeZero := by
  unfold Dispatcher.authorizeWith
  split
  · exact encrypt_clock ..
  · exact authorizeHmac_clock ..

section

variable {P : Primitives} {unmarshal : Bytes → Option SessionInfo} {exchange : Bytes → Except String Session} {d : Dispatcher}

theorem found_answers (hi : d.Inv) {message : RoutableMessage} {id : Nat} {r : Receiver} (hl : d.listener = .found message id)
    (hr : d.receivers[id]? = some r) : Answers r.key message := by
  have hok := hi.listener
  rw [hl] at hok
  cases hok with
  | found hr' ha =>
    cases hr.symm.trans hr'
    exact ha

theorem Introduced.of_hello (hi : d.Inv) {now : Instant} {message : RoutableMessage} {id : Nat} {r : Receiver}
    {encodedInfo tag : Bytes} {s s' : DispatchSession} {ctx' : Signer} (hl : d.listener = .found message id)
    (hr : d.receivers[id]? = some r) (hexp : r.expired d.maxLatency now = false)
    (hinfo : message.getSessionInfo = some encodedInfo) (htag : message.getSessionInfoTag = some tag)
    (hh : Hello P unmarshal exchange d.vin message.requestUuid encodedInfo tag now s s') (hctx : s'.ctx = some ctx') :
    s.ctx = some ctx' ∨ ∃ info, Introduced P unmarshal d now r.key.domain message info ctx' := by
  have hreceiver : ∃ id' r', d.listener = .found message id' ∧ d.receivers[id']? = some r' ∧ r'.key.domain = r.key.domain ∧
      Answers r'.key message ∧ r'.expired d.maxLatency now = false := ⟨id, r, hl, hr, rfl, found_answers hi hl hr, hexp⟩
  cases hh with
  | refused => exact .inl hctx
  | made _ hnew =>
    cases hctx
    obtain ⟨info, hu, hkey, hcount, hepoch, hset, hzero, hmac⟩ := newAuthenticatedSigner_ok hnew
    exact .inr ⟨info, hreceiver, ⟨encodedInfo, tag, hinfo, hu, htag, hmac⟩, hkey, hcount ▸ UInt32.le_refl _, ⟨_, hepoch⟩, hset, hzero⟩
  | @updated ctx info hold hmac hu herr =>
    cases hctx
    rcases updateSessionInfo_taken herr with he | ⟨hkey, hcount, hepoch, hset, hzero⟩
    · exact .inl (hold.trans (congrArg some he.symm))
    · have hkeys := updateSessionInfo_keys ctx info now
      refine .inr ⟨info, hreceiver, ⟨encodedInfo, tag, hinfo, hu, htag, ?_⟩, hkey, hcount, ⟨_, hepoch⟩, hset, hzero⟩
      rw [hkeys.session, hkeys.name]
      exact hmac

/-- In every state, a step leaves the epoch and clock of a domain's signer alone, or takes them from
    session info that verifies and answers a pending request. -/
theorem session_authenticated (h : (Dispatcher.machine P unmarshal exchange).Reach (fun _ _ => True) d) (e : DispatchEvent)
    {domain : Domain} {ctx' : Signer} (hc : (d.step P unmarshal exchange e).Has domain ctx') :
    (∃ ctx, d.Has domain ctx ∧ ctx'.peer.epoch = ctx.peer.epoch ∧ ctx'.setTime = ctx.setTime ∧
        ctx'.peer.timeZero = ctx.peer.timeZero) ∨
      ∃ now message info, e = .listen now ∧ Introduced P unmarshal d now domain message info ctx' := by
  have hi := Dispatcher.Inv.reach h
  have hset := Dispatcher.Settled.reach h
  generalize hd' : d.step P unmarshal exchange e = d' at hc
  have hchange : d.Change P unmarshal exchange d' e := hd' ▸ Dispatcher.step_change d e
  have hsame : d.Has domain ctx' → ∃ ctx, d.Has domain ctx ∧ ctx'.peer.epoch = ctx.peer.epoch ∧ ctx'.setTime = ctx.setTime ∧
      ctx'.peer.timeZero = ctx.peer.timeZero := fun hh => ⟨ctx', hh, rfl, rfl, rfl⟩
  unfold Dispatcher.Has at hc
  cases hchange with
  | same hs _ =>
    rw [hs] at hc
    exact .inl (hsame hc)
  | @started domain' _ hs _ =>
    rw [hs] at hc
    by_cases hd : domain = domain'
    · subst hd
      rw [Dispatcher.setSession_self] at hc
      cases hc
    · rw [Dispatcher.setSession_ne d _ hd] at hc
      exact .inl (hsame hc)
  | @attempted i lifetime now random s ctx _ hold hs _ =>
    rw [hs] at hc
    by_cases hd : domain = s.key.domain
    · subst hd
      rw [Dispatcher.setSession_self] at hc
      cases hc
      exact .inl ⟨ctx, hold, authorizeWith_clock ..⟩
    · rw [Dispatcher.setSession_ne d _ hd] at hc
      exact .inl (hsame hc)
  | @hello now message id r encodedInfo tag s s' hl hr hexp hinfo htag hold hh hs _ =>
    rw [hs] at hc
    by_cases hd : domain = r.key.domain
    · subst hd
      rw [Dispatcher.setSession_self] at hc
      have hctx : s'.ctx = some ctx' := by rw [Option.some.inj hc]
      rcases Introduced.of_hello hi hl hr hexp hinfo htag hh hctx with hold' | ⟨info, hint⟩
      · refine .inl (hsame ?_)
        rcases hset _ _ hold with rfl | ⟨ctx, rfl⟩
        · cases hold'
        · cases hold'
          exact hold
      · exact .inr ⟨now, message, info, rfl, hint⟩
    · rw [Dispatcher.setSession_ne d _ hd] at hc
      exact .inl (hsame hc)

end

def sampleFound : Dispatcher := sampleDispatch.run sampleStart (sampleHandshake.take 4)

theorem session_authenticated_hello :
    (∃ ctx, sampleFound.Has domainInfotainment ctx ∧ sampleGreetedSigner.peer.epoch = ctx.peer.epoch ∧
        sampleGreetedSigner.setTime = ctx.setTime ∧ sampleGreetedSigner.peer.timeZero = ctx.peer.timeZero) ∨
      ∃ now message info, DispatchEvent.listen sampleInstant = .listen now ∧
        Introduced keylessPrimitives (fun _ => some sampleInfo) sampleFound now domainInfotainment message info sampleGreetedSigner :=
  have hfound := (Machine.Reach.init sampleStart_started).run (sampleHandshake.take 4) (.of_forall (fun _ _ => trivial) _ _)
  session_authenticated hfound (.listen sampleInstant) rfl

/-! ## Counters -/

/-- Newest first. -/
def Dispatcher.issuedFor (d : Dispatcher) (domain : Domain) : List UInt32 := (d.issued.filter (·.1 = domain)).map (·.2)

/-- An increment that nothing checks does not wrap. -/
def Dispatcher.NoWrap (d : Dispatcher) : DispatchEvent → Prop
  | .attempt i _ _ _ => ∀ s ctx, d.sending[i]? = some s → s.auth ≠ .gcm → d.Has s.key.domain ctx → ctx.peer.counter ≠ 0xFFFFFFFF
  | _ => True

/-- What was issued for the domain lies at or below its signer's counter. -/
def Dispatcher.Counted (d : Dispatcher) (domain : Domain) : Prop :=
  d.issuedFor domain = [] ∨ ∃ ctx, d.Has domain ctx ∧ Increasing 0 ctx.peer.counter (d.issuedFor domain)

theorem Increasing.nil (high : UInt32) : Increasing 0 high [] :=
  ⟨List.Pairwise.nil, fun _ hc => absurd hc List.not_mem_nil, fun _ hc => absurd hc List.not_mem_nil, UInt32.zero_le⟩

/-- The counter stayed, the attempt failing, or moved by one. -/
theorem authorizeWith_counter {P : Primitives} {ctx : Signer} {s : Sending} {lifetime : Int} {now : Instant} {random : RandomRead}
    (hw : s.auth ≠ .gcm → ctx.peer.counter ≠ 0xFFFFFFFF) :
    (Dispatcher.authorizeWith P ctx s lifetime now random).1 = ctx ∧ (Dispatcher.authorizeWith P ctx s lifetime now random).2.2 ≠ none ∨
      ctx.peer.counter ≠ 0xFFFFFFFF ∧
        (Dispatcher.authorizeWith P ctx s lifetime now random).1.peer.counter = ctx.peer.counter + 1 := by
  unfold Dispatcher.authorizeWith
  split
  · exact Signer.encrypt_counter
  · exact .inr ⟨hw ‹_›, Signer.authorizeHmac_counter ..⟩

namespace Dispatcher

variable {P : Primitives} {unmarshal : Bytes → Option SessionInfo} {exchange : Bytes → Except String Session} {d d' : Dispatcher}

theorem Counted.keep {domain : Domain} (h : d.Counted domain) (hs : d'.sessions = d.sessions) (hi : d'.issued = d.issued) :
    d'.Counted domain := by
  unfold Counted issuedFor Has
  rw [hi, hs]
  exact h

/-- The domain's signer changed, nothing was issued, and its counter did not go down. -/
theorem Counted.raise {domain : Domain} (h : d.Counted domain) (hi : d'.issued = d.issued)
    (hup : ∀ ctx, d.Has domain ctx → ∃ ctx', d'.Has domain ctx' ∧ ctx.peer.counter ≤ ctx'.peer.counter) : d'.Counted domain := by
  unfold Counted issuedFor
  rw [hi]
  rcases h with h | ⟨ctx, hc, hinc⟩
  · exact .inl h
  · obtain ⟨ctx', hc', hle⟩ := hup ctx hc
    exact .inr ⟨ctx', hc', hinc.raise hle⟩

theorem Counted.change (h : ∀ domain, d.Counted domain) {e : DispatchEvent} (hc : d.Change P unmarshal exchange d' e)
    (hok : d.NoWrap e) (domain : Domain) : d'.Counted domain := by
  cases hc with
  | same hs hi => exact (h domain).keep hs hi
  | @started domain' hn hs hi =>
    refine (h domain).raise hi fun ctx hctx => ⟨ctx, ?_, UInt32.le_refl _⟩
    have hne : domain ≠ domain' := by
      intro hd
      rw [Has, hd, hn] at hctx
      cases hctx
    rw [Has, hs, setSession_ne d _ hne]
    exact hctx
  | @hello now message id r encodedInfo tag s s' _ _ _ _ _ hold hh hs hi =>
    refine (h domain).raise hi fun ctx hctx => ?_
    by_cases hd : domain = r.key.domain
    · subst hd
      obtain rfl : s = { ctx := some ctx, ready := true } := Option.some.inj (hold.symm.trans hctx)
      unfold Has
      rw [hs, setSession_self]
      cases hh with
      | refused => exact ⟨ctx, rfl, UInt32.le_refl _⟩
      | made hn => cases hn
      | updated hctx' _ _ _ =>
        cases hctx'
        exact ⟨_, rfl, Signer.update_counter ..⟩
    · exact ⟨ctx, by rw [Has, hs, setSession_ne d _ hd]; exact hctx, UInt32.le_refl _⟩
  | @attempted i lifetime now random s ctx hsend hold hs hi =>
    have hw : s.auth ≠ .gcm → ctx.peer.counter ≠ 0xFFFFFFFF := fun ha => hok s ctx hsend ha hold
    by_cases hd : domain = s.key.domain
    · subst hd
      have hold' : Increasing 0 ctx.peer.counter (d.issuedFor s.key.domain) := by
        rcases h s.key.domain with he | ⟨ctx', hc', hinc⟩
        · rw [he]
          exact .nil _
        · cases hold.symm.trans hc'
          exact hinc
      refine .inr ⟨(authorizeWith P ctx s lifetime now random).1, by rw [Has, hs, setSession_self], ?_⟩
      have hissued : d'.issuedFor s.key.domain =
          if (authorizeWith P ctx s lifetime now random).2.2 = none then
            (authorizeWith P ctx s lifetime now random).1.peer.counter :: d.issuedFor s.key.domain
          else d.issuedFor s.key.domain := by
        unfold issuedFor
        rw [hi]
        split <;> simp
      rw [hissued]
      rcases @authorizeWith_counter P ctx s lifetime now random hw with ⟨hsame, herr⟩ | ⟨hne, hnext⟩
      · rw [hsame, if_neg herr]
        exact hold'
      · rw [hnext]
        exact hold'.issue hne _
    · have hissued : d'.issuedFor domain = d.issuedFor domain := by
        unfold issuedFor
        rw [hi]
        split
        · simp [Ne.symm hd]
        · rfl
      unfold Counted Has
      rw [hissued, hs, setSession_ne d _ hd]
      exact h domain

end Dispatcher

section

variable {P : Primitives} {unmarshal : Bytes → Option SessionInfo} {exchange : Bytes → Except String Session} {d : Dispatcher}

/-- However the senders of a domain interleave and whatever session infos arrive between them, no
    two commands are authorised with one counter, and a later one has the higher. -/
theorem session_counters (h : (Dispatcher.machine P unmarshal exchange).Reach Dispatcher.NoWrap d) (domain : Domain) :
    (d.issuedFor domain).Pairwise (· > ·) ∧
      ∀ c ∈ d.issuedFor domain, ∃ ctx, d.Has domain ctx ∧ c ≤ ctx.peer.counter := by
  have hcounted : ∀ domain, d.Counted domain := by
    induction h with
    | init h0 =>
      intro domain
      refine .inl ?_
      rw [Dispatcher.issuedFor, h0.issued]
      rfl
    | step e _ hok ih => exact Dispatcher.Counted.change ih (Dispatcher.step_change _ e) hok
  rcases hcounted domain with he | ⟨ctx, hc, hinc⟩
  · rw [he]
    exact ⟨List.Pairwise.nil, fun c hmem => absurd hmem List.not_mem_nil⟩
  · exact ⟨hinc.sorted, fun c hmem => ⟨ctx, hc, hinc.upTo c hmem⟩⟩

end

/-- Two senders at once: the one that began last authorises first, the other with HMAC. -/
def sampleInterleaved : List DispatchEvent :=
  [.begin sampleCommand .hmac helloUuid EpochId.zero, .begin sampleCommand .gcm commandUuid EpochId.zero,
    .attempt 1 (5 * second) sampleInstant { buffer := [7], err := none }, .attempt 0 (5 * second) sampleInstant { buffer := [], err := none },
    .register 0 sampleInstant, .register 0 sampleInstant]

def sampleBothSent : Dispatcher := sampleDispatch.run sampleStart (sampleHandshake ++ sampleInterleaved)

theorem sampleBothSent_noWrap : sampleDispatch.Reach Dispatcher.NoWrap sampleBothSent := by
  refine (Machine.Reach.init sampleStart_started).run (sampleHandshake ++ sampleInterleaved)
    ⟨trivial, trivial, trivial, trivial, trivial, trivial, trivial, trivial, trivial, fun s _ hs ha => ?_, fun s ctx hs _ hc => ?_,
      trivial, trivial, trivial⟩
  · cases hs
    exact absurd rfl ha
  · cases hs
    cases hc
    decide

theorem session_counters_sent :
    sampleBothSent.issuedFor domainInfotainment = [22, 21] ∧ (sampleBothSent.issuedFor domainInfotainment).Pairwise (· > ·) ∧
      ∀ c ∈ sampleBothSent.issuedFor domainInfotainment, ∃ ctx, sampleBothSent.Has domainInfotainment ctx ∧ c ≤ ctx.peer.counter :=
  ⟨by decide, session_counters sampleBothSent_noWrap domainInfotainment⟩

end ElectricEel.Vehicle
