/-
  ElectricEel.Vehicle.Receivers — what a request's receiver is given
  (vehicle-command/internal/dispatcher).

  Proved, of every reachable state of the dispatcher and every receiver, also one that was
  closed: what it was given came from its domain to its address and, outside VCSEC, for its
  UUID; no two of the encrypted responses it was given carried one counter; its channel
  holds at most ten of them, the newest (`receiver_given`). Where the vehicle's tags cannot be
  forged, each encrypted response was made for that very request (`response_for_request`).
-/
import Mathlib.Data.List.Infix
import ElectricEel.Vehicle.Channel
import ElectricEel.Vehicle.Dispatcher

namespace ElectricEel.Vehicle

open Lib

/-! ## Routing -/

/-- The message is addressed to the receiver of that key. -/
structure Answers (key : ReceiverKey) (message : RoutableMessage) : Prop where
  address : message.toDestination = some { subDestination := some (.routingAddress key.address.1) }
  domain : Destination.getDomain message.fromDestination = key.domain
  uuid : key.domain ≠ domainVehicleSecurity → key.uuid = EpochId.zero.copy (message.requestUuid.getD [])

theorem copy_full {e : EpochId} {b : Bytes} (h : b.length = 16) : (e.copy b).1 = b := by
  have he : e.1.length = 16 := e.2
  simp only [EpochId.copy, epochIdLength]
  rw [List.take_of_length_le (by omega), List.drop_eq_nil_of_le (by omega), List.append_nil]

theorem receiverKey_answers {message : RoutableMessage} {key : ReceiverKey} (h : receiverKey message = .ok key) :
    Answers key message := by
  unfold receiverKey at h
  split at h
  · cases h
  dsimp only at h
  split at h
  · cases h
  split at h
  · cases h
  rename_i destination hto
  split at h
  · cases h
  · cases h
  rename_i addr hsub
  split at h
  · cases h
  rename_i hlen
  cases h
  refine ⟨?_, rfl, fun hdom => ?_⟩
  · rw [hto, copy_full (Decidable.not_not.1 hlen)]
    cases destination
    simp only at hsub
    rw [hsub]
  · exact if_pos hdom

/-! ## The invariant -/

def Receiver.counters (r : Receiver) : List UInt32 := r.delivered.filterMap (·.counter)

structure Receiver.Ok (r : Receiver) : Prop where
  tracks : r.antireplay.Tracks r.accepted
  counters : ∀ c ∈ r.counters, c ∈ r.accepted
  nodup : r.counters.Nodup
  answers : ∀ x ∈ r.delivered, Answers r.key x.message
  newest : r.ch <:+ r.delivered
  short : r.ch.length ≤ receiverBufferSize

/-- What the listener holds belongs to the receiver it is for, and its counter is not yet given. -/
inductive Listener.Ok (rs : List Receiver) : Listener → Prop
  | idle : Ok rs .idle
  | found {message : RoutableMessage} {id : Nat} {r : Receiver} : rs[id]? = some r → Answers r.key message → Ok rs (.found message id)
  | updated {message : RoutableMessage} {id : Nat} {r : Receiver} : rs[id]? = some r → Answers r.key message →
      Ok rs (.updated message id)
  | decrypted {x : Delivery} {id : Nat} {r : Receiver} : rs[id]? = some r → Answers r.key x.message →
      (∀ c ∈ x.counter, c ∈ r.accepted ∧ c ∉ r.counters) → Ok rs (.decrypted x id)
  | panicked : Ok rs .panicked

structure Dispatcher.Inv (d : Dispatcher) : Prop where
  receivers : ∀ r ∈ d.receivers, r.Ok
  handlers : ∀ key id, d.handlers key = some id → ∃ r, d.receivers[id]? = some r ∧ r.key = key
  listener : d.listener.Ok d.receivers

/-- The receivers of `rs` are still there, as far as the listener can tell. -/
def Kept (rs rs' : List Receiver) : Prop :=
  ∀ (id : Nat) (r : Receiver), rs[id]? = some r → ∃ r', rs'[id]? = some r' ∧ r'.key = r.key ∧ r'.accepted = r.accepted ∧
    r'.delivered = r.delivered

theorem Kept.refl (rs : List Receiver) : Kept rs rs := fun _ r h => ⟨r, h, rfl, rfl, rfl⟩

theorem Kept.append (rs : List Receiver) (r : Receiver) : Kept rs (rs ++ [r]) := by
  intro id r' h
  have hlt := (List.getElem?_eq_some_iff.1 h).1
  exact ⟨r', by rw [List.getElem?_append_left hlt]; exact h, rfl, rfl, rfl⟩

theorem Kept.set {rs : List Receiver} {id : Nat} {r r' : Receiver} (h : rs[id]? = some r) (hk : r'.key = r.key)
    (ha : r'.accepted = r.accepted) (hd : r'.delivered = r.delivered) : Kept rs (rs.set id r') := by
  intro id' r'' h'
  have hlt := (List.getElem?_eq_some_iff.1 h').1
  by_cases he : id = id'
  · subst he
    obtain rfl : r = r'' := Option.some.inj (h.symm.trans h')
    exact ⟨r', List.getElem?_set_self hlt, hk, ha, hd⟩
  · exact ⟨r'', by rw [List.getElem?_set_ne he]; exact h', rfl, rfl, rfl⟩

theorem Listener.Ok.kept {rs rs' : List Receiver} {l : Listener} (h : l.Ok rs) (hk : Kept rs rs') : l.Ok rs' := by
  cases h with
  | idle => exact .idle
  | found hr ha =>
    obtain ⟨r', hr', hkey, -, -⟩ := hk _ _ hr
    exact .found hr' (hkey ▸ ha)
  | updated hr ha =>
    obtain ⟨r', hr', hkey, -, -⟩ := hk _ _ hr
    exact .updated hr' (hkey ▸ ha)
  | decrypted hr ha hc =>
    obtain ⟨r', hr', hkey, hacc, hdel⟩ := hk _ _ hr
    refine .decrypted hr' (hkey ▸ ha) fun c hx => ?_
    rw [hacc, Receiver.counters, hdel]
    exact hc c hx
  | panicked => exact .panicked

theorem mem_set {rs : List Receiver} {id : Nat} {r x : Receiver} (h : x ∈ rs.set id r) : x = r ∨ x ∈ rs :=
  (List.mem_or_eq_of_mem_set h).symm

namespace Dispatcher.Inv

variable {d : Dispatcher}

/-- Receivers changed, but not so that the listener could tell, or the map of handlers lost an entry. -/
theorem keep (h : d.Inv) {d' : Dispatcher} (hok : ∀ r ∈ d'.receivers, r.Ok) (hk : Kept d.receivers d'.receivers)
    (hh : ∀ key id, d'.handlers key = some id → d.handlers key = some id) (hl : d'.listener = d.listener) : d'.Inv := by
  refine ⟨hok, fun key id hkey => ?_, hl ▸ h.listener.kept hk⟩
  obtain ⟨r, hr, he⟩ := h.handlers key id (hh key id hkey)
  obtain ⟨r', hr', hkey', -, -⟩ := hk id r hr
  exact ⟨r', hr', hkey'.trans he⟩

/-- Neither receivers, handlers nor the listener changed. -/
theorem same (h : d.Inv) {d' : Dispatcher} (hr : d'.receivers = d.receivers) (hh : d'.handlers = d.handlers)
    (hl : d'.listener = d.listener) : d'.Inv :=
  h.keep (hr ▸ h.receivers) (hr ▸ Kept.refl _) (fun _ _ hk => hh ▸ hk) hl

end Dispatcher.Inv

theorem Receiver.Ok.new (key : ReceiverKey) (requestId : Option Bytes) (now : Instant) : (Receiver.new key requestId now).Ok := by
  refine ⟨.new, ?_, ?_, ?_, ?_, ?_⟩
  · simp [Receiver.new, Receiver.counters]
  · simp [Receiver.new, Receiver.counters]
  · simp [Receiver.new]
  · exact List.suffix_refl _
  · simp [Receiver.new]

/-! ## Steps of callers -/

/-- A step that a caller takes touches neither receivers, handlers nor the listener. -/
structure Dispatcher.Aside (d d' : Dispatcher) : Prop where
  receivers : d'.receivers = d.receivers
  handlers : d'.handlers = d.handlers
  listener : d'.listener = d.listener

namespace Dispatcher

variable {P : Primitives} {unmarshal : Bytes → Option SessionInfo} {exchange : Bytes → Except String Session} {d : Dispatcher}

theorem begin_aside (message : RoutableMessage) (auth : AuthMethod) (uuid addr : Uuid) :
    d.Aside (d.begin message auth uuid addr).1 := by
  unfold begin
  split
  · exact ⟨rfl, rfl, rfl⟩
  · split
    · exact ⟨rfl, rfl, rfl⟩
    · split
      · split <;> exact ⟨rfl, rfl, rfl⟩
      · exact ⟨rfl, rfl, rfl⟩

theorem requestSessionInfo_aside (domain : Domain) (publicBytes : Bytes) (uuid addr : Uuid) :
    d.Aside (d.requestSessionInfo domain publicBytes uuid addr).1 := by
  unfold requestSessionInfo
  split
  · exact begin_aside ..
  · exact ⟨rfl, rfl, rfl⟩

theorem startSession_aside (domain : Domain) : d.Aside (d.startSession domain).1 := by
  unfold startSession
  split <;> exact ⟨rfl, rfl, rfl⟩

theorem attempt_aside (i : Nat) (lifetime : Int) (now : Instant) (random : RandomRead) :
    d.Aside (d.attempt P i lifetime now random) := by
  unfold attempt
  split
  · exact ⟨rfl, rfl, rfl⟩
  · split
    · exact ⟨rfl, rfl, rfl⟩
    · split <;> exact ⟨rfl, rfl, rfl⟩

theorem setMaxLatency_aside (latency : Int) : d.Aside (d.setMaxLatency latency) := by
  unfold setMaxLatency
  split <;> exact ⟨rfl, rfl, rfl⟩

namespace Inv

theorem aside (h : d.Inv) {d' : Dispatcher} (ha : d.Aside d') : d'.Inv := h.same ha.receivers ha.handlers ha.listener

theorem register (h : d.Inv) (i : Nat) (now : Instant) : (d.register i now).Inv := by
  unfold Dispatcher.register
  split
  · exact h
  · rename_i s hs
    split
    · refine ⟨?_, ?_, h.listener.kept (Kept.append _ _)⟩
      · intro r hr
        rcases List.mem_append.1 hr with hr | hr
        · exact h.receivers r hr
        · obtain rfl := List.mem_singleton.1 hr
          exact .new ..
      · intro key id hkey
        dsimp only at hkey ⊢
        split at hkey
        · cases hkey
          exact ⟨_, List.getElem?_concat_length, (‹key = s.key›).symm⟩
        · obtain ⟨r, hr, he⟩ := h.handlers key id hkey
          obtain ⟨r', hr', hkey', -, -⟩ := Kept.append d.receivers (Receiver.new s.key (requestId s.message) now) id r hr
          exact ⟨r', hr', hkey'.trans he⟩
    · exact h

theorem closeHandler (h : d.Inv) (id : Nat) : (d.closeHandler id).Inv := by
  unfold Dispatcher.closeHandler
  split
  · exact h
  · refine h.keep h.receivers (Kept.refl _) (fun key id hkey => ?_) rfl
    dsimp only at hkey
    split at hkey
    · cases hkey
    · exact hkey

theorem take (h : d.Inv) (id : Nat) : (d.take id).Inv := by
  unfold Dispatcher.take
  split
  · exact h
  · rename_i r hr
    have hok := h.receivers r (List.mem_of_getElem? hr)
    refine h.keep (fun x hx => ?_) (Kept.set hr rfl rfl rfl) (fun _ _ hk => hk) rfl
    rcases mem_set hx with rfl | hx
    · refine ⟨hok.tracks, hok.counters, hok.nodup, hok.answers, (List.tail_suffix _).trans hok.newest, ?_⟩
      exact Nat.le_trans (List.length_tail ▸ Nat.sub_le _ _) hok.short
    · exact h.receivers x hx

theorem receive (h : d.Inv) (message : RoutableMessage) : (d.receive message).Inv := by
  unfold Dispatcher.receive
  split
  · exact h
  · rename_i key hkey
    split
    · exact h
    · rename_i id hid
      obtain ⟨r, hr, he⟩ := h.handlers key id hid
      exact ⟨h.receivers, h.handlers, .found hr (he ▸ receiverKey_answers hkey)⟩

end Inv

end Dispatcher

/-! ## Steps of the listener -/

theorem checkForSessionUpdate_aside {P : Primitives} {unmarshal : Bytes → Option SessionInfo}
    {exchange : Bytes → Except String Session} {d : Dispatcher} (message : RoutableMessage) (handler : Receiver) (now : Instant) :
    d.Aside (d.checkForSessionUpdate P unmarshal exchange message handler now) := by
  unfold Dispatcher.checkForSessionUpdate
  split
  · exact ⟨rfl, rfl, rfl⟩
  split
  · exact ⟨rfl, rfl, rfl⟩
  split
  · exact ⟨rfl, rfl, rfl⟩
  split
  · exact ⟨rfl, rfl, rfl⟩
  split <;> exact ⟨rfl, rfl, rfl⟩

/-- How decrypting a message for `r` ends. -/
inductive Decryption (P : Primitives) (d : Dispatcher) (message : RoutableMessage) (r : Receiver) :
    Receiver → Dispatcher.DecryptResult → Prop
  | plain : message.getAesGcmResponseData = none → Decryption P d message r r .plain
  | failed : Decryption P d message r r .failed
  | replayed : Decryption P d message r r .replayed
  | panicked {s : DispatchSession} : message.getAesGcmResponseData ≠ none → d.sessions r.key.domain = some s → s.ctx = none →
      Decryption P d message r r .panicked
  | decrypted {s : DispatchSession} {ctx : Signer} {message' : RoutableMessage} {counter : UInt32} :
      d.sessions r.key.domain = some s → s.ctx = some ctx → ctx.decrypt P message r.requestId = (message', .ok counter) →
      (r.antireplay.update counter).2 = true →
      Decryption P d message r
        { r with antireplay := (r.antireplay.update counter).1, accepted := counter :: r.accepted } (.decrypted message' counter)

theorem decrypt_decryption (P : Primitives) (d : Dispatcher) (message : RoutableMessage) (r : Receiver) :
    Decryption P d message r (d.decrypt P message r).1 (d.decrypt P message r).2 := by
  unfold Dispatcher.decrypt
  split
  · exact .plain ‹_›
  rename_i data hdata
  split
  · exact .failed
  rename_i s hs
  split
  · exact .panicked (by simp [hdata]) hs ‹_›
  rename_i ctx hctx
  split
  · exact .failed
  rename_i message' counter hdec
  split
  · rename_i antireplay hup
    have hno : (r.antireplay.update counter).2 = false := by rw [hup]
    have hsame := SlidingWindow.update_refused hno
    rw [hup] at hsame
    obtain rfl : antireplay = r.antireplay := hsame
    exact .replayed
  · rename_i antireplay hup
    have hok : (r.antireplay.update counter).2 = true := by rw [hup]
    have ha : antireplay = (r.antireplay.update counter).1 := by rw [hup]
    subst ha
    exact .decrypted hs hctx hdec hok

theorem Answers.congr {key : ReceiverKey} {message message' : RoutableMessage} (h : Answers key message)
    (ht : message'.toDestination = message.toDestination) (hf : message'.fromDestination = message.fromDestination)
    (hu : message'.requestUuid = message.requestUuid) : Answers key message' :=
  ⟨ht ▸ h.address, hf ▸ h.domain, hu ▸ h.uuid⟩

theorem Receiver.Ok.accept {r : Receiver} (h : r.Ok) {counter : UInt32} (hok : (r.antireplay.update counter).2 = true) :
    ({ r with antireplay := (r.antireplay.update counter).1, accepted := counter :: r.accepted } : Receiver).Ok :=
  ⟨h.tracks.update hok, fun c hc => List.mem_cons_of_mem _ (h.counters c hc), h.nodup, h.answers, h.newest, h.short⟩

theorem Receiver.Ok.deliver {r : Receiver} (h : r.Ok) {x : Delivery} (ha : Answers r.key x.message)
    (hc : ∀ c ∈ x.counter, c ∈ r.accepted ∧ c ∉ r.counters) : (Dispatcher.deliver r x).Ok := by
  unfold Dispatcher.deliver
  split
  case isFalse => exact h
  rename_i hroom
  have hcount : (r.delivered ++ [x]).filterMap (·.counter) = r.counters ++ x.counter.toList := by
    rw [List.filterMap_append, Receiver.counters]
    cases hx : x.counter <;> simp [hx]
  refine ⟨h.tracks, ?_, ?_, fun y hy => ?_, List.suffix_append_self_iff.2 h.newest, ?_⟩
  · intro c hmem
    rw [Receiver.counters, hcount, List.mem_append, Option.mem_toList] at hmem
    rcases hmem with hmem | hmem
    · exact h.counters c hmem
    · exact (hc c hmem).1
  · rw [Receiver.counters, hcount]
    cases hx : x.counter with
    | none => simpa using h.nodup
    | some c =>
      refine List.nodup_append.2 ⟨h.nodup, List.nodup_singleton c, fun a hmem b hb => ?_⟩
      rw [List.mem_singleton.1 hb]
      exact fun he => (hc c hx).2 (he ▸ hmem)
  · rcases List.mem_append.1 hy with hy | hy
    · exact h.answers y hy
    · rw [List.mem_singleton.1 hy]
      exact ha
  · rw [List.length_append, List.length_singleton]
    exact hroom

namespace Dispatcher

variable {P : Primitives} {unmarshal : Bytes → Option SessionInfo} {exchange : Bytes → Except String Session} {d : Dispatcher}

namespace Inv

theorem point (h : d.Inv) {l : Listener} (hl : l.Ok d.receivers) : ({ d with listener := l } : Dispatcher).Inv :=
  ⟨h.receivers, h.handlers, hl⟩

theorem put (h : d.Inv) {id : Nat} {r r' : Receiver} (hr : d.receivers[id]? = some r) (hok : r'.Ok) (hkey : r'.key = r.key)
    {l : Listener} (hl : l.Ok (d.receivers.set id r')) : ({ d.setReceiver id r' with listener := l } : Dispatcher).Inv := by
  refine ⟨fun x hx => ?_, fun key id' hid => ?_, hl⟩
  · rcases mem_set hx with rfl | hx
    · exact hok
    · exact h.receivers x hx
  · obtain ⟨r₁, hr₁, he⟩ := h.handlers key id' hid
    by_cases heq : id = id'
    · subst heq
      obtain rfl : r = r₁ := Option.some.inj (hr.symm.trans hr₁)
      exact ⟨r', List.getElem?_set_self (List.getElem?_eq_some_iff.1 hr).1, hkey.trans he⟩
    · exact ⟨r₁, by rw [setReceiver, List.getElem?_set_ne heq]; exact hr₁, he⟩

theorem listen (h : d.Inv) (now : Instant) : (d.listen P unmarshal exchange now).Inv := by
  have hl := h.listener
  unfold Dispatcher.listen
  cases hd : d.listener with
  | idle => exact h
  | panicked => exact h
  | found message id =>
    rw [hd] at hl
    cases hl with
    | found hr ha =>
      rename_i r
      have hside := @checkForSessionUpdate_aside P unmarshal exchange d message r now
      dsimp only
      rw [hr]
      exact (h.aside hside).point (.updated (hside.receivers ▸ hr) ha)
  | updated message id =>
    rw [hd] at hl
    cases hl with
    | updated hr ha =>
      rename_i r
      have hdec := decrypt_decryption P d message r
      have hrok := h.receivers r (List.mem_of_getElem? hr)
      have hlt := (List.getElem?_eq_some_iff.1 hr).1
      dsimp only
      rw [hr]
      dsimp only
      generalize d.decrypt P message r = result at hdec
      obtain ⟨r', result⟩ := result
      cases hdec with
      | plain => exact h.point (.decrypted hr ha fun c hc => by cases hc)
      | failed => exact h.point .idle
      | replayed => exact h.put hr hrok rfl .idle
      | panicked => exact h.point .panicked
      | decrypted hs hctx hdec hok =>
        rename_i s ctx message' counter
        obtain ⟨gcmInfo, x, plaintext, -, -, -, -, rfl⟩ := decrypt_ok hdec
        refine h.put hr (hrok.accept hok) rfl (.decrypted (List.getElem?_set_self hlt) (ha.congr rfl rfl rfl) fun c hc => ?_)
        obtain rfl : counter = c := Option.some.inj hc
        exact ⟨List.mem_cons_self, fun hmem => hrok.tracks.fresh hok (hrok.counters _ hmem)⟩
  | decrypted x id =>
    rw [hd] at hl
    cases hl with
    | decrypted hr ha hc =>
      rename_i r
      dsimp only
      rw [hr]
      refine h.put hr ((h.receivers r (List.mem_of_getElem? hr)).deliver ha hc) ?_ .idle
      unfold Dispatcher.deliver
      split <;> rfl

end Inv

theorem Inv.step (h : d.Inv) (e : DispatchEvent) : (d.step P unmarshal exchange e).Inv := by
  unfold Dispatcher.step
  split
  case isFalse => exact h
  · cases e with
    | begin message auth uuid addr => exact h.aside (begin_aside ..)
    | requestSessionInfo domain publicBytes uuid addr => exact h.aside (requestSessionInfo_aside ..)
    | startSession domain => exact h.aside (startSession_aside domain)
    | attempt i lifetime now random => exact h.aside (attempt_aside ..)
    | abandon i => exact h.aside ⟨rfl, rfl, rfl⟩
    | register i now => exact h.register i now
    | close id => exact h.closeHandler id
    | take id => exact h.take id
    | setMaxLatency latency => exact h.aside (setMaxLatency_aside latency)
    | receive message => exact h.receive message
    | listen now => exact h.listen now
    | stop => exact h.aside ⟨rfl, rfl, rfl⟩

theorem Started.inv (h : d.Started) : d.Inv := by
  refine ⟨?_, ?_, ?_⟩
  · simp [h.receivers]
  · intro key id hkey
    rw [h.handlers] at hkey
    cases hkey
  · rw [h.listener]
    exact .idle

theorem Inv.reach {ok : Dispatcher → DispatchEvent → Prop} (h : (machine P unmarshal exchange).Reach ok d) : d.Inv := by
  induction h with
  | init h0 => exact h0.inv
  | step e _ _ ih => exact ih.step e

end Dispatcher

/-- What any receiver was given, in any order of senders, receivers and messages. -/
theorem receiver_given {P : Primitives} {unmarshal : Bytes → Option SessionInfo} {exchange : Bytes → Except String Session}
    {d : Dispatcher} (h : (Dispatcher.machine P unmarshal exchange).Reach (fun _ _ => True) d) {r : Receiver}
    (hr : r ∈ d.receivers) :
    (∀ x ∈ r.delivered, Answers r.key x.message) ∧ r.counters.Nodup ∧ r.ch <:+ r.delivered ∧ r.ch.length ≤ receiverBufferSize :=
  have hok := (Dispatcher.Inv.reach h).receivers r hr
  ⟨hok.answers, hok.nodup, hok.newest, hok.short⟩

def sampleRequestId : Option Bytes := (sampleSent.receivers[1]?).bind (·.requestId)

/-- The command is answered. -/
def sampleReply : List DispatchEvent :=
  [.receive (sampleSeal sampleRequestId [43]), .listen sampleInstant, .listen sampleInstant, .listen sampleInstant]

def sampleAnswered : Dispatcher := sampleDispatch.run sampleSent sampleReply

theorem sampleAnswered_reach : sampleDispatch.Reach (fun _ _ => True) sampleAnswered :=
  have hsent := (Machine.Reach.init sampleStart_started).run (sampleHandshake ++ sampleSend) (.of_forall (fun _ _ => trivial) _ _)
  hsent.run sampleReply (.of_forall (fun _ _ => trivial) _ _)

def sampleReceiver : Receiver := sampleAnswered.receivers.getLast (List.ne_nil_of_length_eq_add_one (n := 1) rfl)

theorem receiver_given_answered :
    (∀ x ∈ sampleReceiver.delivered, Answers sampleReceiver.key x.message) ∧ sampleReceiver.counters.Nodup ∧
      sampleReceiver.ch <:+ sampleReceiver.delivered ∧ sampleReceiver.ch.length ≤ receiverBufferSize :=
  receiver_given sampleAnswered_reach (List.getLast_mem _)

/-! ## The vehicle's responses -/

/-- An encrypted response was made by the vehicle for that request, as it was delivered. -/
def Delivery.Source (x : Delivery) (made : List Made) (requestId : Option Bytes) : Prop :=
  ∀ c ∈ x.counter, ∃ p message id,
    ⟨.response p message id c, x.message.getProtobufMessageAsBytes⟩ ∈ made ∧ fitting id = fitting requestId ∧
      message.flags = x.message.flags ∧
      byte (Destination.getDomain message.fromDestination) = byte (Destination.getDomain x.message.fromDestination) ∧
      UInt32.ofNat (message.signedMessageFault % 2 ^ 32).toNat = UInt32.ofNat (x.message.signedMessageFault % 2 ^ 32).toNat

/-- The dispatcher and what the vehicle authenticated. -/
abbrev Linked := Dispatcher × List Made

/-- What the cipher opens was sealed by the vehicle over those bytes. -/
def GenuineResponses (P : Primitives) (l : Linked) : DispatchEvent ⊕ Made → Prop
  | .inl (.listen _) =>
    ∀ message id r s ctx x gcmInfo plaintext, l.1.listener = .updated message id → l.1.receivers[id]? = some r →
      l.1.sessions r.key.domain = some s → s.ctx = some ctx → message.getAesGcmResponseData = some gcmInfo →
      (Digested.response ctx.peer message r.requestId gcmInfo.counter).bytes = some x →
      ctx.peer.session.decrypt P gcmInfo.nonce message.getProtobufMessageAsBytes (P.sha256 x) gcmInfo.tag = some plaintext →
      ∃ made ∈ l.2, made.use.bytes = some x ∧ made.plaintext = plaintext
  | _ => True

def linked (P : Primitives) (unmarshal : Bytes → Option SessionInfo) (exchange : Bytes → Except String Session) :
    Machine Linked (DispatchEvent ⊕ Made) where
  init l := l.1.Started ∧ l.2 = []
  step
    | (d, made), .inl e => (d.step P unmarshal exchange e, made)
    | (d, made), .inr m => (d, m :: made)

structure Sourced (l : Linked) : Prop where
  given : ∀ r ∈ l.1.receivers, ∀ x ∈ r.delivered, x.Source l.2 r.requestId
  held : ∀ x id r, l.1.listener = .decrypted x id → l.1.receivers[id]? = some r → x.Source l.2 r.requestId

theorem Delivery.Source.mono {x : Delivery} {made : List Made} {requestId : Option Bytes} (h : x.Source made requestId) (m : Made) :
    x.Source (m :: made) requestId := by
  intro c hc
  obtain ⟨p, message, id, hmem, hrest⟩ := h c hc
  exact ⟨p, message, id, List.mem_cons_of_mem _ hmem, hrest⟩

/-- Bytes of a response are authenticated as a response only. -/
theorem response_of_bytes {u : Digested} {p : Peer} {message : RoutableMessage} {id : Option Bytes} {counter : UInt32} {x : Bytes}
    (hu : u.bytes = some x) (hr : (Digested.response p message id counter).bytes = some x) :
    ∃ p' message' id', u = .response p' message' id' counter ∧
      u.contents = (Digested.response p message id counter).contents := by
  have he := (digested_inj hu hr).1 rfl
  cases u with
  | response p' message' id' counter' =>
    have he' := he
    simp only [Digested.contents, Contents.response.injEq] at he'
    obtain ⟨-, -, rfl, -⟩ := he'
    exact ⟨p', message', id', rfl, he⟩
  | command => cases he
  | sessionInfo => cases he

theorem deliver_requestId (r : Receiver) (x : Delivery) : (Dispatcher.deliver r x).requestId = r.requestId := by
  unfold Dispatcher.deliver
  split <;> rfl

theorem deliver_delivered {r : Receiver} {x y : Delivery} (h : y ∈ (Dispatcher.deliver r x).delivered) :
    y ∈ r.delivered ∨ y = x := by
  unfold Dispatcher.deliver at h
  split at h
  · rcases List.mem_append.1 h with h | h
    · exact .inl h
    · exact .inr (List.mem_singleton.1 h)
  · exact .inl h

namespace Sourced

variable {P : Primitives} {unmarshal : Bytes → Option SessionInfo} {exchange : Bytes → Except String Session} {d : Dispatcher}
  {made : List Made}

theorem aside (h : Sourced (d, made)) {d' : Dispatcher} (ha : d.Aside d') : Sourced (d', made) := by
  refine ⟨?_, ?_⟩
  · rw [ha.receivers]
    exact h.given
  · rw [ha.receivers, ha.listener]
    exact h.held

/-- The listener moved on to nothing that was decrypted. -/
theorem point (h : Sourced (d, made)) {l : Listener} (hl : ∀ x id, l ≠ .decrypted x id) : Sourced ({ d with listener := l }, made) :=
  ⟨h.given, fun x id _ he => absurd he (hl x id)⟩

/-- A receiver changed, but not in what it was given or is for. -/
theorem put (h : Sourced (d, made)) {id : Nat} {r r' : Receiver} (hr : d.receivers[id]? = some r) (hd : r'.delivered = r.delivered)
    (hi : r'.requestId = r.requestId) : Sourced (d.setReceiver id r', made) := by
  refine ⟨fun x hx y hy => ?_, fun x id' r₁ hl hr₁ => ?_⟩
  · rcases mem_set hx with rfl | hx
    · rw [hd] at hy
      rw [hi]
      exact h.given r (List.mem_of_getElem? hr) y hy
    · exact h.given x hx y hy
  · by_cases heq : id = id'
    · subst heq
      have hlt := (List.getElem?_eq_some_iff.1 hr).1
      obtain rfl : r' = r₁ := Option.some.inj ((List.getElem?_set_self hlt).symm.trans hr₁)
      rw [hi]
      exact h.held x id r hl hr
    · exact h.held x id' r₁ hl ((List.getElem?_set_ne heq).symm.trans hr₁)

theorem register (h : Sourced (d, made)) (hi : d.Inv) (i : Nat) (now : Instant) : Sourced (d.register i now, made) := by
  unfold Dispatcher.register
  split
  · exact h
  · split
    · refine ⟨fun r hr x hx => ?_, fun x id r hl hr => ?_⟩
      · rcases List.mem_append.1 hr with hr | hr
        · exact h.given r hr x hx
        · obtain rfl := List.mem_singleton.1 hr
          cases hx
      · have hlok := hi.listener
        rw [show d.listener = .decrypted x id from hl] at hlok
        cases hlok with
        | decrypted hr₁ _ _ =>
          have hlt := (List.getElem?_eq_some_iff.1 hr₁).1
          rw [List.getElem?_append_left hlt] at hr
          exact h.held x id r hl hr
    · exact h

theorem listen (h : Sourced (d, made)) (now : Instant) (hg : GenuineResponses P (d, made) (.inl (.listen now))) :
    Sourced (d.listen P unmarshal exchange now, made) := by
  unfold Dispatcher.listen
  cases hd : d.listener with
  | idle => exact h
  | panicked => exact h
  | found message id =>
    dsimp only
    split
    · exact h
    · exact (h.aside (checkForSessionUpdate_aside ..)).point fun x id => by simp
  | updated message id =>
    dsimp only
    cases hr : d.receivers[id]? with
    | none => exact h
    | some r =>
      have hdec := decrypt_decryption P d message r
      dsimp only
      generalize d.decrypt P message r = result at hdec
      obtain ⟨r', result⟩ := result
      cases hdec with
      | plain =>
        refine ⟨h.given, fun x id' r₁ hl _ c hc => ?_⟩
        cases hl
        cases hc
      | failed => exact h.point fun x id => by simp
      | replayed => exact (h.put hr rfl rfl).point fun x id => by simp
      | panicked => exact h.point fun x id => by simp
      | decrypted hs hctx hdec hok =>
        rename_i s ctx message' counter
        obtain ⟨gcmInfo, x, plaintext, hdata, rfl, hbytes, hopen, rfl⟩ := decrypt_ok hdec
        obtain ⟨m, hmem, hm, hplain⟩ := hg message id r s ctx x gcmInfo plaintext hd hr hs hctx hdata hbytes hopen
        obtain ⟨p, message₁, id₁, huse, hcont⟩ := response_of_bytes hm hbytes
        have hput : Sourced (d.setReceiver id
            { r with antireplay := (r.antireplay.update gcmInfo.counter).1, accepted := gcmInfo.counter :: r.accepted }, made) :=
          h.put hr rfl rfl
        dsimp only
        refine ⟨hput.given, fun y id' r₁ hl hr₁ c hc => ?_⟩
        cases hl
        obtain rfl : gcmInfo.counter = c := Option.some.inj hc
        have hlt := (List.getElem?_eq_some_iff.1 hr).1
        obtain rfl := Option.some.inj ((List.getElem?_set_self hlt).symm.trans hr₁)
        obtain ⟨use, text⟩ := m
        obtain rfl : use = _ := huse
        obtain rfl : text = plaintext := hplain
        simp only [Digested.contents, Contents.response.injEq] at hcont
        obtain ⟨hdomain, -, -, hflags, hid, hfault⟩ := hcont
        exact ⟨p, message₁, id₁, hmem, hid, hflags, hdomain, hfault⟩
  | decrypted x id =>
    dsimp only
    cases hr : d.receivers[id]? with
    | none => exact h
    | some r =>
      dsimp only
      refine ⟨fun r₁ hr₁ y hy => ?_, fun y id' r₁ hl => by cases hl⟩
      rcases mem_set hr₁ with rfl | hr₁
      · rw [deliver_requestId]
        rcases deliver_delivered hy with hy | rfl
        · exact h.given r (List.mem_of_getElem? hr) y hy
        · exact h.held y id r hd hr
      · exact h.given r₁ hr₁ y hy

theorem act (h : Sourced (d, made)) (hi : d.Inv) (e : DispatchEvent) (hg : GenuineResponses P (d, made) (.inl e)) :
    Sourced (d.act P unmarshal exchange e, made) := by
  cases e with
  | begin message auth uuid addr => exact h.aside (Dispatcher.begin_aside ..)
  | requestSessionInfo domain publicBytes uuid addr => exact h.aside (Dispatcher.requestSessionInfo_aside ..)
  | startSession domain => exact h.aside (Dispatcher.startSession_aside domain)
  | attempt i lifetime now random => exact h.aside (Dispatcher.attempt_aside ..)
  | abandon i => exact h.aside ⟨rfl, rfl, rfl⟩
  | register i now => exact h.register hi i now
  | close id =>
    change Sourced (d.closeHandler id, made)
    unfold Dispatcher.closeHandler
    split
    · exact h
    · exact ⟨h.given, h.held⟩
  | take id =>
    change Sourced (d.take id, made)
    unfold Dispatcher.take
    split
    · exact h
    · rename_i r hr
      exact h.put hr rfl rfl
  | setMaxLatency latency => exact h.aside (Dispatcher.setMaxLatency_aside latency)
  | receive message =>
    change Sourced (d.receive message, made)
    unfold Dispatcher.receive
    split
    · exact h
    · split
      · exact h
      · exact h.point fun x id => by simp
  | listen now => exact h.listen now hg
  | stop => exact h.aside ⟨rfl, rfl, rfl⟩

theorem reach {l : Linked} (h : (linked P unmarshal exchange).Reach (GenuineResponses P) l) : l.1.Inv ∧ Sourced l := by
  induction h with
  | init h0 =>
    refine ⟨h0.1.inv, ?_, ?_⟩
    · simp [h0.1.receivers]
    · simp [h0.1.listener]
  | @step l e _ hg ih =>
    obtain ⟨d, made⟩ := l
    obtain ⟨hi, hs⟩ := ih
    cases e with
    | inl e =>
      refine ⟨hi.step e, ?_⟩
      simp only [linked, Dispatcher.step]
      split
      · exact hs.act hi e hg
      · exact hs
    | inr m => exact ⟨hi, fun r hr x hx => (hs.given r hr x hx).mono m, fun x id r hl hr => (hs.held x id r hl hr).mono m⟩

end Sourced

/-- The guard of `GenuineResponses`, computed. -/
def genuineNow (P : Primitives) (l : Linked) : Bool :=
  match l.1.listener with
  | .updated message id =>
    match l.1.receivers[id]? with
    | none => true
    | some r =>
      match (l.1.sessions r.key.domain).bind (·.ctx), message.getAesGcmResponseData with
      | some ctx, some gcmInfo =>
        match (Digested.response ctx.peer message r.requestId gcmInfo.counter).bytes with
        | none => true
        | some x =>
          match ctx.peer.session.decrypt P gcmInfo.nonce message.getProtobufMessageAsBytes (P.sha256 x) gcmInfo.tag with
          | none => true
          | some plaintext => l.2.any fun made => made.use.bytes = some x ∧ made.plaintext = plaintext
      | _, _ => true
  | _ => true

theorem genuineNow_sound {P : Primitives} {l : Linked} (h : genuineNow P l = true) (now : Instant) :
    GenuineResponses P l (.inl (.listen now)) := by
  intro message id r s ctx x gcmInfo plaintext hl hr hs hctx hg hx hp
  unfold genuineNow at h
  rw [hl] at h
  dsimp only at h
  rw [hr] at h
  dsimp only at h
  rw [hs, hg] at h
  dsimp only [Option.bind_some] at h
  rw [hctx] at h
  dsimp only at h
  rw [hx] at h
  dsimp only at h
  rw [hp] at h
  simpa using h

/-- Where the vehicle's seals cannot be forged, an encrypted response is only ever given to the
    request it was made for. -/
theorem response_for_request {P : Primitives} {unmarshal : Bytes → Option SessionInfo} {exchange : Bytes → Except String Session}
    {l : Linked} (h : (linked P unmarshal exchange).Reach (GenuineResponses P) l) {r : Receiver} (hr : r ∈ l.1.receivers)
    {x : Delivery} (hx : x ∈ r.delivered) : x.Source l.2 r.requestId := (Sourced.reach h).2.given r hr x hx

abbrev sampleLinked : Machine Linked (DispatchEvent ⊕ Made) :=
  linked keylessPrimitives (fun _ => some sampleInfo) fun _ => .ok sampleSession

/-- The vehicle seals its response, which then arrives. -/
def sampleExchange : List (DispatchEvent ⊕ Made) :=
  (sampleHandshake ++ sampleSend).map .inl ++
    .inr ⟨.response (samplePeer domainBroadcast) (sampleResponse commandUuid (.protobufMessageAsBytes [43])) sampleRequestId 1, [43]⟩ ::
    sampleReply.map .inl

def sampleExchanged : Linked := sampleLinked.run (sampleStart, []) sampleExchange

theorem sampleExchanged_reach : sampleLinked.Reach (GenuineResponses keylessPrimitives) sampleExchanged := by
  have h0 : sampleLinked.Reach (GenuineResponses keylessPrimitives) (sampleStart, []) := .init ⟨sampleStart_started, rfl⟩
  exact h0.run sampleExchange ⟨trivial, trivial, trivial, trivial, genuineNow_sound rfl _, genuineNow_sound rfl _,
    genuineNow_sound rfl _, trivial, trivial, trivial, trivial, trivial, genuineNow_sound rfl _, genuineNow_sound rfl _,
    genuineNow_sound rfl _, trivial⟩

def exchangedReceiver : Receiver := sampleExchanged.1.receivers.getLast (List.ne_nil_of_length_eq_add_one (n := 1) rfl)

def exchangedDelivery : Delivery := exchangedReceiver.delivered.head (List.ne_nil_of_length_eq_add_one (n := 0) rfl)

theorem response_for_request_exchanged : exchangedDelivery.Source sampleExchanged.2 exchangedReceiver.requestId :=
  response_for_request sampleExchanged_reach (List.getLast_mem _) (List.head_mem _)

end ElectricEel.Vehicle
