/-
  ElectricEel.Bluez.Cleanup — what connecting leaves behind (bluez/gatt.go `tryConnect`,
  bluez/connection.go `Close`).

  The log tells of every call (`Told`), and where the attempt or Close stands tells which
  calls this attempt has made (`Pc.Trace`); what is left on the bus is read off them.

  Proved, whatever the bus answers and whenever the context expires: an attempt that returns
  an error has removed its rules and its subscription and disconnected what it connected,
  and so has Close, which makes its calls once, however often it is called, and after which
  nothing is handed over; Device1.Connect is issued only after Discovering was read as false
  (`connect_leaves_nothing_behind`). What RemoveMatch returns is not looked at: a rule stays
  where it fails, and the device rule is removed also where its best-effort AddMatch failed,
  so that an equal rule of someone else goes (`connect_leaves_a_rule`).
-/
import ElectricEel.Bluez.Connect

namespace ElectricEel.Bluez

/-! ## The log -/

/-- The rules the bus has after these calls. -/
def held (rules : List Rule) : List Call → List Rule
  | [] => rules
  | .addMatch rule true :: log => rule :: held rules log
  | .removeMatch rule true :: log => (held rules log).erase rule
  | _ :: log => held rules log

/-- No rule is added or removed. -/
def Call.neutral : Call → Bool
  | addMatch _ ok | removeMatch _ ok => !ok
  | _ => true

/-- A call made before Device1.Connect. -/
def Call.early : Call → Bool
  | discovering _ | disconnect => true
  | _ => false

/-- RemoveMatch is issued. -/
def Call.removed : Call → Option Rule
  | removeMatch rule _ => some rule
  | _ => none

theorem held_neutral {rules : List Rule} {call : Call} (h : call.neutral = true) (log : List Call) :
    held rules (call :: log) = held rules log := by
  cases call with
  | addMatch rule ok =>
    cases ok with
    | true => cases h
    | false => rfl
  | removeMatch rule ok =>
    cases ok with
    | true => cases h
    | false => rfl
  | _ => rfl

theorem held_append (rules : List Rule) (log log' : List Call) : held rules (log ++ log') = held (held rules log') log := by
  induction log with
  | nil => rfl
  | cons call log ih =>
    rw [List.cons_append]
    by_cases hn : call.neutral = true
    · rw [held_neutral hn, held_neutral hn, ih]
    · cases call with
      | addMatch rule ok =>
        cases ok with
        | true => exact congrArg (rule :: ·) ih
        | false => exact (hn rfl).elim
      | removeMatch rule ok =>
        cases ok with
        | true => exact congrArg (·.erase rule) ih
        | false => exact (hn rfl).elim
      | _ => exact (hn rfl).elim

namespace Bus

/-- The rules are those the log tells of. -/
def Told (rules : List Rule) (b : Bus) : Prop := b.rules = held rules b.log

theorem Told.note {rules : List Rule} {b : Bus} (h : b.Told rules) {call : Call} (hc : call.neutral = true) : (b.note call).Told rules :=
  h.trans (held_neutral hc _).symm

theorem Told.addMatch {rules : List Rule} {b : Bus} (h : b.Told rules) (rule : Rule) (ok : Bool) : (b.addMatch rule ok).Told rules := by
  cases ok with
  | true => exact congrArg (rule :: ·) h
  | false => exact h

theorem Told.removeMatch {rules : List Rule} {b : Bus} (h : b.Told rules) (rule : Rule) (ok : Bool) :
    (b.removeMatch rule ok).Told rules := by
  cases ok with
  | true =>
    cases hin : b.rules.contains rule with
    | true =>
      show b.rules.erase rule = held rules (.removeMatch rule (true && b.rules.contains rule) :: b.log)
      rw [hin, h]
      rfl
    | false =>
      show b.rules.erase rule = held rules (.removeMatch rule (true && b.rules.contains rule) :: b.log)
      rw [hin, List.erase_of_not_mem (by simpa using hin), h]
      rfl
  | false => exact h

end Bus

/-- How many of its calls Close has still to make. -/
def Closing.left : Closing → Nat
  | notYet | joining => 5
  | stopNotify => 3
  | disconnect | removeMatch => 2
  | removeDeviceMatch => 1
  | closed => 0

/-- The subscription is still there. -/
def Closing.listens : Closing → Bool
  | notYet | joining => true
  | _ => false

namespace Connect

open Lib

namespace State

/-- This attempt's calls, newest first. -/
def calls (s : State) : List Call := s.bus.log.takeWhile (· ≠ .attempt)

/-- The rules as this attempt began. -/
def rulesBefore (rules : List Rule) (s : State) : List Rule := held rules (s.bus.log.dropWhile (· ≠ .attempt))

end State

/-! ## Where the attempt stands -/

/-- Device1.Connect was issued after Discovering was read as false, and then these calls. -/
def Dialled (since calls : List Call) : Prop :=
  ∃ pre, calls = since ++ .connect :: pre ∧ (∀ c ∈ pre, c.early = true) ∧ .discovering false ∈ pre

/-- Up to StartNotify; the second rule is best-effort. -/
def subscribed (gatt : Gatt) (ch : Nat) (ok : Bool) : List Call :=
  [.startNotify, .subscribe ch, .addMatch (deviceMatch gatt.devPath) ok, .addMatch (rxMatch gatt.rxPath) true]

/-- The cleanup after a failed StartNotify. -/
def unwound (gatt : Gatt) (ch : Nat) (ok rx dev : Bool) : List Call :=
  .disconnect :: .removeMatch (deviceMatch gatt.devPath) dev :: .removeMatch (rxMatch gatt.rxPath) rx :: .unsubscribe ch :: subscribed gatt ch ok

/-- Close's calls. -/
def closed (gatt : Gatt) (ch : Nat) (ok rx dev : Bool) : List Call :=
  .removeMatch (deviceMatch gatt.devPath) dev :: .removeMatch (rxMatch gatt.rxPath) rx :: .disconnect :: .stopNotify :: .unsubscribe ch ::
    subscribed gatt ch ok

/-- An error is returned after Device1.Connect. -/
inductive Aborted (ch : Nat) (calls : List Call) : Prop
  | link : Dialled [.disconnect] calls → Aborted ch calls
  | rule (rule : Rule) : Dialled [.disconnect, .addMatch rule false] calls → Aborted ch calls
  | notify (gatt : Gatt) (ok rx dev : Bool) : Dialled (unwound gatt ch ok rx dev) calls → Aborted ch calls

/-- What has been called where Close stands. -/
def Traced (ch : Nat) (calls : List Call) (c : Connection) : Prop :=
  c.signalCh = ch ∧ ∃ ok rx dev, Dialled ((closed c.gatt ch ok rx dev).drop c.closing.left) calls

/-- Close has as many calls left, and rxLoop does not start again. -/
structure Follows (c c' : Connection) : Prop where
  gatt : c'.gatt = c.gatt
  signalCh : c'.signalCh = c.signalCh
  left : c'.closing.left = c.closing.left
  listens : c'.closing.listens = c.closing.listens
  loop : c.loop = .ended → c'.loop = .ended

/-- What has been called where the attempt stands. -/
def Pc.Trace (ch : Nat) (calls : List Call) : Pc → Prop
  | scan | findAdapter _ | findDevice _ _ | stopDiscovery _ _ | discovering _ _ | discoveringSelect _ _ => ∀ c ∈ calls, c.early = true
  | oldLink _ | abortOld _ | disconnected _ | disconnectedSelect _ | settle _ => (∀ c ∈ calls, c.early = true) ∧ .discovering false ∈ calls
  | connectDevice _ | resolved _ | resolvedSelect _ | discoverGATT _ | addMatch _ => Dialled [] calls
  | addDeviceMatch gatt => Dialled [.addMatch (rxMatch gatt.rxPath) true] calls
  | startNotify gatt | mtu gatt => ∃ ok, Dialled (subscribed gatt ch ok) calls
  | removeMatch gatt _ => ∃ ok, Dialled (.unsubscribe ch :: subscribed gatt ch ok) calls
  | removeDeviceMatch gatt _ => ∃ ok rx, Dialled (.removeMatch (rxMatch gatt.rxPath) rx :: .unsubscribe ch :: subscribed gatt ch ok) calls
  | abort _ => Aborted ch calls
  | failed _ _ | pause _ | returned _ => (∀ c ∈ calls, c.early = true) ∨ Aborted ch calls
  | ready c => Traced ch calls c

/-- The bus has the attempt's channel. -/
def Pc.listens : Pc → Bool
  | startNotify _ | mtu _ => true
  | ready c => c.closing.listens
  | _ => false

/-- rxLoop has returned once Close is past `<-c.loopDone`. -/
def Pc.Joined : Pc → Prop
  | ready c => c.closing.listens = true ∨ c.loop = .ended
  | _ => True

structure Tidy (rules : List Rule) (s : State) : Prop where
  told : s.bus.Told rules
  trace : s.pc.Trace s.attempts s.calls
  subscribed : s.subscribed = true → s.pc.listens = true
  joined : s.pc.Joined
  observed : ∀ after before, s.bus.log = after ++ .connect :: before → .discovering false ∈ before.takeWhile (· ≠ .attempt)

/-! ## Every step keeps it -/

theorem Dialled.cons {since calls : List Call} (h : Dialled since calls) (call : Call) : Dialled (call :: since) (call :: calls) := by
  obtain ⟨pre, rfl, hpre, hd⟩ := h
  exact ⟨pre, rfl, hpre, hd⟩

namespace Tidy

variable {rules : List Rule} {s s' : State}

/-- To another place, nothing called. -/
theorem goto (h : Tidy rules s) {pc : Pc} (ht : s.pc.Trace s.attempts s.calls → pc.Trace s.attempts s.calls)
    (hl : s.pc.listens = true → pc.listens = true) (hj : pc.Joined) : Tidy rules (s.goto pc) :=
  ⟨h.told, ht h.trace, fun hs => hl (h.subscribed hs), hj, h.observed⟩

/-- To another place with more calls. -/
theorem calls (h : Tidy rules s) (new : List Call) (hlog : s'.bus.log = new ++ s.bus.log) (htold : s'.bus.Told rules)
    (hn : ∀ c ∈ new, c ≠ .attempt ∧ c ≠ .connect) (ha : s'.attempts = s.attempts)
    (ht : s.pc.Trace s.attempts s.calls → s'.pc.Trace s.attempts (new ++ s.calls)) (hl : s'.subscribed = true → s'.pc.listens = true)
    (hj : s'.pc.Joined) : Tidy rules s' := by
  have hcalls : s'.calls = new ++ s.calls := by
    rw [State.calls, hlog, List.takeWhile_append_of_pos fun c hc => by simpa using (hn c hc).1]
    rfl
  refine ⟨htold, ?_, hl, hj, ?_⟩
  · rw [ha, hcalls]
    exact ht h.trace
  · intro after before heq
    rw [hlog] at heq
    -- Connect is none of the new ones
    rcases List.append_eq_append_iff.1 heq with ⟨mid, _, hlog⟩ | ⟨mid, hnew, hconn⟩
    · exact h.observed mid before hlog
    · cases mid with
      | nil => exact h.observed [] before hconn.symm
      | cons c mid =>
        obtain ⟨rfl, _⟩ := List.cons.inj hconn
        exact ((hn .connect (by rw [hnew]; simp)).2 rfl).elim

/-- Device1.Connect is issued. -/
theorem connect (h : Tidy rules s) {pc : Pc} (hd : .discovering false ∈ s.calls)
    (ht : s.pc.Trace s.attempts s.calls → pc.Trace s.attempts (.connect :: s.calls)) (hl : s.pc.listens = false) (hj : pc.Joined) :
    Tidy rules ((s.note .connect).goto pc) := by
  refine ⟨h.told.note rfl, ht h.trace, fun hs => ?_, hj, ?_⟩
  · cases hl.symm.trans (h.subscribed hs)
  · intro after before heq
    cases after with
    | nil =>
      obtain ⟨_, rfl⟩ := List.cons.inj heq
      exact hd
    | cons c after => exact h.observed after before (List.cons.inj heq).2

/-- The channel is not in it. -/
theorem queue (h : Tidy rules s) (queue : List Notice) : Tidy rules { s with queue } := ⟨h.told, h.trace, h.subscribed, h.joined, h.observed⟩

theorem tryConnect (h : Tidy rules s) (hl : s.pc.listens = false) : Tidy rules s.tryConnect := by
  have hsub : s.subscribed = false := by
    cases hs : s.subscribed with
    | false => rfl
    | true => cases hl.symm.trans (h.subscribed hs)
  have hcalls : s.tryConnect.calls = [] := rfl
  refine ⟨h.told.note rfl, ?_, ?_, ?_, ?_⟩
  · rw [hcalls]
    unfold State.tryConnect
    cases s.target <;> exact fun c hc => absurd hc List.not_mem_nil
  · intro hs
    cases hsub.symm.trans hs
  · unfold State.tryConnect
    cases s.target <;> trivial
  · intro after before heq
    cases after with
    | nil => cases (List.cons.inj heq).1
    | cons c after => exact h.observed after before (List.cons.inj heq).2

theorem abort (h : Tidy rules s) (err : Err) (ht : s.pc.Trace s.attempts s.calls → Aborted s.attempts (.disconnect :: s.calls))
    (hl : s.pc.listens = false) : Tidy rules (s.abort err) :=
  h.calls [.disconnect] rfl (h.told.note rfl) (by decide) rfl ht (fun hs => by cases hl.symm.trans (h.subscribed hs)) trivial

theorem answered (h : Tidy rules s) (r : Reply) {k : Bool → State} (hk : ∀ ok, Tidy rules (k ok)) : Tidy rules (s.answered r k) := by
  unfold State.answered
  split
  · exact hk true
  · exact hk false
  · exact h

theorem withObjects (h : Tidy rules s) (r : Reply) {fail : Err → State} {k : Objects → Except Err Pc} (hf : ∀ err, Tidy rules (fail err))
    (hk : ∀ objects pc, k objects = .ok pc → Tidy rules (s.goto pc)) : Tidy rules (s.withObjects r fail k) := by
  unfold State.withObjects
  split
  · split
    · next hok => exact hk _ _ hok
    · exact hf _
  · exact hf _
  · exact h

/-- tryConnect returns the connection. -/
theorem connected (h : Tidy rules s) {gatt : Gatt} (hpc : s.pc = .mtu gatt) (blockLength : Nat) : Tidy rules (s.connected gatt blockLength) := by
  refine h.goto (fun ht => ?_) (fun _ => rfl) (.inl rfl)
  rw [hpc] at ht
  obtain ⟨ok, ht⟩ := ht
  exact ⟨rfl, ok, true, true, ht⟩

theorem map_ok {α β : Type} {x : Except Err α} {f : α → β} {b : β} (h : x.map f = .ok b) : ∃ a, f a = b := by
  cases x with
  | error err => cases h
  | ok a => exact ⟨a, Except.ok.inj h⟩

theorem early_cons {calls : List Call} {call : Call} (hc : call.early = true) (h : ∀ c ∈ calls, c.early = true) :
    ∀ c ∈ call :: calls, c.early = true := by
  intro c hm
  rcases List.mem_cons.1 hm with rfl | hm
  · exact hc
  · exact h c hm

theorem reply (h : Tidy rules s) (r : Reply) : Tidy rules (s.reply r) := by
  have hgo : ∀ {pc pc' : Pc}, s.pc = pc → (pc.Trace s.attempts s.calls → pc'.Trace s.attempts s.calls) → pc.listens = false → pc'.Joined →
      Tidy rules (s.goto pc') := by
    intro pc pc' hpc ht hl hj
    refine h.goto (fun hs => ht (hpc ▸ hs)) (fun hs => ?_) hj
    rw [hpc, hl] at hs
    cases hs
  have habort : ∀ {pc : Pc}, s.pc = pc → (pc.Trace s.attempts s.calls → Dialled [] s.calls) → pc.listens = false → ∀ err,
      Tidy rules (s.abort err) := by
    intro pc hpc ht hl err
    exact h.abort err (fun hs => .link ((ht (hpc ▸ hs)).cons _)) (hpc ▸ hl)
  have hnew : ∀ {pc : Pc} {s' : State} (new : List Call), s.pc = pc → s'.bus.log = new ++ s.bus.log → s'.bus.Told rules →
      (∀ c ∈ new, c ≠ .attempt ∧ c ≠ .connect) → s'.attempts = s.attempts →
      (pc.Trace s.attempts s.calls → s'.pc.Trace s.attempts (new ++ s.calls)) →
      (s'.subscribed = true → s'.pc.listens = true) → s'.pc.Joined → Tidy rules s' := by
    intro pc s' new hpc hlog htold hn ha ht hl hj
    exact h.calls new hlog htold hn ha (fun hs => ht (hpc ▸ hs)) hl hj
  have hoff : s.pc.listens = false → ∀ {b : Bool}, s.subscribed = true → b = true := by
    intro hl b hs
    cases hl.symm.trans (h.subscribed hs)
  unfold State.reply
  split <;> rename_i hpc
  · exact hgo hpc id rfl trivial
  · exact hgo hpc .inl rfl trivial
  · -- findAdapter
    refine h.withObjects _ (fun err => hgo hpc .inl rfl trivial) fun objects pc hok => ?_
    obtain ⟨adapterPath, rfl⟩ := map_ok hok
    exact hgo hpc id rfl trivial
  · -- findDevice
    refine h.withObjects _ (fun err => hgo hpc .inl rfl trivial) fun objects pc hok => ?_
    obtain ⟨devPath, rfl⟩ := map_ok hok
    exact hgo hpc id rfl trivial
  · exact h.answered _ fun _ => hgo hpc id rfl trivial
  · -- discovering
    exact hnew [.discovering true] hpc rfl (h.told.note rfl) (by decide) rfl (early_cons rfl) (hoff (hpc ▸ rfl)) trivial
  · exact hnew [.discovering false] hpc rfl (h.told.note rfl) (by decide) rfl (fun ht => ⟨early_cons rfl ht, List.mem_cons_self⟩)
      (hoff (hpc ▸ rfl)) trivial
  · exact hgo hpc .inl rfl trivial
  · exact hgo hpc .inl rfl trivial
  · exact hgo hpc .inl rfl trivial
  · exact hgo hpc id rfl trivial
  · -- oldLink
    exact hnew [.disconnect] hpc rfl (h.told.note rfl) (by decide) rfl
      (fun ht => ⟨early_cons rfl ht.1, List.mem_cons_of_mem _ ht.2⟩) (hoff (hpc ▸ rfl)) trivial
  · exact hgo hpc id rfl trivial
  · exact hgo hpc id rfl trivial
  · exact hgo hpc id rfl trivial
  · exact h.answered _ fun _ => hgo hpc id rfl trivial
  · exact hgo hpc id rfl trivial
  · exact hgo hpc id rfl trivial
  · exact hgo hpc (fun ht => .inl ht.1) rfl trivial
  · exact hgo hpc (fun ht => .inl ht.1) rfl trivial
  · exact hgo hpc (fun ht => .inl ht.1) rfl trivial
  · exact hgo hpc id rfl trivial
  · exact hgo hpc (fun ht => .inl ht.1) rfl trivial
  · -- settle
    have ht := h.trace
    rw [hpc] at ht
    exact h.connect ht.2 (fun _ => ⟨s.calls, rfl, ht.1, ht.2⟩) (hpc ▸ rfl) trivial
  · exact habort hpc id rfl _
  · exact hgo hpc id rfl trivial
  · exact habort hpc id rfl _
  · exact hgo hpc id rfl trivial
  · exact hgo hpc id rfl trivial
  · exact hgo hpc id rfl trivial
  · exact habort hpc id rfl _
  · exact hgo hpc id rfl trivial
  · -- discoverGATT
    refine h.withObjects _ (habort hpc id rfl) fun objects pc hok => ?_
    obtain ⟨gatt, rfl⟩ := map_ok hok
    exact hgo hpc id rfl trivial
  · -- addMatch
    next gatt _ =>
    exact hnew [.disconnect, .addMatch (rxMatch gatt.rxPath) false] hpc rfl ((h.told.addMatch _ false).note rfl) (by simp) rfl
      (fun ht => .rule _ ((ht.cons _).cons _)) (hoff (hpc ▸ rfl)) trivial
  · next gatt =>
    exact hnew [.addMatch (rxMatch gatt.rxPath) true] hpc rfl (h.told.addMatch _ true) (by simp) rfl (fun ht => ht.cons _)
      (hoff (hpc ▸ rfl)) trivial
  · -- addDeviceMatch
    next gatt =>
    refine h.answered _ fun ok => ?_
    exact hnew [.startNotify, .subscribe s.attempts, .addMatch (deviceMatch gatt.devPath) ok] hpc rfl
      (((h.told.addMatch _ ok).note rfl).note rfl) (by simp) rfl (fun ht => ⟨ok, ((ht.cons _).cons _).cons _⟩) (fun _ => rfl) trivial
  · -- startNotify
    exact hnew [.unsubscribe s.attempts] hpc rfl (h.told.note rfl) (by simp) rfl (fun ⟨ok, ht⟩ => ⟨ok, ht.cons _⟩)
      (fun hs => by cases hs) trivial
  · exact h.goto (fun ht => by rw [hpc] at ht; exact ht) (fun _ => rfl) trivial
  · -- removeMatch
    refine h.answered _ fun ok => ?_
    exact hnew [_] hpc rfl (h.told.removeMatch _ ok) (by simp) rfl (fun ⟨ok, ht⟩ => ⟨ok, _, ht.cons _⟩) (hoff (hpc ▸ rfl)) trivial
  · -- removeDeviceMatch
    refine h.answered _ fun ok => ?_
    exact hnew [.disconnect, _] hpc rfl ((h.told.removeMatch _ ok).note rfl) (by simp) rfl
      (fun ⟨ok, rx, ht⟩ => .notify _ ok rx _ ((ht.cons _).cons _)) (hoff (hpc ▸ rfl)) trivial
  · exact h.answered _ fun _ => hgo hpc .inr rfl trivial
  · exact h.connected hpc _
  · exact h.connected hpc _
  · exact h.connected hpc _
  · -- in connect
    split
    · exact hgo hpc id rfl trivial
    · exact hgo hpc id rfl trivial
  · exact hgo hpc id rfl trivial
  · have hpause : Tidy rules { s with backoff := min (s.backoff * 2) connectRetryMax } := ⟨h.told, h.trace, h.subscribed, h.joined, h.observed⟩
    exact hpause.tryConnect (hpc ▸ rfl)
  · exact h

theorem withConnection (h : Tidy rules s) {f : Connection → Connection}
    (hf : ∀ c, Follows c (f c)) : Tidy rules (s.withConnection f) := by
  unfold State.withConnection
  split
  · next c hpc =>
    obtain ⟨hg, hch, hleft, hlistens, hloop⟩ := hf c
    have hj := h.joined
    rw [hpc] at hj
    refine h.goto (fun ht => ?_) (fun hl => ?_) ?_
    · rw [hpc] at ht
      show Traced s.attempts s.calls (f c)
      unfold Traced
      rw [hg, hch, hleft]
      exact ht
    · rw [hpc] at hl
      show (f c).closing.listens = true
      rw [hlistens]
      exact hl
    · show (f c).closing.listens = true ∨ _
      rw [hlistens]
      exact hj.imp_right hloop
  · exact h

theorem answer (h : Tidy rules s) {c : Connection} (hpc : s.pc = .ready c) (ok : Bool) :
    Tidy rules { s with bus := (c.answer s.bus ok).2, pc := .ready (c.answer s.bus ok).1 } := by
  obtain ⟨hch, b, rx, dev, hd⟩ : Traced s.attempts s.calls c := by
    have ht := h.trace
    rwa [hpc] at ht
  have hj : c.closing.listens = true ∨ c.loop = .ended := by
    have hj := h.joined
    rwa [hpc] at hj
  have hl : s.subscribed = true → c.closing.listens = true := by
    have hl := h.subscribed
    rwa [hpc] at hl
  have hsame : Tidy rules { s with bus := s.bus, pc := .ready c } := ⟨h.told, ⟨hch, b, rx, dev, hd⟩, hl, hj, h.observed⟩
  unfold Connection.answer
  cases hcl : c.closing with
  | notYet => exact hsame
  | joining => exact hsame
  | closed => exact hsame
  | stopNotify =>
    rw [hcl] at hd hl hj
    refine h.calls [.disconnect] rfl (h.told.note rfl) (by decide) rfl (fun _ => ?_) (fun hs => ?_) (.inr (hj.resolve_left Bool.false_ne_true))
    · exact ⟨hch, b, rx, dev, hd.cons .disconnect⟩
    · cases hl hs
  | disconnect =>
    rw [hcl] at hd hl hj
    refine h.calls [] rfl h.told (by decide) rfl (fun _ => ?_) (fun hs => ?_) (.inr (hj.resolve_left Bool.false_ne_true))
    · exact ⟨hch, b, rx, dev, hd⟩
    · cases hl hs
  | removeMatch =>
    rw [hcl] at hd hl hj
    refine h.calls [_] rfl (h.told.removeMatch _ ok) (by simp) rfl (fun _ => ?_) (fun hs => ?_) (.inr (hj.resolve_left Bool.false_ne_true))
    · exact ⟨hch, b, _, dev, hd.cons _⟩
    · cases hl hs
  | removeDeviceMatch =>
    rw [hcl] at hd hl hj
    refine h.calls [_] rfl (h.told.removeMatch _ ok) (by simp) rfl (fun _ => ?_) (fun hs => ?_) (.inr (hj.resolve_left Bool.false_ne_true))
    · exact ⟨hch, b, rx, _, hd.cons _⟩
    · cases hl hs

end Tidy

/-! ### What is done with the connection -/

theorem Follows.refl (c : Connection) : Follows c c := ⟨rfl, rfl, rfl, rfl, id⟩

theorem take_follows (c : Connection) (now : Nat) : Follows c (c.take now) := by
  unfold Connection.take
  split
  · next sig rest hloop hq =>
    have hsel : ∀ {c' : Connection}, c'.gatt = c.gatt → c'.signalCh = c.signalCh → c'.closing = c.closing → Follows c c' := by
      intro c' hg hch hcl
      refine ⟨hg, hch, by rw [hcl], by rw [hcl], fun he => ?_⟩
      cases hloop.symm.trans he
    unfold Connection.handleSignal
    split
    · split
      · split <;> exact hsel rfl rfl rfl
      · split
        · split <;> exact hsel rfl rfl rfl
        · exact hsel rfl rfl rfl
    · exact hsel rfl rfl rfl
  · exact .refl c

theorem flush_follows (c : Connection) : Follows c c.flush := by
  unfold Connection.flush
  split
  · next hloop =>
    split
    · exact ⟨rfl, rfl, rfl, rfl, id⟩
    · refine ⟨rfl, rfl, rfl, rfl, fun he => ?_⟩
      cases hloop.symm.trans he
  · exact .refl c

theorem quit_follows (c : Connection) : Follows c c.quit := by
  unfold Connection.quit
  split
  · split
    · exact ⟨rfl, rfl, rfl, rfl, fun _ => rfl⟩
    · split
      · exact ⟨rfl, rfl, rfl, rfl, fun _ => rfl⟩
      · exact .refl c
  · exact .refl c

theorem close_follows (c : Connection) : Follows c c.close := by
  unfold Connection.close
  split
  · next hcl => exact ⟨rfl, rfl, by rw [hcl]; rfl, by rw [hcl]; rfl, id⟩
  · exact .refl c

namespace Tidy

variable {rules : List Rule} {s : State}

theorem join (h : Tidy rules s) : Tidy rules (s.step .join) := by
  unfold State.step
  dsimp only
  split
  · next c hpc =>
    split
    · next hjoined =>
      have ht := h.trace
      rw [hpc] at ht
      obtain ⟨hch, ok, rx, dev, hd⟩ := ht
      have hcl : c.closing = .joining ∧ c.loop = .ended := by simpa [Connection.joined] using hjoined
      rw [hcl.1] at hd
      have hlog : (c.release s.bus).log = [.stopNotify, .unsubscribe s.attempts] ++ s.bus.log := by
        rw [← hch]
        rfl
      exact h.calls _ hlog ((h.told.note rfl).note rfl) (by simp) rfl (fun _ => ⟨hch, ok, rx, dev, (hd.cons _).cons _⟩) nofun (.inr hcl.2)
    · exact h
  · exact h

theorem step (h : Tidy rules s) (e : Event) : Tidy rules (s.step e) := by
  cases e with
  | reply r =>
    unfold State.step
    dsimp only
    split
    · next c hpc => exact h.answered r (h.answer hpc)
    · exact h.reply r
  | signal sig =>
    unfold State.step
    dsimp only
    split
    · exact (h.queue _).withConnection fun c => ⟨rfl, rfl, rfl, rfl, id⟩
    · exact h
  | hangUp =>
    have hup : Tidy rules { s with hungUp := true } := ⟨h.told, h.trace, h.subscribed, h.joined, h.observed⟩
    exact hup.withConnection fun c => ⟨rfl, rfl, rfl, rfl, id⟩
  | take now => exact h.withConnection fun c => take_follows c now
  | flush => exact h.withConnection flush_follows
  | quit => exact h.withConnection quit_follows
  | close => exact h.withConnection close_follows
  | join => exact h.join
  | receive => exact h.withConnection fun c => ⟨rfl, rfl, rfl, rfl, id⟩

theorem start (adapterID : String) (target : Option Path) (rules : List Rule) : Tidy rules (State.start adapterID target rules) := by
  refine tryConnect ⟨rfl, fun c hc => ?_, fun hs => ?_, trivial, fun after before heq => ?_⟩ rfl
  · cases hc
  · cases hs
  · cases after <;> cases heq

theorem of_reach {adapterID : String} {target : Option Path} (h : (machine adapterID target rules).Reach (fun _ _ => True) s) :
    Tidy rules s :=
  h.inv (fun _ hs => hs ▸ start adapterID target rules) fun _ e hs _ => hs.step e

end Tidy

/-! ## What is left -/

/-- `y` was called after `x`. -/
def Later (calls : List Call) (x y : Call) : Prop := ∃ after before, calls = after ++ x :: before ∧ y ∈ after

/-- An attempt that added rules, subscribed and connected has undone it all: `base` are the
    rules as it began, `rules` those of now. A rule stays only if its RemoveMatch failed, and
    of the others only one whose best-effort AddMatch failed may go. -/
structure Cleared (base rules : List Rule) (calls : List Call) : Prop where
  removed : ∀ rule, .addMatch rule true ∈ calls → ∃ ok, Later calls (.addMatch rule true) (.removeMatch rule ok)
  left : ∀ rule, (.addMatch rule true ∈ calls → .removeMatch rule false ∉ calls) → rules.count rule ≤ base.count rule
  others : ∀ rule, (.addMatch rule false ∈ calls → base.count rule = 0) → base.count rule ≤ rules.count rule
  unsubscribed : ∀ ch, .subscribe ch ∈ calls → Later calls (.subscribe ch) (.unsubscribe ch)
  disconnected : .connect ∈ calls → Later calls .connect .disconnect

theorem Later.split {front rear : List Call} {x y : Call} (hy : y ∈ front) (hx : x ∈ rear) : Later (front ++ rear) x y := by
  obtain ⟨mid, before, rfl⟩ := List.append_of_mem hx
  exact ⟨front ++ mid, before, (List.append_assoc _ _ _).symm, List.mem_append_left _ hy⟩

theorem rx_ne_device (gatt : Gatt) : rxMatch gatt.rxPath ≠ deviceMatch gatt.devPath := by
  intro h
  cases h

theorem not_early {pre : List Call} (h : ∀ c ∈ pre, c.early = true) {call : Call} (hc : call.early = false) : call ∉ pre := by
  intro hm
  cases hc.symm.trans (h call hm)

theorem held_of_neutral {rules : List Rule} {log : List Call} (h : ∀ c ∈ log, c.neutral = true) : held rules log = rules := by
  induction log with
  | nil => rfl
  | cons call log ih =>
    rw [held_neutral (h call List.mem_cons_self)]
    exact ih fun c hc => h c (List.mem_cons_of_mem _ hc)

theorem neutral_of_early {call : Call} (h : call.early = true) : call.neutral = true := by
  cases call with
  | addMatch _ _ => cases h
  | removeMatch _ _ => cases h
  | _ => rfl

theorem held_early {rules : List Rule} {pre : List Call} (h : ∀ c ∈ pre, c.early = true) : held rules pre = rules :=
  held_of_neutral fun c hc => neutral_of_early (h c hc)

theorem Dialled.held {since calls : List Call} (h : Dialled since calls) (base : List Rule) : held base calls = held base since := by
  obtain ⟨pre, rfl, hpre, _⟩ := h
  rw [held_append, held_neutral rfl, held_early hpre]

/-- No rule, no channel and no connection. -/
theorem cleared_early {base : List Rule} {calls : List Call} (h : ∀ c ∈ calls, c.early = true) : Cleared base (held base calls) calls := by
  rw [held_early h]
  exact ⟨fun rule hm => (not_early h rfl hm).elim, fun _ _ => Nat.le_refl _, fun _ _ => Nat.le_refl _,
    fun ch hm => (not_early h rfl hm).elim, fun hm => (not_early h rfl hm).elim⟩

/-- A connection and no rule. -/
theorem cleared_link {base : List Rule} {since calls : List Call} (h : Dialled (.disconnect :: since) calls)
    (hsince : ∀ c ∈ since, ∃ rule, c = .addMatch rule false) : Cleared base (held base calls) calls := by
  have hheld : held base calls = base := by
    rw [h.held, held_neutral rfl]
    refine held_of_neutral fun c hc => ?_
    obtain ⟨rule, rfl⟩ := hsince c hc
    rfl
  obtain ⟨pre, rfl, hpre, _⟩ := h
  have hno : ∀ {call : Call}, call ∈ .disconnect :: since ++ .connect :: pre → call = .disconnect ∨ call = .connect ∨
      (∃ rule, call = .addMatch rule false) ∨ call.early = true := by
    intro call hm
    rcases List.mem_append.1 hm with hm | hm
    · exact (List.mem_cons.1 hm).imp_right fun hm => .inr (.inl (hsince call hm))
    · exact .inr ((List.mem_cons.1 hm).imp_right fun hm => .inr (hpre call hm))
  rw [hheld]
  refine ⟨fun rule hm => ?_, fun _ _ => Nat.le_refl _, fun _ _ => Nat.le_refl _, fun ch hm => ?_, fun _ => ?_⟩
  · rcases hno hm with hm | hm | ⟨rule, hm⟩ | hm <;> cases hm
  · rcases hno hm with hm | hm | ⟨rule, hm⟩ | hm <;> cases hm
  · exact ⟨_, _, rfl, List.mem_cons_self⟩

/-- The rules after both were added, the second perhaps, and both removed again, where RemoveMatch works. -/
theorem count_undone {base : List Rule} {rx dev : Rule} (hne : rx ≠ dev) (ok okRx okDev : Bool) (rule : Rule) :
    (held base [.removeMatch dev okDev, .removeMatch rx okRx, .addMatch dev ok, .addMatch rx true]).count rule =
      base.count rule + (if rule = rx ∧ okRx = false then 1 else 0) + (if rule = dev ∧ ok = true then 1 else 0) -
        if rule = dev ∧ okDev = true then 1 else 0 := by
  by_cases hrx : rule = rx
  · subst hrx
    cases ok <;> cases okRx <;> cases okDev <;> simp [Bluez.held, hne, Ne.symm hne]
  · by_cases hdev : rule = dev
    · subst hdev
      cases ok <;> cases okRx <;> cases okDev <;> simp [Bluez.held, hne, Ne.symm hne]
    · cases ok <;> cases okRx <;> cases okDev <;>
        simp [Bluez.held, hrx, hdev, Ne.symm hrx, Ne.symm hdev]

/-- Both rules and the subscription, undone after or before Device1.Disconnect. -/
theorem cleared_undone {base : List Rule} {calls last mid : List Call} {gatt : Gatt} {ch : Nat} {ok rx dev : Bool}
    (h : Dialled (last ++ .removeMatch (deviceMatch gatt.devPath) dev :: .removeMatch (rxMatch gatt.rxPath) rx ::
      (mid ++ .unsubscribe ch :: subscribed gatt ch ok)) calls)
    (hother : ∀ c ∈ last ++ mid, c = .disconnect ∨ c = .stopNotify) (hd : .disconnect ∈ last ++ mid) :
    Cleared base (held base calls) calls := by
  have hlast : ∀ c ∈ last, c.neutral = true := by
    intro c hc
    rcases hother c (List.mem_append_left _ hc) with rfl | rfl <;> rfl
  have hmid : ∀ c ∈ mid, c.neutral = true := by
    intro c hc
    rcases hother c (List.mem_append_right _ hc) with rfl | rfl <;> rfl
  have hheld : held base calls = held base [.removeMatch (deviceMatch gatt.devPath) dev, .removeMatch (rxMatch gatt.rxPath) rx,
      .addMatch (deviceMatch gatt.devPath) ok, .addMatch (rxMatch gatt.rxPath) true] := by
    have hinner : held base (mid ++ .unsubscribe ch :: subscribed gatt ch ok) =
        held base [.addMatch (deviceMatch gatt.devPath) ok, .addMatch (rxMatch gatt.rxPath) true] := by
      rw [held_append, held_of_neutral hmid]
      rfl
    rw [h.held, held_append, held_of_neutral hlast]
    have hsame := held_append base [.removeMatch (deviceMatch gatt.devPath) dev, .removeMatch (rxMatch gatt.rxPath) rx]
    exact (hsame _).trans ((congrArg (held · _) hinner).trans (hsame _).symm)
  have hcount := @count_undone base _ _ (rx_ne_device gatt) ok rx dev
  rw [← hheld] at hcount
  obtain ⟨pre, hcalls, hpre, _⟩ := h
  have hsplit : calls = (last ++ .removeMatch (deviceMatch gatt.devPath) dev :: .removeMatch (rxMatch gatt.rxPath) rx ::
      (mid ++ [.unsubscribe ch])) ++ (subscribed gatt ch ok ++ .connect :: pre) := by
    rw [hcalls]
    simp
  have hno : ∀ call : Call, call ≠ .disconnect → call ≠ .stopNotify → call.early = false → call ∉ last ∧ call ∉ mid ∧ call ∉ pre := by
    intro call hdisc hstop he
    refine ⟨fun hm => ?_, fun hm => ?_, not_early hpre he⟩
    · exact (hother call (List.mem_append_left _ hm)).elim hdisc hstop
    · exact (hother call (List.mem_append_right _ hm)).elim hdisc hstop
  have hadd : ∀ rule b, .addMatch rule b ∈ calls ↔ rule = deviceMatch gatt.devPath ∧ b = ok ∨ rule = rxMatch gatt.rxPath ∧ b = true := by
    intro rule b
    obtain ⟨hl, hm, hp⟩ := hno (.addMatch rule b) (by simp) (by simp) rfl
    simp [hsplit, subscribed, hl, hm, hp]
  have hrem : ∀ rule b, .removeMatch rule b ∈ calls ↔ rule = deviceMatch gatt.devPath ∧ b = dev ∨ rule = rxMatch gatt.rxPath ∧ b = rx := by
    intro rule b
    obtain ⟨hl, hm, hp⟩ := hno (.removeMatch rule b) (by simp) (by simp) rfl
    simp [hsplit, subscribed, hl, hm, hp]
  refine ⟨fun rule hm => ?_, fun rule hgone => ?_, fun rule hnot => ?_, fun c hm => ?_, fun _ => ?_⟩
  · rcases (hadd rule true).1 hm with ⟨rfl, rfl⟩ | ⟨rfl, _⟩
    · exact ⟨dev, hsplit ▸ .split (by simp) (by simp [subscribed])⟩
    · exact ⟨rx, hsplit ▸ .split (by simp) (by simp [subscribed])⟩
  · rw [hcount]
    by_cases hrx : rule = rxMatch gatt.rxPath
    · have hok : rx ≠ false := fun hf => hgone ((hadd rule true).2 (.inr ⟨hrx, rfl⟩)) ((hrem rule false).2 (.inr ⟨hrx, hf.symm⟩))
      have hdev : rule ≠ deviceMatch gatt.devPath := hrx ▸ rx_ne_device gatt
      simp [hok, hdev]
    · by_cases hdev : rule = deviceMatch gatt.devPath
      · cases hok : ok with
        | true =>
          have hgo : dev ≠ false := fun hf => hgone ((hadd rule true).2 (.inl ⟨hdev, hok.symm⟩)) ((hrem rule false).2 (.inl ⟨hdev, hf.symm⟩))
          simp [hdev, hgo, (rx_ne_device gatt).symm]
        | false => simp [hrx]
      · simp [hrx, hdev]
  · rw [hcount]
    by_cases hdev : rule = deviceMatch gatt.devPath
    · cases hok : ok with
      | true =>
        cases dev <;> simp [hdev, (rx_ne_device gatt).symm]
      | false =>
        rw [hnot ((hadd rule false).2 (.inl ⟨hdev, hok.symm⟩))]
        exact Nat.zero_le _
    · simp [hdev]
  · obtain ⟨hl, hm', hp⟩ := hno (.subscribe c) (by simp) (by simp) rfl
    have hc : c = ch := by simpa [hsplit, subscribed, hl, hm', hp] using hm
    rw [hc, hsplit]
    exact .split (by simp) (by simp [subscribed])
  · rw [hsplit]
    refine .split ?_ (by simp)
    rcases List.mem_append.1 hd with hd | hd <;> simp [hd]

/-! ## Error returns, Close and the receiver -/

namespace Tidy

variable {rules : List Rule} {s : State}

theorem rules_now (h : Tidy rules s) : s.bus.rules = held (s.rulesBefore rules) s.calls := by
  rw [h.told, State.rulesBefore, State.calls, ← held_append, List.takeWhile_append_dropWhile]

theorem cleared_failed (h : Tidy rules s) {err : Err} {retry : Bool} (hpc : s.pc = .failed err retry) :
    Cleared (s.rulesBefore rules) s.bus.rules s.calls := by
  have ht := h.trace
  rw [hpc] at ht
  rw [h.rules_now]
  rcases ht with ht | ht
  · exact cleared_early ht
  · cases ht with
    | link hd => exact cleared_link hd fun c hc => absurd hc List.not_mem_nil
    | rule rule hd => exact cleared_link hd fun c hc => ⟨rule, List.mem_singleton.1 hc⟩
    | notify gatt ok rx dev hd => exact @cleared_undone _ _ [.disconnect] [] _ _ _ _ _ hd (by simp) (by simp)

theorem unsubscribed (h : Tidy rules s) (hpc : s.pc.listens = false) : s.subscribed = false := by
  cases hs : s.subscribed with
  | false => rfl
  | true => cases hpc.symm.trans (h.subscribed hs)

theorem dialled_closed (h : Tidy rules s) {c : Connection} (hpc : s.pc = .ready c) (hcl : c.closing = .closed) :
    ∃ ok rx dev, Dialled (closed c.gatt s.attempts ok rx dev) s.calls := by
  have ht := h.trace
  rw [hpc] at ht
  obtain ⟨_, ok, rx, dev, hd⟩ := ht
  rw [hcl] at hd
  exact ⟨ok, rx, dev, hd⟩

theorem cleared_closed (h : Tidy rules s) {c : Connection} (hpc : s.pc = .ready c) (hcl : c.closing = .closed) :
    Cleared (s.rulesBefore rules) s.bus.rules s.calls := by
  obtain ⟨ok, rx, dev, hd⟩ := h.dialled_closed hpc hcl
  rw [h.rules_now]
  exact @cleared_undone _ _ [] [.disconnect, .stopNotify] _ _ _ _ _ hd (by simp) (by simp)

/-- Close's calls are made once. -/
theorem once (h : Tidy rules s) {c : Connection} (hpc : s.pc = .ready c) (hcl : c.closing = .closed) :
    s.calls.filterMap Call.removed = [deviceMatch c.gatt.devPath, rxMatch c.gatt.rxPath] ∧ s.calls.count .stopNotify = 1 ∧
      (s.calls.takeWhile (· ≠ .connect)).count .disconnect = 1 := by
  obtain ⟨ok, rx, dev, pre, hcalls, hpre, _⟩ := h.dialled_closed hpc hcl
  have hrem : pre.filterMap Call.removed = [] := by
    rw [List.filterMap_eq_nil_iff]
    intro call hm
    have he := hpre call hm
    cases call with
    | removeMatch _ _ => cases he
    | _ => rfl
  have hstop : pre.count .stopNotify = 0 := List.count_eq_zero.2 (not_early hpre rfl)
  rw [hcalls]
  refine ⟨?_, ?_, ?_⟩
  · rw [List.filterMap_append, List.filterMap_cons, hrem]
    rfl
  · rw [List.count_append, List.count_cons, hstop]
    rfl
  · have htake : (closed c.gatt s.attempts ok rx dev ++ .connect :: pre).takeWhile (· ≠ .connect) = closed c.gatt s.attempts ok rx dev := by
      rw [List.takeWhile_append_of_pos (by simp [closed, Connect.subscribed])]
      simp
    rw [htake]
    rfl

end Tidy

/-- Close has returned; nothing has been handed over since. -/
structure Over (c : Connection) (s : State) : Prop where
  closed : ∃ c', s.pc = .ready c' ∧ c'.closing = .closed ∧ c'.loop = .ended ∧ c'.link.observed = c.link.observed ∧
    c'.link.received ++ c'.link.inbox = c.link.received ++ c.link.inbox

theorem Over.step {c : Connection} {s : State} (h : Over c s) (e : Event) : Over c (s.step e) := by
  obtain ⟨c', hpc, hcl, hloop, hobs, hin⟩ := h.closed
  have hwith : ∀ {f : Connection → Connection} {s' : State}, s'.pc = s.pc → (f c').closing = .closed → (f c').loop = .ended →
      (f c').link.observed = c'.link.observed → (f c').link.received ++ (f c').link.inbox = c'.link.received ++ c'.link.inbox →
      Over c (s'.withConnection f) := by
    intro f s' hpc' hcl' hloop' hobs' hin'
    unfold State.withConnection
    rw [hpc', hpc]
    exact ⟨_, rfl, hcl', hloop', hobs'.trans hobs, hin'.trans hin⟩
  cases e with
  | reply r =>
    have hkeep : ∀ ok, c'.answer s.bus ok = (c', s.bus) := by
      intro ok
      unfold Connection.answer
      rw [hcl]
    unfold State.step
    dsimp only
    rw [hpc]
    dsimp only
    unfold State.answered
    split
    · dsimp only
      rw [hkeep]
      exact ⟨c', rfl, hcl, hloop, hobs, hin⟩
    · dsimp only
      rw [hkeep]
      exact ⟨c', rfl, hcl, hloop, hobs, hin⟩
    · exact h
  | signal sig =>
    unfold State.step
    dsimp only
    split
    · exact hwith rfl hcl hloop rfl rfl
    · exact h
  | hangUp => exact hwith rfl hcl hloop rfl rfl
  | take now =>
    have hsame : c'.take now = c' := by
      unfold Connection.take
      rw [hloop]
    exact hwith rfl (by rw [hsame, hcl]) (by rw [hsame, hloop]) (by rw [hsame]) (by rw [hsame])
  | flush =>
    have hsame : c'.flush = c' := by
      unfold Connection.flush
      rw [hloop]
    exact hwith rfl (by rw [hsame, hcl]) (by rw [hsame, hloop]) (by rw [hsame]) (by rw [hsame])
  | quit =>
    have hsame : c'.quit = c' := by
      unfold Connection.quit
      rw [hloop]
    exact hwith rfl (by rw [hsame, hcl]) (by rw [hsame, hloop]) (by rw [hsame]) (by rw [hsame])
  | close =>
    have hsame : c'.close = c' := by
      unfold Connection.close
      rw [hcl]
      rfl
    exact hwith rfl (by rw [hsame, hcl]) (by rw [hsame, hloop]) (by rw [hsame]) (by rw [hsame])
  | join =>
    have hnot : c'.joined = false := by
      unfold Connection.joined
      rw [hcl]
      rfl
    unfold State.step
    dsimp only
    rw [hpc]
    dsimp only
    rw [hnot, if_neg Bool.false_ne_true]
    exact h
  | receive =>
    have hlink : (c'.link.step Connection.bufferSize .receive).observed = c'.link.observed ∧
        (c'.link.step Connection.bufferSize .receive).received ++ (c'.link.step Connection.bufferSize .receive).inbox =
          c'.link.received ++ c'.link.inbox := by
      unfold Framing.Link.step
      dsimp only
      split
      · exact ⟨rfl, rfl⟩
      · next heq =>
        rw [heq]
        exact ⟨rfl, List.append_assoc _ _ _⟩
    exact hwith rfl hcl hloop hlink.1 hlink.2

theorem Over.run {c : Connection} {s : State} (h : Over c s) (es : List Event) : Over c (es.foldl State.step s) := by
  induction es generalizing s with
  | nil => exact h
  | cons e es ih => exact ih (h.step e)

variable {adapterID : String} {target : Option Path} {rules : List Rule} {s : State}

/-- Where tryConnect returns an error, and where Close has returned, what the attempt added
    is undone: a rule stays only if its RemoveMatch failed. Close makes its calls once, and
    nothing is handed over after it. Device1.Connect comes after Discovering was false. -/
theorem connect_leaves_nothing_behind (h : (machine adapterID target rules).Reach (fun _ _ => True) s) :
    (∀ err retry, s.pc = .failed err retry → Cleared (s.rulesBefore rules) s.bus.rules s.calls ∧ s.subscribed = false) ∧
      (∀ c, s.pc = .ready c → c.closing = .closed →
        Cleared (s.rulesBefore rules) s.bus.rules s.calls ∧ s.subscribed = false ∧
        s.calls.filterMap Call.removed = [deviceMatch c.gatt.devPath, rxMatch c.gatt.rxPath] ∧
        s.calls.count .stopNotify = 1 ∧ (s.calls.takeWhile (· ≠ .connect)).count .disconnect = 1 ∧
        ∀ es, Over c ((machine adapterID target rules).run s es)) ∧
      ∀ after before, s.bus.log = after ++ .connect :: before → .discovering false ∈ before.takeWhile (· ≠ .attempt) := by
  have ht := Tidy.of_reach h
  refine ⟨fun err retry hpc => ⟨ht.cleared_failed hpc, ht.unsubscribed (by rw [hpc]; rfl)⟩, fun c hpc hcl => ?_, ht.observed⟩
  obtain ⟨hrem, hstop, hdisc⟩ := ht.once hpc hcl
  have hjoined : (Pc.ready c).Joined := hpc ▸ ht.joined
  have hloop : c.loop = .ended := by
    refine hjoined.resolve_left ?_
    rw [hcl]
    exact Bool.false_ne_true
  refine ⟨ht.cleared_closed hpc hcl, ht.unsubscribed ?_, hrem, hstop, hdisc, fun es => Over.run ⟨c, hpc, hcl, hloop, rfl, rfl⟩ es⟩
  rw [hpc]
  show c.closing.listens = false
  rw [hcl]
  rfl

/-- An adapter and a vehicle with its characteristics. -/
def tree : Objects :=
  [("/org/bluez/hci0", { adapter := some (some true) }), ("/org/bluez/hci0/dev_1", {}),
    ("/org/bluez/hci0/dev_1/s", { service := some (some vehicleServiceUUID) }),
    ("/org/bluez/hci0/dev_1/s/t", { characteristic := some (some toVehicleUUID) }),
    ("/org/bluez/hci0/dev_1/s/r", { characteristic := some (some fromVehicleUUID) })]

/-- Up to AddMatch of the RX rule. -/
def linked : List Event :=
  [.reply (.objects tree), .reply (.objects tree), .reply .ok, .reply (.value false), .reply (.value false), .reply .ok, .reply .ok,
    .reply (.value true), .reply (.objects tree), .reply .ok]

/-- StartNotify fails, and both rules are to be removed. -/
def unnotified (device rx dev : Reply) : List Event :=
  linked ++ [.reply device, .reply (.failed "timeout"), .reply rx, .reply dev, .reply .ok]

/-- Where everything is undone. -/
theorem connect_leaves_nothing_behind_unnotified :
    let s := (machine "hci0" (some "/org/bluez/hci0/dev_1") []).run (State.start "hci0" (some "/org/bluez/hci0/dev_1") [])
      (unnotified .ok .ok .ok)
    Cleared [] s.bus.rules s.calls ∧ s.subscribed = false := by
  intro s
  have h0 : (machine "hci0" (some "/org/bluez/hci0/dev_1") []).Reach (fun _ _ => True) (State.start "hci0" (some "/org/bluez/hci0/dev_1") []) :=
    .init rfl
  have hr := h0.run (unnotified .ok .ok .ok) (.of_forall (fun _ _ => trivial) _ _)
  have hpc : s.pc = .failed "bluez: subscribe to vehicle RX characteristic: timeout" true := by decide +kernel
  exact (connect_leaves_nothing_behind hr).1 _ _ hpc

/-- A RemoveMatch that fails leaves the RX rule, and the device rule that goes was someone else's. -/
theorem connect_leaves_a_rule :
    let run := fun rules es =>
      (machine "hci0" (some "/org/bluez/hci0/dev_1") rules).run (State.start "hci0" (some "/org/bluez/hci0/dev_1") rules) es
    let err := "bluez: subscribe to vehicle RX characteristic: timeout"
    let leaves := run [] (unnotified .ok (.failed "timeout") .ok)
    let takes := run [deviceMatch "/org/bluez/hci0/dev_1"] (unnotified (.failed "timeout") .ok .ok)
    (leaves.pc = .failed err true ∧ leaves.bus.rules = [rxMatch "/org/bluez/hci0/dev_1/s/r"]) ∧
      takes.pc = .failed err true ∧ takes.bus.rules = [] := by
  decide +kernel

end Connect

end ElectricEel.Bluez
