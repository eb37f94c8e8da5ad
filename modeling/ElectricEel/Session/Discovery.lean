/-
  ElectricEel.Session.Discovery — StartDiscovery and the connection (main.go `presenceLoop`,
  `runPresenceWatcher`, `ensureConnectedLocked`; bluez/scan.go `newWatcher`,
  `ensureDiscovering`, `Pause`; bluez/gatt.go `tryConnect`).

  StartDiscovery is called by Watch, by ensureDiscovering in Wait, and by the scan of a
  connect without a target. A connect pauses the session's watcher first, and a watcher that
  is paused does not go on to StartDiscovery; `discoveryMu` keeps Pause from overtaking an
  ensureDiscovering that has passed the check.

  Watch asks for the connection only when discovery is on already: a loop started while a
  manual command has the connection calls StartDiscovery over it (`discovery_over_link`). And
  the watcher a connect pauses is not always that of every loop in Wait: a stopped loop is
  in Wait with its own.

  Proved: where Watch is entered without a connection, and a connect finds no loop in Wait
  with an unpaused watcher other than the session's, no run calls StartDiscovery from
  Device1.Connect until the connection is torn down (`no_discovery_over_link`).
-/
import ElectricEel.Session.Inside
import ElectricEel.Session.Loops

namespace ElectricEel.Session

open Lib Lib.Protowire Commands Wire Child

/-! ## What the log says -/

/-- Device1.Connect has been called, and the link not torn down since. -/
def radioUp : List Happened → Bool
  | [] => false
  | .dial :: _ => true
  | .hangUp :: _ => false
  | .closed _ :: _ => false
  | _ :: rest => radioUp rest

/-- No StartDiscovery while the radio has the connection. -/
def Silent (log : List Happened) : Prop := ∀ after before, log = after ++ .startDiscovery :: before → radioUp before = false

theorem Silent.cons {log : List Happened} (h : Silent log) {e : Happened} (he : e ≠ .startDiscovery) : Silent (e :: log) := by
  intro after before hl
  cases after with
  | nil =>
    injection hl with h1 _
    exact (he h1).elim
  | cons x after =>
    injection hl with _ h2
    exact h after before h2

theorem Silent.scan {log : List Happened} (h : Silent log) (hr : radioUp log = false) : Silent (.startDiscovery :: log) := by
  intro after before hl
  cases after with
  | nil =>
    injection hl with _ h2
    exact h2 ▸ hr
  | cons x after =>
    injection hl with _ h2
    exact h after before h2

/-! ## The condition -/

/-- On the way to a connection. -/
def Locked.connecting : Locked → Bool
  | dial _ _ | dialling _ _ => true
  | _ => false

def Locked.calling : Locked → Bool
  | dialling _ _ => true
  | _ => false

namespace Proc

/-- The step enters Watch. -/
def watches (p : Proc) : Event → Bool
  | .loop g _ => (p.loops g).pc == .watch || (p.loops g).pc == .rewatch
  | _ => false

/-- The step is a connect that goes on to the transport. -/
def dials (p : Proc) : Event → Bool
  | .loop g c =>
    match (p.loops g).pc with
    | .connect target => (p.session.enterConnect none target (c != .fail)).2 == .dial
    | _ => false
  | .command cmd key => (p.session.enterConnect (some cmd) p.session.presenceBeaconTarget key).2 == .dial
  | .navigate key => (p.session.enterConnect none p.session.presenceBeaconTarget key).2 == .dial
  | _ => false

/-- Who is in Wait is there with the session's watcher, or with a paused one. -/
def Clear (p : Proc) : Prop :=
  ∀ g ≤ p.session.presenceGeneration, (p.loops g).pc.scans = true →
    p.session.watcher = some (p.loops g).watcher ∨
      (p.session.watchers (p.loops g).watcher).paused = true ∧ (p.loops g).pc.discovers = false

def Apart (p : Proc) (e : Event) : Prop := p.mu = none → (p.watches e = true → p.session.car = none) ∧ (p.dials e = true → p.Clear)

instance (p : Proc) : Decidable p.Clear := by
  unfold Clear
  infer_instance

instance (p : Proc) (e : Event) : Decidable (p.Apart e) := by
  unfold Apart
  infer_instance

end Proc

/-- A manual command connects. -/
def commanded (cmd : Cmd) : List Event := [.command cmd true, .locked .scan, .locked .attempt, .locked .ok, .locked .ok, .locked .ok]

set_option maxRecDepth 8192 in
/-- Presence mode is started while a manual command has the connection. -/
theorem discovery_over_link : ∃ p : Proc, (Proc.machine plainDecoders).Reach (fun _ _ => True) p ∧ p.session.car = some 0 ∧
    ¬ Silent p.session.log := by
  let es := commanded (.vendor .lock) ++ [.presenceStart defaultPresenceConfig, .loop 1 .go, .loop 1 .go, .loop 1 .go, .locked .ok]
  have h0 : (Proc.machine plainDecoders).Reach (fun _ _ => True) (Proc.start .bluez) := .init ⟨.bluez, rfl⟩
  have hr := h0.run es (.of_forall (fun _ _ => trivial) _ _)
  refine ⟨_, hr, by decide +kernel, ?_⟩
  intro hs
  have hup := hs [] ((Proc.machine plainDecoders).run (Proc.start .bluez) es).session.log.tail (by decide +kernel)
  exact absurd hup (by decide +kernel)

/-! ## What leaves the radio alone -/

namespace State

/-- No StartDiscovery, no new connection, and the log still says whether there is one;
    `calling`: Device1.Connect is going on. -/
structure Hush (s t : State) : Prop where
  watchers : t.watchers = s.watchers
  car : t.car.isSome = true → s.car.isSome = true
  silent : Silent s.log → Silent t.log
  radio : ∀ calling, (calling = true → s.car = none) → radioUp s.log = (s.car.isSome || calling) → radioUp t.log = (t.car.isSome || calling)

namespace Hush

theorem same {s t : State} (hw : t.watchers = s.watchers) (hc : t.car = s.car) (hl : t.log = s.log) : Hush s t :=
  ⟨hw, fun h => hc ▸ h, fun h => hl ▸ h, fun _ _ h => by rw [hl, hc, h]⟩

theorem trans {r s t : State} (h : Hush r s) (h' : Hush s t) : Hush r t := by
  refine ⟨h'.watchers.trans h.watchers, fun hc => h.car (h'.car hc), fun hs => h'.silent (h.silent hs), ?_⟩
  intro calling hn hr
  refine h'.radio calling (fun hc => ?_) (h.radio calling hn hr)
  cases ht : s.car with
  | none => rfl
  | some link =>
    have := h.car (by rw [ht]; rfl)
    rw [hn hc] at this
    cases this

/-- An entry that says nothing of the radio. -/
theorem cons {s t : State} {e : Happened} (hl : t.log = e :: s.log) (hr : radioUp (e :: s.log) = radioUp s.log) (he : e ≠ .startDiscovery)
    (hw : t.watchers = s.watchers) (hc : t.car = s.car) : Hush s t :=
  ⟨hw, fun h => hc ▸ h, fun h => hl ▸ h.cons he, fun _ _ h => by rw [hl, hr, hc, h]⟩

theorem note {s : State} {e : Happened} (hr : radioUp (e :: s.log) = radioUp s.log) (he : e ≠ .startDiscovery) : Hush s (s.note e) :=
  .cons rfl hr he rfl rfl

end Hush

theorem teardown_hush (s : State) : Hush s s.teardown := by
  have hw : s.teardown.watchers = s.watchers := by
    unfold teardown
    dsimp only
    split <;> rfl
  cases hc : s.car with
  | none => exact .same hw (by rw [teardown_car, hc]) (teardown_none hc)
  | some link =>
    refine ⟨hw, fun h => by simp at h, fun h => ?_, ?_⟩
    · rw [teardown_some hc]
      exact h.cons (by simp)
    · intro calling hn _
      have hcalling : calling = false := by
        cases calling with
        | false => rfl
        | true =>
          have := hn rfl
          rw [hc] at this
          cases this
      rw [teardown_some hc, teardown_car, hcalling]
      rfl

theorem emitPresenceDisconnected_hush (s : State) : Hush s s.emitPresenceDisconnected := by
  unfold emitPresenceDisconnected
  split
  · exact .note rfl (by simp)
  · exact .same rfl rfl rfl

theorem dropLink_hush (s : State) : Hush s s.dropLink := (teardown_hush s).trans (emitPresenceDisconnected_hush _)

theorem ensureAuthTap_hush (s : State) (parent : Option Nat) : Hush s (s.ensureAuthTap parent) := by
  refine .same ?_ (ensureAuthTap_car s parent) (ensureAuthTap_log s parent)
  unfold ensureAuthTap
  split
  · split <;> rfl
  · rfl

theorem primeBegin_hush (s : State) (link : Nat) : Hush s (s.primeBegin link) := .cons (e := .used link) rfl rfl (by simp) rfl rfl

theorem primeEnd_hush (s : State) (link : Nat) (r : PrimeReply) : Hush s (s.primeEnd link r) := by
  have hfail : Hush s (s.note (.primeFailed link)) := .note rfl (by simp)
  cases r with
  | status presence => exact .cons (e := .status link s.now presence) rfl rfl (by simp) rfl rfl
  | failed dropped =>
    cases dropped with
    | true => exact hfail.trans (dropLink_hush _)
    | false => exact hfail

theorem emitInside_hush (s : State) : Hush s s.emitInside := by
  unfold emitInside
  split
  · split
    · exact .same rfl rfl rfl
    · next link _ _ => exact .cons (e := .inside link s.now) rfl rfl (by simp) rfl rfl
  · exact .same rfl rfl rfl

theorem stopPresence_hush (s : State) : Hush s s.stopPresence := by
  cases hp : s.presence with
  | none =>
    refine .same ?_ ?_ ?_
    all_goals simp [stopPresence, hp, clearConnectBackoff, stopAuthTap]
  | some g =>
    refine .cons (e := .presenceOff) ?_ rfl (by simp) ?_ ?_
    all_goals simp [stopPresence, hp, clearConnectBackoff, stopAuthTap, State.note]

theorem enterConnect_hush (s : State) (cmd : Option Cmd) (target : Option Result) (key : Bool) :
    Hush s (s.enterConnect cmd target key).1 := by
  have htap := ensureAuthTap_hush s none
  have hsame : Hush s s := .same rfl rfl rfl
  unfold enterConnect
  split
  · split
    · exact hsame
    · split
      · exact htap
      · exact htap.trans (.note rfl (by simp))
  · split
    · exact hsame
    · split <;> exact hsame

end State

namespace Proc

open State

theorem connected_hush (p : Proc) (c : Caller) (ok : Bool) : Hush p.session (p.connected c ok).session := by
  unfold connected
  split
  · exact .note rfl (by simp)
  · have hb : Hush p.session p.session.clearConnectBackoff := .same rfl rfl rfl
    exact hb.trans ((ensureAuthTap_hush _ _).trans (primeBegin_hush _ _))
  · exact .same rfl rfl rfl
  · exact .same rfl rfl rfl

theorem primed_hush (p : Proc) (g : Nat) (connecting : Bool) : Hush p.session (p.primed g connecting).session := by
  unfold primed
  split
  · split <;> exact .same rfl rfl rfl
  · exact emitInside_hush p.session

theorem connected_mu (p : Proc) (c : Caller) (ok : Bool) :
    ∀ k, (p.connected c ok).mu = some k → k.connecting = false ∧ ∀ g, k ≠ .watch g := by
  unfold connected
  split
  · intro k hk
    cases hk
    exact ⟨rfl, by simp⟩
  · intro k hk
    cases hk
    exact ⟨rfl, by simp⟩
  · intro k hk
    cases hk
  · intro k hk
    cases hk

/-- Whatever held `mu` gives it up. -/
theorem connected_any_mu (p : Proc) (m : Option Locked) (c : Caller) (ok : Bool) : { p with mu := m }.connected c ok = p.connected c ok := by
  unfold connected
  rfl

/-! ## The invariant -/

/-- A connection is there, or on the way. -/
def linking (p : Proc) : Bool := p.session.car.isSome || p.mu.any Locked.connecting

structure Muted (p : Proc) : Prop where
  busy : ∀ g, (p.loops g).pc.discovers = true → (p.session.watchers (p.loops g).watcher).busy = true
  alone : ∀ g i, g ≠ i → (p.loops g).pc.discovers = true → (p.loops i).pc.discovers = true → (p.loops g).watcher ≠ (p.loops i).watcher
  paused : p.linking = true → ∀ g, (p.loops g).pc.scans = true →
    (p.session.watchers (p.loops g).watcher).paused = true ∧ (p.loops g).pc.discovers = false
  unlinked : p.mu.any Locked.connecting = true → p.session.car = none
  watch : ∀ g, p.mu = some (.watch g) → p.session.car = none
  radio : radioUp p.session.log = (p.session.car.isSome || p.mu.any Locked.calling)
  silent : Silent p.session.log

theorem connecting_of_calling {m : Option Locked} (h : m.any Locked.calling = true) : m.any Locked.connecting = true := by
  cases m with
  | none => cases h
  | some k =>
    cases k with
    | dialling c target => rfl
    | _ => cases h

theorem kept_of_stays {a : Option Nat} {p q : Proc} (h : Stays a p q) (g : Nat) : Kept (p.loops g) (q.loops g) := by
  rcases h.own g with he | ⟨_, _, hs⟩
  · rw [he]
    exact .refl _
  · exact .of_not hs

@[simp] theorem onSession_loops (p : Proc) (f : State → State) : (p.onSession f).loops = p.loops := rfl

namespace Muted

variable {p q : Proc}

/-- The radio is down unless there is a connection or one on the way. -/
theorem down (h : p.Muted) (hl : p.linking = false) : radioUp p.session.log = false := by
  rw [h.radio, Bool.or_eq_false_iff]
  rw [linking, Bool.or_eq_false_iff] at hl
  refine ⟨hl.1, ?_⟩
  cases hc : p.mu.any Locked.calling with
  | false => rfl
  | true =>
    rw [connecting_of_calling hc] at hl
    cases hl.2

/-- Nobody comes into Wait, watchers may be paused, and the radio is left alone. -/
theorem calm (h : p.Muted) (hk : ∀ g, Kept (p.loops g) (q.loops g))
    (hw : ∀ w, (q.session.watchers w).busy = (p.session.watchers w).busy ∧
      ((p.session.watchers w).paused = true → (q.session.watchers w).paused = true))
    (hcar : q.session.car.isSome = true → p.session.car.isSome = true)
    (hc : q.mu.any Locked.connecting = true → p.mu.any Locked.connecting = true)
    (hwatch : ∀ g, q.mu = some (.watch g) → q.session.car = none)
    (hradio : radioUp q.session.log = (q.session.car.isSome || q.mu.any Locked.calling)) (hs : Silent q.session.log) : q.Muted := by
  have hlink : q.linking = true → p.linking = true := by
    intro hl
    rw [linking, Bool.or_eq_true] at hl ⊢
    exact hl.imp hcar hc
  have hd : ∀ g, (q.loops g).pc.discovers = true → (p.loops g).pc.discovers = true ∧ (q.loops g).watcher = (p.loops g).watcher := by
    intro g hd
    obtain ⟨_, he, hd'⟩ := hk g (Pc.scans_of_discovers hd)
    exact ⟨hd' hd, he⟩
  refine ⟨?_, ?_, ?_, ?_, hwatch, hradio, hs⟩
  · intro g hg
    obtain ⟨hp, he⟩ := hd g hg
    rw [he, (hw _).1]
    exact h.busy g hp
  · intro g i hne hg hi
    rw [(hd g hg).2, (hd i hi).2]
    exact h.alone g i hne (hd g hg).1 (hd i hi).1
  · intro hl g hg
    obtain ⟨hp, he, hd'⟩ := hk g hg
    obtain ⟨h1, h2⟩ := h.paused (hlink hl) g hp
    refine ⟨?_, ?_⟩
    · rw [he]
      exact (hw _).2 h1
    · cases hq : (q.loops g).pc.discovers with
      | false => rfl
      | true =>
        rw [hd' hq] at h2
        cases h2
  · intro hq
    have hn := h.unlinked (hc hq)
    cases hcq : q.session.car with
    | none => rfl
    | some link =>
      have := hcar (by rw [hcq]; rfl)
      rw [hn] at this
      cases this

/-- A section that ends without Device1.Connect. -/
theorem hush (h : p.Muted) (hh : Hush p.session q.session) (hk : ∀ g, Kept (p.loops g) (q.loops g))
    (hc : q.mu.any Locked.connecting = true → p.mu.any Locked.connecting = true)
    (hcalling : q.mu.any Locked.calling = p.mu.any Locked.calling)
    (hwatch : ∀ g, q.mu = some (.watch g) → q.session.car = none) : q.Muted := by
  refine h.calm hk (fun w => ?_) hh.car hc hwatch ?_ (hh.silent h.silent)
  · rw [hh.watchers]
    exact ⟨rfl, id⟩
  · rw [hcalling]
    exact hh.radio _ (fun ht => h.unlinked (connecting_of_calling ht)) h.radio

/-- A change of the session alone. -/
theorem onSession (h : p.Muted) {f : State → State} (hh : Hush p.session (f p.session)) : (p.onSession f).Muted := by
  refine h.hush hh (fun g => .refl _) id rfl fun g hg => ?_
  have hn := h.watch g hg
  cases hq : (f p.session).car with
  | none => exact hq
  | some link =>
    have := hh.car (by rw [hq]; rfl)
    rw [hn] at this
    cases this

/-- A loop moves, but not in Wait. -/
theorem setLoop (h : p.Muted) {g : Nat} {l : Loop} (hl : Kept (p.loops g) l) : (p.setLoop g l).Muted := by
  refine h.hush (.same rfl rfl rfl) (fun i => ?_) id rfl h.watch
  show Kept (p.loops i) (upd p.loops g l i)
  by_cases hi : i = g
  · subst hi
    rw [upd_same]
    exact hl
  · rw [upd_ne _ _ hi]
    exact .refl _

theorem goto (h : p.Muted) (g : Nat) {pc : Pc} (hpc : pc.scans = false) : (p.goto g pc).Muted := h.setLoop (.of_not hpc)

/-- `mu` changes hands outside a connect. -/
theorem hold (h : p.Muted) {m : Option Locked} (hp : p.mu.any Locked.calling = false) (hc : m.any Locked.connecting = false)
    (hw : ∀ g, m = some (.watch g) → p.session.car = none) : ({ p with mu := m } : Proc).Muted := by
  refine h.hush (.same rfl rfl rfl) (fun g => .refl _) (fun hm => ?_) ?_ hw
  · rw [show m.any Locked.connecting = true from hm] at hc
    cases hc
  · show m.any Locked.calling = p.mu.any Locked.calling
    rw [hp]
    cases hm : m.any Locked.calling with
    | false => rfl
    | true =>
      rw [connecting_of_calling hm] at hc
      cases hc

theorem unlock (h : p.Muted) (hp : p.mu.any Locked.calling = false) : p.unlock.Muted := h.hold hp rfl fun _ hg => by cases hg

theorem pause (h : p.Muted) (w : Nat) : (p.onSession (·.pauseWatcher w)).Muted := by
  refine h.calm (fun g => .refl _) (fun i => ?_) id id h.watch h.radio h.silent
  show ((upd p.session.watchers w { p.session.watchers w with paused := true }) i).busy = _ ∧
    (_ → ((upd p.session.watchers w { p.session.watchers w with paused := true }) i).paused = true)
  by_cases hi : i = w
  · subst hi
    rw [upd_same]
    exact ⟨rfl, fun _ => rfl⟩
  · rw [upd_ne _ _ hi]
    exact ⟨rfl, id⟩

/-- StartDiscovery, with the radio free. -/
theorem scan (h : p.Muted) (hl : radioUp p.session.log = false) : (p.onSession (·.note .startDiscovery)).Muted :=
  h.calm (fun _ => .refl _) (fun _ => ⟨rfl, id⟩) id id h.watch h.radio (h.silent.scan hl)

/-- Without a connection, watchers may be resumed and made. -/
theorem resume (h : p.Muted) {f : State → State} (hl : p.linking = false) (hcar : (f p.session).car = p.session.car)
    (hb : ∀ w, ((f p.session).watchers w).busy = (p.session.watchers w).busy) (hr : radioUp (f p.session).log = radioUp p.session.log)
    (hs : Silent (f p.session).log) : (p.onSession f).Muted := by
  have hl' : (p.onSession f).linking = false := by
    rw [linking, onSession_session, onSession_mu, hcar]
    exact hl
  refine ⟨fun g hg => ?_, h.alone, fun hq => ?_, ?_, ?_, ?_, hs⟩
  · exact (hb _).trans (h.busy g hg)
  · rw [hl'] at hq
    cases hq
  · intro hc
    rw [onSession_session, hcar]
    exact h.unlinked hc
  · intro g hg
    rw [onSession_session, hcar]
    exact h.watch g hg
  · rw [onSession_session, hr, hcar]
    exact h.radio

/-- Into Wait. -/
theorem arrive (h : p.Muted) {g : Nat} {l : Loop} (hl : p.linking = false) (hd : l.pc.discovers = false) : (p.setLoop g l).Muted := by
  have hin : ∀ i, (upd p.loops g l i).pc.discovers = true → upd p.loops g l i = p.loops i := by
    intro i hi
    by_cases hig : i = g
    · subst hig
      rw [upd_same, hd] at hi
      cases hi
    · exact upd_ne _ _ hig
  refine ⟨fun i hi => ?_, fun i j hne hi hj => ?_, fun hq => ?_, h.unlinked, h.watch, h.radio, h.silent⟩
  · have hi' : (upd p.loops g l i).pc.discovers = true := hi
    have hei := hin i hi'
    show (p.session.watchers (upd p.loops g l i).watcher).busy = true
    rw [hei] at hi' ⊢
    exact h.busy i hi'
  · have hi' : (upd p.loops g l i).pc.discovers = true := hi
    have hj' : (upd p.loops g l j).pc.discovers = true := hj
    have hei := hin i hi'
    have hej := hin j hj'
    show (upd p.loops g l i).watcher ≠ (upd p.loops g l j).watcher
    rw [hei] at hi' ⊢
    rw [hej] at hj' ⊢
    exact h.alone i j hne hi' hj'
  · rw [show p.linking = true from hq] at hl
    cases hl

theorem onResults (h : p.Muted) (n : Nat) : ({ p with results := n } : Proc).Muted :=
  h.hush (.same rfl rfl rfl) (fun _ => .refl _) id rfl h.watch

theorem newWatcher (h : p.Muted) (hl : p.linking = false) : (p.onSession State.newWatcher).Muted := by
  refine h.resume hl rfl (fun w => ?_) rfl (h.silent.scan (h.down hl))
  show (upd p.session.watchers p.session.made { p.session.watchers p.session.made with paused := p.session.car.isSome } w).busy = _
  by_cases hw : w = p.session.made
  · subst hw
    rw [upd_same]
  · rw [upd_ne _ _ hw]

/-- Into ensureDiscovering: nobody else is in it with this watcher. -/
theorem enter (h : p.Muted) {g : Nat} (hpc : (p.loops g).pc = .wait)
    (hb : (p.session.watchers (p.loops g).watcher).busy = false) (hp : (p.session.watchers (p.loops g).watcher).paused = false) :
    ((p.onSession (·.setBusy (p.loops g).watcher true)).goto g .discovering).Muted := by
  have hscans : (p.loops g).pc.scans = true := by rw [hpc]; rfl
  have hl : p.linking = false := by
    cases hl : p.linking with
    | false => rfl
    | true =>
      rw [(h.paused hl g hscans).1] at hp
      cases hp
  have hother : ∀ i, i ≠ g → (p.loops i).pc.discovers = true → (p.loops i).watcher ≠ (p.loops g).watcher := by
    intro i _ hi he
    have := h.busy i hi
    rw [he, hb] at this
    cases this
  refine ⟨?_, ?_, ?_, h.unlinked, h.watch, h.radio, h.silent⟩
  · intro i hi
    show (upd p.session.watchers (p.loops g).watcher _ ((upd p.loops g _ i).watcher)).busy = true
    by_cases hig : i = g
    · subst hig
      rw [upd_same]
      exact congrArg Scanner.busy (upd_same _ _ _)
    · have hi' : (p.loops i).pc.discovers = true := by
        have hi' : (upd p.loops g { p.loops g with pc := .discovering } i).pc.discovers = true := hi
        rwa [upd_ne _ _ hig] at hi'
      rw [upd_ne _ _ hig, upd_ne _ _ (hother i hig hi')]
      exact h.busy i hi'
  · intro i j hne hi hj
    have hi' : (upd p.loops g { p.loops g with pc := .discovering } i).pc.discovers = true := hi
    have hj' : (upd p.loops g { p.loops g with pc := .discovering } j).pc.discovers = true := hj
    show (upd p.loops g { p.loops g with pc := .discovering } i).watcher ≠ (upd p.loops g { p.loops g with pc := .discovering } j).watcher
    by_cases hig : i = g
    · subst hig
      have hji : j ≠ i := fun he => hne he.symm
      rw [upd_ne _ _ hji] at hj' ⊢
      rw [upd_same]
      exact fun he => hother j hji hj' he.symm
    · rw [upd_ne _ _ hig] at hi' ⊢
      by_cases hjg : j = g
      · subst hjg
        rw [upd_same]
        exact hother i hig hi'
      · rw [upd_ne _ _ hjg] at hj' ⊢
        exact h.alone i j hne hi' hj'
  · intro hq
    have hq' : p.linking = true := hq
    rw [hl] at hq'
    cases hq'

/-- In ensureDiscovering there is no connection. -/
theorem unlinked_of (h : p.Muted) {g : Nat} (hpc : (p.loops g).pc = .discovering) : p.linking = false := by
  have hd : (p.loops g).pc.discovers = true := by rw [hpc]; rfl
  cases hl : p.linking with
  | false => rfl
  | true =>
    rw [(h.paused hl g (Pc.scans_of_discovers hd)).2] at hd
    cases hd

/-- Out of it: the watcher's `discoveryMu` is given up. -/
theorem exit (h : p.Muted) {g : Nat} (hpc : (p.loops g).pc = .discovering) {pc : Pc} (hn : pc.discovers = false) :
    ((p.onSession (·.setBusy (p.loops g).watcher false)).goto g pc).Muted := by
  have hd : (p.loops g).pc.discovers = true := by rw [hpc]; rfl
  have hl := h.unlinked_of hpc
  have hin : ∀ i, (upd p.loops g { p.loops g with pc } i).pc.discovers = true →
      i ≠ g ∧ upd p.loops g { p.loops g with pc } i = p.loops i := by
    intro i hi
    by_cases hig : i = g
    · subst hig
      rw [upd_same] at hi
      rw [show pc.discovers = true from hi] at hn
      cases hn
    · exact ⟨hig, upd_ne _ _ hig⟩
  refine ⟨?_, ?_, ?_, h.unlinked, h.watch, h.radio, h.silent⟩
  · intro i hi
    obtain ⟨hig, he⟩ := hin i hi
    have hi' : (upd p.loops g { p.loops g with pc } i).pc.discovers = true := hi
    show (upd p.session.watchers (p.loops g).watcher _ ((upd p.loops g { p.loops g with pc } i).watcher)).busy = true
    rw [he] at hi' ⊢
    rw [upd_ne _ _ (h.alone i g hig hi' hd)]
    exact h.busy i hi'
  · intro i j hne hi hj
    have hi' : (upd p.loops g { p.loops g with pc } i).pc.discovers = true := hi
    have hj' : (upd p.loops g { p.loops g with pc } j).pc.discovers = true := hj
    show (upd p.loops g { p.loops g with pc } i).watcher ≠ (upd p.loops g { p.loops g with pc } j).watcher
    have hei := (hin i hi').2
    have hej := (hin j hj').2
    rw [hei] at hi' ⊢
    rw [hej] at hj' ⊢
    exact h.alone i j hne hi' hj'
  · intro hq
    have hq' : p.linking = true := hq
    rw [hl] at hq'
    cases hq'

/-- On to the transport: every loop in Wait is paused. -/
theorem dial (h : p.Muted) (hcar : p.session.car = none) (hm : p.mu = none)
    (hall : ∀ g, (p.loops g).pc.scans = true → (p.session.watchers (p.loops g).watcher).paused = true ∧ (p.loops g).pc.discovers = false)
    (c : Caller) (target : Option Result) : ({ p with mu := some (.dial c target) } : Proc).Muted := by
  refine ⟨h.busy, h.alone, fun _ => hall, fun _ => hcar, fun _ _ => hcar, ?_, h.silent⟩
  rw [h.radio, hm]
  rfl

theorem connected (h : p.Muted) (hp : p.mu.any Locked.calling = false) (c : Caller) (ok : Bool) : (p.connected c ok).Muted := by
  have hmu := connected_mu p c ok
  have hnone : (p.connected c ok).mu.any Locked.connecting = false := by
    cases hm : (p.connected c ok).mu with
    | none => rfl
    | some k => exact (hmu k hm).1
  refine h.hush (connected_hush p c ok) (kept_of_stays (connected_stays p c ok)) (fun hc => ?_) ?_ fun g hg => ((hmu _ hg).2 g rfl).elim
  · rw [hnone] at hc
    cases hc
  · rw [hp]
    cases hm : (p.connected c ok).mu.any Locked.calling with
    | false => rfl
    | true =>
      rw [connecting_of_calling hm] at hnone
      cases hnone

theorem primed (h : p.Muted) (hp : p.mu.any Locked.calling = false) (g : Nat) (connecting : Bool) : (p.primed g connecting).Muted := by
  have hmu := primed_mu p g connecting
  refine h.hush (primed_hush p g connecting) (kept_of_stays (primed_stays p g connecting)) (fun hc => ?_) ?_ fun i hi => ?_
  · rw [hmu] at hc
    cases hc
  · rw [hp, hmu]
    rfl
  · rw [hmu] at hi
    cases hi

theorem watched (h : p.Muted) {g : Nat} (hm : p.mu = some (.watch g)) (ok : Bool) : (p.watched g ok).Muted := by
  have hn := h.watch g hm
  have hu : p.unlock.Muted := h.unlock (by rw [hm]; rfl)
  have hl : p.unlock.linking = false := by
    rw [linking, unlock_session, hn]
    rfl
  unfold Proc.watched
  dsimp only
  split
  · exact (hu.newWatcher hl).setLoop (.of_not rfl)
  · exact hu.goto g rfl
  · exact (hu.newWatcher hl).setLoop (.of_not rfl)
  · exact hu.goto g rfl
  · exact hu

theorem ensureConnected (h : p.Muted) (hm : p.mu = none) (hg : ∀ g, (p.loops g).pc.scans = true → g ≤ p.session.presenceGeneration)
    {c : Caller} {target : Option Result} {key : Bool} (hclear : (p.session.enterConnect c.cmd target key).2 = .dial → p.Clear) :
    (p.ensureConnected c target key).Muted := by
  have hh := enterConnect_hush p.session c.cmd target key
  have hcalling : p.mu.any Locked.calling = false := by rw [hm]; rfl
  unfold Proc.ensureConnected
  split
  · next s ok he =>
    rw [he] at hh
    have hs : ({ p with session := s } : Proc).Muted := h.onSession (f := fun _ => s) hh
    exact hs.connected hcalling c ok
  · next s he =>
    rw [he] at hh
    have hs : ({ p with session := s } : Proc).Muted := h.onSession (f := fun _ => s) hh
    exact hs.hold hcalling rfl fun g hg => by cases hg
  · next s he =>
    have hdial : (p.session.enterConnect c.cmd target key).2 = .dial := by rw [he]
    obtain ⟨hs, hcar⟩ := enterConnect_dial hdial
    rw [he] at hs
    have hs' : s = p.session := hs
    subst hs'
    have hall := hclear hdial
    split
    · next w hw =>
      by_cases hb : (p.session.watchers w).busy = true
      · rw [if_pos hb]
        exact h
      · rw [if_neg hb]
        refine (h.pause w).dial hcar hm (fun g hs => ?_) c target
        show (upd p.session.watchers w { p.session.watchers w with paused := true } (p.loops g).watcher).paused = true ∧ _
        rcases hall g (hg g hs) hs with he | ⟨hp, hd⟩
        · -- the session's own watcher: paused now, and nobody is past the check
          have hgw : (p.loops g).watcher = w := Option.some.inj (he.symm.trans hw)
          refine ⟨by rw [hgw, upd_same], ?_⟩
          cases hd : (p.loops g).pc.discovers with
          | false => exact hd
          | true =>
            have := h.busy g hd
            rw [hgw] at this
            exact (hb this).elim
        · refine ⟨?_, hd⟩
          by_cases hgw : (p.loops g).watcher = w
          · rw [hgw, upd_same]
          · rw [upd_ne _ _ hgw]
            exact hp
    · next hw =>
      refine h.dial hcar hm (fun g hs => ?_) c target
      rcases hall g (hg g hs) hs with he | hp
      · rw [hw] at he
        cases he
      · exact hp

/-- The link is up. -/
theorem linkUp (h : p.Muted) {c : Caller} {target : Option Result} (hm : p.mu = some (.dialling c target)) {m : Option Locked}
    (hc : m.any Locked.connecting = false) (hw : ∀ g, m ≠ some (.watch g)) (cmd : Option Cmd) :
    ({ p with session := (p.session.linkUp cmd).1, mu := m } : Proc).Muted := by
  have hup : radioUp p.session.log = true := by
    rw [h.radio, hm]
    exact Bool.or_true _
  have hcon : Hush ({ p.session with car := some p.session.links, links := p.session.links + 1 }.note (.connected p.session.links))
      (p.session.linkUp cmd).1 := by
    unfold State.linkUp
    dsimp only
    split
    · exact .cons (e := .ready _ _) rfl rfl (by simp) rfl rfl
    · exact (ensureAuthTap_hush _ _).trans (.note rfl (by simp))
  have hcar : (p.session.linkUp cmd).1.car.isSome = true := by
    unfold State.linkUp
    dsimp only
    split
    · rfl
    · simp
  have hradio : radioUp (p.session.linkUp cmd).1.log = true := by
    rw [hcon.radio false (fun hf => by cases hf) hup, hcar]
    rfl
  have hconn : p.linking = true := by
    rw [linking, hm]
    exact Bool.or_true _
  refine ⟨fun g hg => ?_, h.alone, fun _ g hg => ?_, fun hq => ?_, fun g hg => (hw g hg).elim, ?_, ?_⟩
  · rw [hcon.watchers]
    exact h.busy g hg
  · rw [hcon.watchers]
    exact h.paused hconn g hg
  · rw [show m.any Locked.connecting = true from hq] at hc
    cases hc
  · rw [hradio, hcar]
    rfl
  · exact hcon.silent (h.silent.cons (by simp))

/-- Device1.Connect is called, or given up. -/
theorem air (h : p.Muted) {k : Locked} (hm : p.mu = some k) (hk : k.connecting = true) {m : Option Locked} {e : Happened}
    (hw : ∀ g, m ≠ some (.watch g)) (hr : radioUp (e :: p.session.log) = m.any Locked.calling) (he : e ≠ .startDiscovery) :
    (({ p with mu := m } : Proc).onSession (·.note e)).Muted := by
  have hany : p.mu.any Locked.connecting = true := by
    rw [hm]
    exact hk
  have hn := h.unlinked hany
  have hl : p.linking = true := by
    rw [linking, hany]
    exact Bool.or_true _
  refine ⟨h.busy, h.alone, fun _ => h.paused hl, fun _ => hn, fun g hg => (hw g hg).elim, ?_, h.silent.cons he⟩
  rw [onSession_session, note_car, hn]
  exact hr

theorem stepLocked (h : p.Muted) (r : Reply) : (p.stepLocked r).Muted := by
  have hcall : ∀ {k : Locked}, p.mu = some k → k.calling = false → p.mu.any Locked.calling = false := by
    intro k hk hc
    rw [hk]
    exact hc
  have hfree : ∀ {k : Locked}, p.mu = some k → k.connecting = true → p.session.car = none := by
    intro k hk hc
    exact h.unlinked (by rw [hk]; exact hc)
  unfold Proc.stepLocked
  split <;> rename_i hm
  · -- the scan of a connect
    refine h.scan ?_
    rw [h.radio, hfree hm rfl, hm]
    rfl
  · exact h.air hm rfl (by simp) rfl (by simp)
  · exact h.connected (hcall hm rfl) _ _
  · exact h.air hm rfl (by simp) rfl (by simp)
  · next c _ _ =>
    -- the attempt is over
    have hover : (({ p with mu := none } : Proc).onSession (·.note .hangUp)).Muted := h.air hm rfl (by simp) rfl (by simp)
    have := hover.connected rfl c false
    rwa [show ({ p with mu := none } : Proc).onSession (·.note .hangUp) = { p.onSession (·.note .hangUp) with mu := none } from rfl,
      connected_any_mu] at this
  · next c target =>
    dsimp only
    split
    · next s he =>
      have := h.linkUp hm (m := some (.handshake c p.session.links true)) rfl (by simp) c.cmd
      rwa [he] at this
    · next s he =>
      have hup := h.linkUp hm (m := none) rfl (by simp) c.cmd
      rw [he] at hup
      have := hup.connected rfl c true
      rwa [show ({ p with session := s, mu := none } : Proc) = { ({ p with session := s } : Proc) with mu := none } from rfl,
        connected_any_mu] at this
  · refine (h.onSession ?_).connected (hcall hm rfl) _ _
    exact .cons (e := .ready _ _) rfl rfl (by simp) rfl rfl
  · exact (h.onSession (teardown_hush _)).connected (hcall hm rfl) _ _
  · exact h.connected (hcall hm rfl) _ _
  · exact h.connected (hcall hm rfl) _ _
  · split
    · exact (h.onSession (teardown_hush _)).unlock (hcall hm rfl)
    · exact h.unlock (hcall hm rfl)
  · split
    · exact (h.onSession (teardown_hush _)).unlock (hcall hm rfl)
    · exact h.unlock (hcall hm rfl)
  · exact (h.onSession (primeEnd_hush _ _ _)).primed (hcall hm rfl) _ _
  · exact (h.onSession (primeEnd_hush _ _ _)).primed (hcall hm rfl) _ _
  · exact (h.unlock (hcall hm rfl)).hush (.same rfl rfl rfl) (fun _ => .refl _) id rfl fun _ hg => by cases hg
  · next dropped =>
    cases dropped with
    | true =>
      exact ((h.onSession (dropLink_hush _)).unlock (hcall hm rfl)).hush (.same rfl rfl rfl) (fun _ => .refl _) id rfl
        fun _ hg => by cases hg
    | false => exact (h.unlock (hcall hm rfl)).hush (.same rfl rfl rfl) (fun _ => .refl _) id rfl fun _ hg => by cases hg
  · refine h.scan ?_
    rw [h.radio, h.watch _ hm, hm]
    rfl
  · exact h.watched hm true
  · exact h.watched hm false
  · exact h

theorem snapshot (h : p.Muted) (g : Nat) (c : Choice) : (p.snapshot g c).Muted := by
  unfold Proc.snapshot
  dsimp only
  split
  · exact (h.onSession (dropLink_hush _)).setLoop (.of_not rfl)
  · exact h.setLoop (.of_not rfl)
  · exact h.setLoop (.of_not rfl)

theorem dropSeen (h : p.Muted) (g : Nat) : (p.dropSeen g).Muted := by
  unfold Proc.dropSeen
  dsimp only
  split
  · exact (h.onSession (dropLink_hush _)).setLoop (.of_not rfl)
  · exact h.setLoop (.of_not rfl)

theorem refresh (h : p.Muted) (hm : p.mu = none) (g : Nat) : (p.refresh g).Muted := by
  have hgo : ((p.onSession State.emitInside).goto g .check).Muted := (h.onSession (emitInside_hush _)).goto g rfl
  unfold Proc.refresh
  split
  · next link _ =>
    split
    · have hs : (p.onSession (·.primeBegin link)).Muted := h.onSession (primeBegin_hush _ link)
      refine hs.hold (m := some (.prime g link false)) ?_ rfl fun _ hg => by cases hg
      rw [onSession_mu, hm]
      rfl
    · exact hgo
  · exact hgo

theorem hear (h : p.Muted) (g : Nat) : (p.hear g).Muted := by
  have hb : (p.onSession (·.setLastBeacon (p.loops g).result)).Muted := h.onSession (.same rfl rfl rfl)
  refine hb.setLoop (.of_not ?_)
  dsimp only
  split
  · split <;> rfl
  · split <;> rfl
  · rfl
  · rfl

theorem stepLoop (h : p.Muted) (hg : ∀ g, (p.loops g).pc.scans = true → g ≤ p.session.presenceGeneration) {g : Nat} {c : Choice}
    (ha : p.Apart (.loop g c)) : (p.stepLoop g c).Muted := by
  have hstep := stepLoop_cases p g c
  generalize p.stepLoop g c = q at hstep ⊢
  cases hstep with
  | stay => exact h
  | on hl => exact (h.onResults _).setLoop hl.kept
  | @tell _ kind hl =>
    have hs : (p.onSession (·.emit kind)).Muted := h.onSession (.note rfl (by simp))
    exact hs.setLoop hl.kept
  | pause hl => exact (h.pause _).setLoop hl.kept
  | enter hpc hb hp => exact h.enter hpc hb hp
  | exit hpc hto =>
    obtain rfl | rfl := hto
    · exact h.exit hpc rfl
    · exact h.exit hpc rfl
  | discover hpc hto =>
    obtain rfl | rfl := hto
    · have hx : ((p.onSession (·.setBusy (p.loops g).watcher false)).goto g .listening).Muted := h.exit hpc rfl
      exact hx.scan (h.down (h.unlinked_of hpc))
    · have hx : ((p.onSession (·.setBusy (p.loops g).watcher false)).goto g .waitFailed).Muted := h.exit hpc rfl
      exact hx.scan (h.down (h.unlinked_of hpc))
  | locked _ hm hs =>
    cases hs with
    | watch hpc =>
      have hn := (ha hm).1 (by simpa [watches] using hpc)
      exact h.hold (by rw [hm]; rfl) rfl fun _ _ => hn
    | entered _ =>
      have hs : (p.onSession ({ · with watcher := some (p.loops g).watcher })).Muted := h.onSession (.same rfl rfl rfl)
      exact hs.setLoop (.of_not rfl)
    | snapshot _ => exact h.snapshot g c
    | dropSeen _ => exact h.dropSeen g
    | refresh _ => exact h.refresh hm g
    | resume _ hcar _ _ hpc =>
      have hl : p.linking = false := by
        rw [linking, hm, hcar]
        rfl
      have hr : (p.onSession (·.resumeWatcher (p.loops g).watcher)).Muted := by
        refine h.resume hl rfl (fun w => ?_) rfl h.silent
        show (upd p.session.watchers (p.loops g).watcher { p.session.watchers (p.loops g).watcher with paused := false } w).busy = _
        by_cases hw : w = (p.loops g).watcher
        · subst hw
          rw [upd_same]
        · rw [upd_ne _ _ hw]
      -- into Wait, with nobody to disturb
      refine hr.arrive hl ?_
      rw [hpc]
      rfl
    | hear _ => exact h.hear g
    | aim _ _ => exact h.goto g rfl
    | connect hpc =>
      refine h.ensureConnected hm hg fun hd => (ha hm).2 ?_
      rw [dials, hpc]
      exact beq_iff_eq.2 hd
    | depart _ =>
      have hs : Hush p.session p.session.clearConnectBackoff.teardown := by
        refine Hush.trans ?_ (teardown_hush _)
        exact .same rfl rfl rfl
      exact (h.onSession (f := fun s => s.clearConnectBackoff.teardown) hs).goto g rfl
    | leave _ =>
      refine Muted.goto (h.onSession ?_) g rfl
      unfold State.forgetWatcher
      split <;> exact .same rfl rfl rfl
    | cleanup _ _ =>
      refine Muted.goto (h.onSession ?_) g rfl
      exact .cons (e := .presenceOff) rfl rfl (by simp) rfl rfl

/-- Neither loops nor `mu`. -/
theorem passive (h : p.Muted) (hl : q.loops = p.loops) (hm : q.mu = p.mu) (hh : Hush p.session q.session) : q.Muted := by
  refine h.hush hh (fun g => by rw [hl]; exact .refl _) (fun hc => hm ▸ hc) (by rw [hm]) fun g hg => ?_
  have hn := h.watch g (hm ▸ hg)
  cases hc : q.session.car with
  | none => rfl
  | some link =>
    have := hh.car (by rw [hc]; rfl)
    rw [hn] at this
    cases this

theorem under_mu (h : p.Muted) {f : Proc → Proc} (hf : p.mu = none → (f p).Muted) : (p.sectionNow f).Muted := by
  unfold sectionNow
  by_cases hm : p.mu.isSome = true
  · rw [if_pos hm]
    exact h
  · rw [if_neg hm]
    exact hf (by simpa using hm)

variable {decoders : Decoders}

theorem step (h : p.Muted) (hg : ∀ g, (p.loops g).pc.scans = true → g ≤ p.session.presenceGeneration) {e : Event} (ha : p.Apart e) :
    (p.step decoders e).Muted := by
  have hsame : Hush p.session p.session := .same rfl rfl rfl
  unfold Proc.step
  cases e with
  | tick ms => exact h.onSession (.same rfl rfl rfl)
  | loop g c => exact h.stepLoop hg ha
  | locked r => exact h.stepLocked r
  | command cmd key =>
    refine h.under_mu fun hm => ?_
    exact h.ensureConnected (c := .command cmd) hm hg fun hd => (ha hm).2 (beq_iff_eq.2 hd)
  | navigate key =>
    refine h.under_mu fun hm => ?_
    exact h.ensureConnected (c := .navigate) hm hg fun hd => (ha hm).2 (beq_iff_eq.2 hd)
  | navigateSend =>
    refine h.under_mu fun hm => ?_
    unfold navigateSend
    split
    · next link _ =>
      have hs : (p.onSession (·.note (.used link))).Muted := h.onSession (.note rfl (by simp))
      refine hs.hold (m := some (.execute .navigate)) ?_ rfl fun _ hg => by cases hg
      rw [onSession_mu, hm]
      rfl
    · exact h
  | presenceStart cfg =>
    refine h.under_mu fun hm => ?_
    unfold startPresence
    split
    · have hs : (p.onSession (·.startPresence cfg)).Muted :=
        h.onSession (.cons (e := .presenceOn (p.session.presenceGeneration + 1)) rfl rfl (by simp) rfl rfl)
      exact hs.setLoop (.of_not rfl)
    · exact h
  | stop =>
    refine h.under_mu fun _ => ?_
    exact h.onSession ((stopPresence_hush _).trans (teardown_hush _))
  | idle =>
    refine h.under_mu fun _ => ?_
    exact h.onSession (teardown_hush _)
  | receive bytes =>
    unfold receive
    dsimp only
    split
    · split
      · exact h.passive rfl rfl (.cons (e := .received _) rfl rfl (by simp) rfl rfl)
      · exact h
    · exact h
  | offer link =>
    unfold offer
    dsimp only
    split
    · split <;> exact h.passive rfl rfl hsame
    · exact h
  | evict link =>
    unfold evict
    dsimp only
    split
    · exact h.passive rfl rfl hsame
    · exact h
  | take inbox =>
    unfold take
    dsimp only
    split
    · split
      · split <;> exact h.passive rfl rfl hsame
      · exact h.passive rfl rfl hsame
    · exact h
  | quit inbox =>
    unfold quit
    dsimp only
    split
    · exact h.passive rfl rfl hsame
    · exact h
  | grab inbox =>
    unfold grab
    dsimp only
    split
    · next d level _ hm =>
      split
      · exact h.passive rfl rfl hsame
      · split
        · next link payload _ _ =>
          have hs : (p.onSession (·.note (.answered link d payload))).Muted := h.onSession (.note rfl (by simp))
          have hm' : (p.onSession (·.note (.answered link d payload))).mu.any Locked.calling = false := by
            rw [onSession_mu, hm]
            rfl
          have hh := hs.hold (m := some (.send inbox)) hm' rfl fun _ hg => by cases hg
          exact hh.passive rfl rfl (.same rfl rfl rfl)
        · exact h.passive rfl rfl hsame
    · exact h
  | tell inbox =>
    unfold tell
    dsimp only
    split
    · exact h.passive rfl rfl (.cons (e := .event _) rfl rfl (by simp) rfl rfl)
    · exact h

theorem start (b : Backend) : (Proc.start b).Muted := by
  have habsent : ∀ g, ((Proc.start b).loops g).pc = .absent := fun _ => rfl
  refine ⟨fun g hg => ?_, fun g i _ hg => ?_, fun hl => ?_, fun hc => ?_, fun g hg => ?_, rfl, ?_⟩
  · rw [habsent] at hg
    cases hg
  · rw [habsent] at hg
    cases hg
  · cases hl
  · cases hc
  · cases hg
  · intro after before hl
    cases after <;> cases hl

end Muted

/-! ## Loops are started -/

/-- Every loop there is has been started. -/
structure Started (p : Proc) : Prop where
  loop : ∀ g, (p.loops g).pc ≠ .absent → g ≤ p.session.presenceGeneration
  holder : ∀ k g, p.mu = some k → k.presence = some g → g ≤ p.session.presenceGeneration

namespace Started

variable {p q : Proc} {a : Option Nat}

theorem frame (h : p.Started) (hgen : p.session.presenceGeneration ≤ q.session.presenceGeneration)
    (hl : ∀ g, a ≠ some g → q.loops g = p.loops g) (hm : q.mu = p.mu ∨ ∀ k, q.mu = some k → k.presence = a ∨ k.presence = none)
    (ha : ∀ g, a = some g → g ≤ q.session.presenceGeneration) : q.Started := by
  refine ⟨fun g hg => ?_, fun k g hk hkg => ?_⟩
  · by_cases hag : a = some g
    · exact ha g hag
    · rw [hl g hag] at hg
      exact Nat.le_trans (h.loop g hg) hgen
  · rcases hm with he | hn
    · exact Nat.le_trans (h.holder k g (he ▸ hk) hkg) hgen
    · rcases hn k hk with he | hn
      · exact ha g (he.symm.trans hkg)
      · rw [hn] at hkg
        cases hkg

theorem walks (h : p.Started) {g : Nat} (hgen : p.session.presenceGeneration ≤ q.session.presenceGeneration) (hw : Walks g p q)
    (hg : g ≤ q.session.presenceGeneration) : q.Started := by
  refine h.frame (a := some g) hgen (fun i hi => hw.loops i fun he => hi (by rw [he])) hw.mu ?_
  rintro i hi
  cases hi
  exact hg

variable {decoders : Decoders}

theorem other (h : p.Started) {e : Event} (hgen : p.session.presenceGeneration ≤ (p.step decoders e).session.presenceGeneration)
    (hl : ∀ g c, e ≠ .loop g c) (hp : ∀ cfg, e ≠ .presenceStart cfg) : (p.step decoders e).Started := by
  have hst : Stays (e.actor p) p (p.step decoders e) := step_stays p hl hp
  refine h.frame hgen hst.loops hst.mu fun g hg => ?_
  cases e with
  | loop i c => exact (hl i c rfl).elim
  | locked r =>
    obtain ⟨k, hk, hkg⟩ := Option.bind_eq_some_iff.1 hg
    exact Nat.le_trans (h.holder k g hk hkg) hgen
  | _ => cases hg

theorem step (h : p.Started) (hh : p.Held) (e : Event) : (p.step decoders e).Started := by
  have hgen : p.session.presenceGeneration ≤ (p.step decoders e).session.presenceGeneration := step_generation hh e
  cases e with
  | loop g c =>
    by_cases hpc : (p.loops g).pc = .absent
    · have hs : p.step decoders (.loop g c) = p := by
        show p.stepLoop g c = p
        unfold Proc.stepLoop
        simp [hpc, Pc.locks]
      rw [hs]
      exact h
    · exact h.walks hgen (stepLoop_walks p g c) (Nat.le_trans (h.loop g hpc) hgen)
  | presenceStart cfg =>
    by_cases hs : p.step decoders (.presenceStart cfg) = p
    · rw [hs]
      exact h
    · refine h.walks hgen (presenceStart_walks p cfg) ?_
      unfold Proc.step sectionNow at hs ⊢
      dsimp only at hs ⊢
      split at hs <;> rename_i hm
      · exact (hs rfl).elim
      · rw [if_neg hm]
        unfold startPresence at hs ⊢
        split at hs <;> rename_i hp
        · rw [if_pos hp]
          exact Nat.le_refl _
        · exact (hs rfl).elim
  | _ => exact h.other hgen (by simp) (by simp)

end Started

variable {decoders : Decoders}

theorem started {ok : Proc → Event → Prop} {p : Proc} (h : (machine decoders).Reach ok p) : p.Started := by
  refine Machine.Reach.inv_of (J := Held) (I := Started) (fun p hp => held hp) ?_ (fun p e hh hp _ => hp.step hh e) h
  rintro p ⟨b, rfl⟩
  refine ⟨fun g hg => (hg rfl).elim, fun k g hk => ?_⟩
  cases hk

theorem muted {p : Proc} (h : (machine decoders).Reach Apart p) : p.Muted := by
  refine Machine.Reach.inv_of (J := Started) (I := Muted) (fun p hp => started hp) ?_ ?_ h
  · rintro p ⟨b, rfl⟩
    exact .start b
  · intro p e hs hp ha
    refine hp.step (fun g hg => hs.loop g fun hn => ?_) ha
    rw [hn] at hg
    cases hg

end Proc

/-! ## All runs -/

theorem no_discovery_over_link {decoders : Decoders} {p : Proc} (h : (Proc.machine decoders).Reach Proc.Apart p)
    {after before : List Happened} (hl : p.session.log = after ++ .startDiscovery :: before) : radioUp before = false :=
  (Proc.muted h).silent after before hl

set_option maxRecDepth 8192 in
/-- The watcher's StartDiscovery, and none of a connect with a target. -/
theorem no_discovery_over_link_arrival :
    let p := (Proc.machine plainDecoders).run (Proc.start .bluez) (arrival 1)
    ∃ after before, p.session.log = after ++ .startDiscovery :: before ∧ radioUp p.session.log = true ∧ radioUp before = false := by
  intro p
  have h0 : (Proc.machine plainDecoders).Reach Proc.Apart (Proc.start .bluez) := .init ⟨.bluez, rfl⟩
  have hr := h0.run (arrival 1) (by decide +kernel)
  have hl : p.session.log = p.session.log.takeWhile (· ≠ .startDiscovery) ++
      .startDiscovery :: (p.session.log.dropWhile (· ≠ .startDiscovery)).tail := by decide +kernel
  exact ⟨_, _, hl, by decide +kernel, no_discovery_over_link hr hl⟩

end ElectricEel.Session
