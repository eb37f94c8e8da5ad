/-
  ElectricEel.Session.LoopExit — how presence mode ends by itself (main.go `presenceLoop`'s
  deferred cleanup).

  A loop that returns clears presenceCancel where it is still the current one, and leaves
  the connection up. A loop returns when its context is cancelled, and then it is not the
  current one, or when ensureBluezLocked fails.

  Proved: the bus stays open once it is, so the loop that fails to open it has never had
  a beacon or a connection to see, and until its cleanup no request gets one: in presence
  mode they need a beacon (`Looped.ends`).
-/
import ElectricEel.Session.Reuse

namespace ElectricEel.Guarded

open Lib Commands Child
open Session (upd)

namespace State

/-! ## Presence mode -/

/-- A section that is not about presence mode; it opens a bluez connection only with the bus,
    and in presence mode only with a beacon. -/
structure Steady (s t : State) : Prop where
  bleBackend : t.bleBackend = s.bleBackend
  presenceCancel : t.presenceCancel = s.presenceCancel
  presenceGeneration : t.presenceGeneration = s.presenceGeneration
  cancelled : t.cancelled = s.cancelled
  lastBeacon : t.lastBeacon = s.lastBeacon
  bus : s.bluez = true → t.bluez = true
  line : t.bluez = false → t.bleBackend = .bluez → s.car = none → t.car = none
  shut : s.presenceCancel.isSome = true → s.bleBackend = .bluez → s.lastBeacon = none → s.car = none → t.car = none

namespace Steady

theorem of (s : State) {t : State} (hb : t.bleBackend = s.bleBackend) (hp : t.presenceCancel = s.presenceCancel)
    (hg : t.presenceGeneration = s.presenceGeneration) (hk : t.cancelled = s.cancelled) (hl : t.lastBeacon = s.lastBeacon)
    (hz : s.bluez = true → t.bluez = true) (hc : t.car = s.car ∨ t.car = none) : Steady s t := by
  have hcar : s.car = none → t.car = none := by
    intro hn
    rcases hc with hc | hc
    · exact hc.trans hn
    · exact hc
  exact ⟨hb, hp, hg, hk, hl, hz, fun _ _ => hcar, fun _ _ _ => hcar⟩

theorem refl (s : State) : Steady s s := .of s rfl rfl rfl rfl rfl id (.inl rfl)

theorem busless {s t : State} (h : Steady s t) (hz : t.bluez = false) : s.bluez = false := by
  rw [Bool.eq_false_iff]
  intro ht
  rw [h.bus ht] at hz
  cases hz

theorem trans {r s t : State} (h : Steady r s) (h' : Steady s t) : Steady r t := by
  refine ⟨h'.bleBackend.trans h.bleBackend, h'.presenceCancel.trans h.presenceCancel, h'.presenceGeneration.trans h.presenceGeneration,
    h'.cancelled.trans h.cancelled, h'.lastBeacon.trans h.lastBeacon, fun hz => h'.bus (h.bus hz), ?_, ?_⟩
  · intro hz hb hc
    exact h'.line hz hb (h.line (h'.busless hz) (h'.bleBackend ▸ hb) hc)
  · intro hp hb hl hc
    exact h'.shut (h.presenceCancel ▸ hp) (h.bleBackend ▸ hb) (h.lastBeacon.trans hl) (h.shut hp hb hl hc)

end Steady

theorem stopIdleTimer_steady (s : State) : Steady s s.stopIdleTimer := by
  unfold stopIdleTimer
  split <;> exact .of s rfl rfl rfl rfl rfl id (.inl rfl)

theorem stopAuthTap_steady (s : State) : Steady s s.stopAuthTap := by
  unfold stopAuthTap
  dsimp only
  split
  · split <;> exact .of s rfl rfl rfl rfl rfl id (.inl rfl)
  · exact .of s rfl rfl rfl rfl rfl id (.inl rfl)

theorem teardown_steady (s : State) : Steady s s.teardown := by
  refine ((stopIdleTimer_steady s).trans (stopAuthTap_steady _)).trans ?_
  exact .of _ rfl rfl rfl rfl rfl id (.inr rfl)

theorem resetIdleTimer_steady (s : State) : Steady s s.resetIdleTimer := by
  have h := stopIdleTimer_steady s
  unfold resetIdleTimer
  split
  · exact h
  · exact h.trans (.of _ rfl rfl rfl rfl rfl id (.inl rfl))

theorem complete_steady (s : State) : Steady s s.complete := .of s rfl rfl rfl rfl rfl id (.inl rfl)

theorem ensureAuthTap_steady (s : State) : Steady s s.ensureAuthTap := by
  unfold ensureAuthTap
  split
  · split
    · split <;> exact .of s rfl rfl rfl rfl rfl id (.inl rfl)
    · exact .refl s
  · exact .refl s

theorem startSession_steady (s : State) : Steady s s.startSession := .of s rfl rfl rfl rfl rfl id (.inl rfl)

theorem ensureBluez_steady (s : State) (r : Reply) : Steady s (s.ensureBluez r) := by
  unfold ensureBluez
  split
  · exact .refl s
  · next hz => exact .of s rfl rfl rfl rfl rfl (fun h => (hz h).elim) (.inl rfl)

theorem openTransport_steady (s : State) (r : Reply) : Steady s (s.openTransport r).1 ∧
    ((s.openTransport r).2.isSome = true → s.bleBackend = .bluez → (s.openTransport r).1.bluez = true) := by
  have hz := ensureBluez_steady s r
  unfold openTransport
  dsimp only
  split
  · split
    · next hb =>
      refine ⟨hz.trans (.of _ rfl rfl rfl rfl rfl id (.inl rfl)), fun _ _ => ?_⟩
      simp only [Bool.and_eq_true] at hb
      exact hb.1
    · exact ⟨hz, fun h => by cases h⟩
  · next hb =>
    split
    · exact ⟨.of s rfl rfl rfl rfl rfl id (.inl rfl), fun _ h => (hb h).elim⟩
    · exact ⟨.refl s, fun h => by cases h⟩

/-- All but the connection. -/
theorem openSession_kept (s : State) (cmd : Option Cmd) (conn : Connector) (r : Reply) :
    ∀ t, t = (s.openSession cmd conn r).1 → t.bleBackend = s.bleBackend ∧ t.presenceCancel = s.presenceCancel ∧
      t.presenceGeneration = s.presenceGeneration ∧ t.cancelled = s.cancelled ∧ t.lastBeacon = s.lastBeacon ∧ (s.bluez = true → t.bluez = true) := by
  rintro t rfl
  have hk : ∀ {t : State}, Steady { s with car := some ⟨conn⟩, conn := some conn } t → t.bleBackend = s.bleBackend ∧
      t.presenceCancel = s.presenceCancel ∧ t.presenceGeneration = s.presenceGeneration ∧ t.cancelled = s.cancelled ∧
      t.lastBeacon = s.lastBeacon ∧ (s.bluez = true → t.bluez = true) :=
    fun h => ⟨h.bleBackend, h.presenceCancel, h.presenceGeneration, h.cancelled, h.lastBeacon, h.bus⟩
  have hready : ∀ t : State, Steady t t.ready := fun t => .of t rfl rfl rfl rfl rfl id (.inl rfl)
  have ht := ensureAuthTap_steady { s with car := some ⟨conn⟩, conn := some conn }
  unfold openSession
  dsimp only
  split
  · exact hk (hready _)
  · split
    · exact hk ((ht.trans (startSession_steady _)).trans (hready _))
    · exact hk (ht.trans (teardown_steady _))

theorem ensureConnected_steady (s : State) (cmd : Option Cmd) (target : Option Session.Result) (since : Int) (r : Reply) :
    Steady s (s.ensureConnected cmd target since r).1 := by
  unfold ensureConnected
  split
  · have ht := ensureAuthTap_steady s
    split
    · exact .refl s
    · split
      · exact ht
      · split
        · exact ht.trans (startSession_steady _)
        · exact ht
  · split
    · exact .refl s
    · next hnear =>
      split
      · exact .refl s
      · obtain ⟨ht, hbus⟩ := openTransport_steady s r
        split
        · next t he =>
          rw [he] at ht
          exact ht
        · next t conn he =>
          rw [he] at ht hbus
          split
          · obtain ⟨hb, hp, hg, hk, hl, hz⟩ := openSession_kept t cmd conn r _ rfl
            refine ⟨hb.trans ht.bleBackend, hp.trans ht.presenceCancel, hg.trans ht.presenceGeneration, hk.trans ht.cancelled,
              hl.trans ht.lastBeacon, fun h => hz (ht.bus h), ?_, ?_⟩
            · intro hno hblu
              rw [hz (hbus rfl (ht.bleBackend ▸ hb ▸ hblu))] at hno
              cases hno
            · -- without a beacon no target is ready
              intro hon hblu hbeacon
              refine (hnear ?_).elim
              simp only [hon, hblu, Bool.true_and, beq_self_eq_true, Bool.not_eq_true']
              unfold presenceTargetReady
              rw [hbeacon]
              cases target <;> simp
          · exact ht

@[simp] theorem stopPresence_presenceCancel (s : State) : s.stopPresence.presenceCancel = none := by
  unfold stopPresence
  dsimp only
  split
  · exact (stopAuthTap_steady _).presenceCancel
  · next h => exact (stopAuthTap_steady _).presenceCancel.trans h

theorem stopPresence_generation (s : State) : s.stopPresence.presenceGeneration = s.presenceGeneration + 1 := by
  unfold stopPresence
  dsimp only
  split <;> exact (stopAuthTap_steady _).presenceGeneration

theorem stopPresence_bluez (s : State) : s.stopPresence.bluez = s.bluez := by
  have htap : ∀ t : State, t.stopAuthTap.bluez = t.bluez := by
    intro t
    unfold stopAuthTap
    dsimp only
    split
    · split <;> rfl
    · rfl
  unfold stopPresence
  dsimp only
  split <;> exact htap _

theorem stopPresence_cancelled (s : State) (g : Nat) : g ∈ s.stopPresence.cancelled ↔ g ∈ s.cancelled ∨ s.presenceCancel = some g := by
  unfold stopPresence
  dsimp only
  split
  · next i hi =>
    rw [(stopAuthTap_steady _).cancelled, hi, List.mem_cons, Option.some.injEq]
    exact ⟨fun h => h.symm.imp_right Eq.symm, fun h => h.symm.imp_left Eq.symm⟩
  · next hi =>
    rw [(stopAuthTap_steady _).cancelled, hi]
    simp

theorem prime_steady (s : State) (r : Reply) : Steady s (s.prime r) := by
  unfold prime
  split
  · exact .refl s
  · split
    · exact .of s rfl rfl rfl rfl rfl id (.inl rfl)
    · split
      · exact teardown_steady s
      · exact .of s rfl rfl rfl rfl rfl id (.inl rfl)

theorem emitInside_steady (s : State) : Steady s s.emitInside := by
  unfold emitInside
  split
  · exact .refl s
  · exact .of s rfl rfl rfl rfl rfl id (.inl rfl)

theorem dispatch_steady (s : State) (cmd : Cmd) (since : Int) (r : Reply) : Steady s (s.dispatch cmd since r) := by
  have hc := ensureConnected_steady s (some cmd) s.presenceBeaconTarget since r
  unfold dispatch
  split <;> rename_i he <;> rw [he] at hc
  · exact hc.trans (complete_steady _)
  · split
    · exact (hc.trans (complete_steady _)).trans (teardown_steady _)
    · exact (hc.trans (complete_steady _)).trans (resetIdleTimer_steady _)

theorem navigateConnect_steady (s : State) (since : Int) (r : Reply) : Steady s (s.navigateConnect since r).1 := by
  have hc := ensureConnected_steady s none s.presenceBeaconTarget since r
  unfold navigateConnect
  split <;> rename_i he <;> rw [he] at hc
  · exact hc.trans (complete_steady _)
  · exact hc

theorem navigateSend_steady (s : State) (r : Reply) : Steady s (s.navigateSend r) := by
  unfold navigateSend
  split
  · exact .refl s
  · split
    · exact (complete_steady s).trans (resetIdleTimer_steady _)
    · exact complete_steady s

theorem refresh_steady (s : State) (now : Int) (r : Reply) : Steady s (s.refresh now r) := by
  unfold refresh
  refine Steady.trans ?_ (emitInside_steady _)
  split
  · refine Steady.trans ?_ (resetIdleTimer_steady _)
    split
    · exact prime_steady s r
    · exact .refl s
  · exact .refl s

theorem presenceConnect_steady (s : State) (target : Option Session.Result) (since : Int) (r : Reply) :
    Steady s (s.presenceConnect target since r) := by
  have hc := ensureConnected_steady s none target since r
  unfold presenceConnect
  split <;> rename_i he <;> rw [he] at hc
  · exact hc
  · exact ((hc.trans (ensureAuthTap_steady _)).trans (prime_steady _ r)).trans (resetIdleTimer_steady _)

end State

/-! ## The loops -/

/-- A section of a loop that watches. -/
def Job.watching : Job → Bool
  | look _ | dropSeen _ _ | refresh _ _ | hear _ _ | connect _ _ | depart _ => true
  | _ => false

/-- The loop's run is not over. -/
def Stage.alive : Stage → Bool
  | fresh | failing | opened | running => true
  | _ => false

/-- A section that changes neither presence mode nor where a loop is. -/
def Job.steady : Job → Bool
  | keygen _ | presenceStart _ | presenceStop | openBus _ | hear _ _ | cleanup _ => false
  | _ => true

theorem State.run_steady (s : State) (since : Int) (r : Reply) {j : Job} (hj : j.steady = true) : State.Steady s (s.run since r j) := by
  cases j with
  | command cmd => exact State.dispatch_steady s cmd since r
  | navigate => exact State.navigateConnect_steady s since r
  | navigateSend => exact State.navigateSend_steady s r
  | responder inbox =>
    unfold run respond
    dsimp only
    split
    · exact .refl s
    · split
      · exact State.teardown_steady s
      · exact .refl s
  | look g =>
    unfold run look
    dsimp only
    split
    · exact State.teardown_steady s
    · exact .refl s
  | dropSeen g conn =>
    unfold run State.dropSeen
    dsimp only
    split
    · exact State.teardown_steady s
    · exact .refl s
  | refresh g now => exact State.refresh_steady s now r
  | connect g target => exact State.presenceConnect_steady s target since r
  | depart g => exact State.teardown_steady s
  | _ => cases hj

namespace Proc

/-- No loop watches, and none is in such a section. -/
def Watchless (p : Proc) : Prop := (∀ g, p.loops g ≠ .running) ∧ ∀ j since, p.mu = some (j, since) → j.watching = false

structure Looped (p : Proc) : Prop where
  known : ∀ g, p.loops g ≠ .absent → g ≤ p.session.presenceGeneration
  cancelled : ∀ g, g ∈ p.session.cancelled → g < p.session.presenceGeneration
  leaving : ∀ g, p.loops g = .leaving → g ∈ p.session.cancelled
  alive : ∀ g, (p.loops g).alive = true → p.session.presenceCancel = some g ∨ g ∈ p.session.cancelled
  current : ∀ g, p.session.presenceCancel = some g → p.session.presenceGeneration = g ∧ p.session.bleBackend = .bluez
  /-- Before the bus is there. -/
  busless : p.session.bluez = false → p.session.lastBeacon = none ∧ (p.session.bleBackend = .bluez → p.session.car = none) ∧
    p.Watchless ∧ ∀ g, p.loops g ≠ .opened
  /-- A loop that is to end presence mode. -/
  failing : ∀ g, p.loops g = .failing → p.session.presenceGeneration = g → p.session.lastBeacon = none ∧ p.session.car = none ∧ p.Watchless
  cleaning : ∀ g since, p.mu = some (.cleanup g, since) → p.loops g = .failing ∨ p.loops g = .leaving
  opening : ∀ g since, p.mu = some (.openBus g, since) → p.loops g = .fresh

namespace Looped

variable {p q : Proc}

/-- A failing loop that is the current one has presence mode on. -/
theorem on (h : p.Looped) {g : Nat} (hg : (p.loops g).alive = true) (hc : p.session.presenceGeneration = g) :
    p.session.presenceCancel = some g ∧ p.session.bleBackend = .bluez := by
  rcases h.alive g hg with ha | ha
  · exact ⟨ha, (h.current g ha).2⟩
  · have := h.cancelled g ha
    omega

theorem steady (h : p.Looped) (hs : State.Steady p.session q.session) (hl : q.loops = p.loops) (hm : q.mu = p.mu ∨ q.mu = none) : q.Looped := by
  have hw : p.Watchless → q.Watchless := by
    intro hw
    refine ⟨by rw [hl]; exact hw.1, ?_⟩
    intro j since hj
    rcases hm with hm | hm
    · exact hw.2 j since (hm ▸ hj)
    · rw [hm] at hj
      cases hj
  refine ⟨?_, ?_, ?_, ?_, ?_, ?_, ?_, ?_, ?_⟩
  · rw [hl, hs.presenceGeneration]
    exact h.known
  · rw [hs.cancelled, hs.presenceGeneration]
    exact h.cancelled
  · rw [hl, hs.cancelled]
    exact h.leaving
  · rw [hl, hs.presenceCancel, hs.cancelled]
    exact h.alive
  · rw [hs.presenceCancel, hs.presenceGeneration, hs.bleBackend]
    exact h.current
  · intro hz
    obtain ⟨hb, hc, hwl, ho⟩ := h.busless (hs.busless hz)
    refine ⟨hs.lastBeacon.trans hb, fun hblu => hs.line hz hblu (hc (hs.bleBackend ▸ hblu)), hw hwl, ?_⟩
    rw [hl]
    exact ho
  · intro g hf hg
    rw [hl] at hf
    rw [hs.presenceGeneration] at hg
    obtain ⟨hb, hc, hwl⟩ := h.failing g hf hg
    obtain ⟨hon, hblu⟩ := h.on (by rw [hf]; rfl) hg
    exact ⟨hs.lastBeacon.trans hb, hs.shut (by rw [hon]; rfl) hblu hb hc, hw hwl⟩
  · intro g since hmu
    rcases hm with hm | hm
    · rw [hl]
      exact h.cleaning g since (hm ▸ hmu)
    · rw [hm] at hmu
      cases hmu
  · intro g since hmu
    rcases hm with hm | hm
    · rw [hl]
      exact h.opening g since (hm ▸ hmu)
    · rw [hm] at hmu
      cases hmu

/-- A loop with the bus looks at its context. -/
theorem goes (h : p.Looped) {g : Nat} {stage : Stage} (hat : p.loops g = .opened ∨ p.loops g = .running)
    (hto : stage = .leaving ∧ g ∈ p.session.cancelled ∨ stage = .running ∧ p.loops g = .opened ∧ g ∉ p.session.cancelled) :
    Looped { p with loops := upd p.loops g stage } := by
  have halive : (p.loops g).alive = true := by rcases hat with hat | hat <;> rw [hat] <;> rfl
  have hother : ∀ {i}, i ≠ g → upd p.loops g stage i = p.loops i := fun hi => Session.upd_ne _ _ hi
  have hself : upd p.loops g stage g = stage := Session.upd_same _ _ _
  have hw : stage ≠ .running → p.Watchless → Watchless { p with loops := upd p.loops g stage } := by
    intro hs hwl
    refine ⟨fun i => ?_, hwl.2⟩
    by_cases hi : i = g
    · subst hi
      show upd p.loops i stage i ≠ _
      rw [hself]
      exact hs
    · show upd p.loops g stage i ≠ _
      rw [hother hi]
      exact hwl.1 i
  refine ⟨?_, h.cancelled, ?_, ?_, h.current, ?_, ?_, ?_, ?_⟩
  · intro i hi
    by_cases hig : i = g
    · subst hig
      refine h.known i fun hn => ?_
      rw [hn] at halive
      cases halive
    · exact h.known i (hother hig ▸ hi)
  · intro i hi
    by_cases hig : i = g
    · subst hig
      rcases hto with ⟨-, hc⟩ | ⟨hs, -⟩
      · exact hc
      · have : stage = .leaving := hself.symm.trans hi
        rw [hs] at this
        cases this
    · exact h.leaving i ((hother hig).symm.trans hi)
  · intro i hi
    by_cases hig : i = g
    · subst hig
      exact h.alive i halive
    · exact h.alive i (by rw [← hother hig]; exact hi)
  · intro hz
    obtain ⟨-, -, hwl, ho⟩ := h.busless hz
    rcases hat with hat | hat
    · exact (ho g hat).elim
    · exact (hwl.1 g hat).elim
  · intro i hi hgen
    by_cases hig : i = g
    · subst hig
      have hst : stage = .failing := hself.symm.trans hi
      rcases hto with ⟨hs, -⟩ | ⟨hs, -⟩ <;> rw [hs] at hst <;> cases hst
    · have hf : p.loops i = .failing := (hother hig).symm.trans hi
      obtain ⟨hb, hc, hwl⟩ := h.failing i hf hgen
      refine ⟨hb, hc, hw ?_ hwl⟩
      -- the current loop is the failing one
      rintro rfl
      rcases hto with ⟨hs, -⟩ | ⟨-, -, hnc⟩
      · cases hs
      · rcases h.alive g halive with hon | hca
        · exact hig (hgen.symm.trans (h.current g hon).1)
        · exact hnc hca
  · intro i since hmu
    have hc := h.cleaning i since hmu
    have hig : i ≠ g := by
      rintro rfl
      rcases hat with hat | hat <;> rw [hat] at hc <;> rcases hc with hc | hc <;> cases hc
    show upd p.loops g stage i = _ ∨ upd p.loops g stage i = _
    rw [hother hig]
    exact hc
  · intro i since hmu
    have hf := h.opening i since hmu
    have hig : i ≠ g := by
      rintro rfl
      rcases hat with hat | hat <;> rw [hat] at hf <;> cases hf
    exact (hother hig).trans hf

theorem lock (h : p.Looped) {j : Job} (hj : p.may j = true) (since : Int) : Looped { p with mu := some (j, since) } := by
  have hw : p.Watchless → Watchless { p with mu := some (j, since) } := by
    intro hw
    refine ⟨hw.1, ?_⟩
    intro j' since' hmu
    cases hmu
    cases hwt : j.watching with
    | false => rfl
    | true =>
      have hr : ∃ g, p.loops g = .running := by
        cases j with
        | look g | dropSeen g _ | refresh g _ | hear g _ | connect g _ | depart g => exact ⟨g, by simpa [may] using hj⟩
        | _ => cases hwt
      obtain ⟨g, hg⟩ := hr
      exact (hw.1 g hg).elim
  refine ⟨h.known, h.cancelled, h.leaving, h.alive, h.current, ?_, ?_, ?_, ?_⟩
  · intro hz
    obtain ⟨hb, hc, hwl, ho⟩ := h.busless hz
    exact ⟨hb, hc, hw hwl, ho⟩
  · intro g hf hg
    obtain ⟨hb, hc, hwl⟩ := h.failing g hf hg
    exact ⟨hb, hc, hw hwl⟩
  · intro g since' hmu
    cases hmu
    simpa [may] using hj
  · intro g since' hmu
    cases hmu
    simpa [may] using hj

/-- Its ensureBluezLocked is done. -/
theorem openBus (h : p.Looped) {g : Nat} {since : Int} (hm : p.mu = some (.openBus g, since)) (r : Reply) :
    (p.finish (.openBus g) since r).Looped := by
  have hfresh := h.opening g since hm
  have halive : (p.loops g).alive = true := by rw [hfresh]; rfl
  have hs : State.Steady p.session (p.session.ensureBluez r) := State.ensureBluez_steady p.session r
  have hcar : (p.session.ensureBluez r).car = p.session.car := (State.ensureBluez_same p.session r).car
  have hstage : ∀ i, (p.finish (.openBus g) since r).loops i = p.loops i ∨
      i = g ∧ ((p.session.ensureBluez r).bluez = true ∧ (p.finish (.openBus g) since r).loops i = .opened ∨
        (p.session.ensureBluez r).bluez = false ∧ (p.finish (.openBus g) since r).loops i = .failing) := by
    intro i
    show upd p.loops g _ i = _ ∨ i = g ∧ (_ ∧ upd p.loops g _ i = _ ∨ _ ∧ upd p.loops g _ i = _)
    by_cases hi : i = g
    · subst hi
      rw [Session.upd_same]
      cases (p.session.ensureBluez r).bluez <;> simp
    · exact .inl (Session.upd_ne _ _ hi)
  have hw : p.Watchless → (p.finish (.openBus g) since r).Watchless := by
    intro hwl
    refine ⟨fun i => ?_, fun j since' hmu => by cases hmu⟩
    rcases hstage i with hi | ⟨-, ⟨-, hi⟩ | ⟨-, hi⟩⟩ <;> rw [hi]
    · exact hwl.1 i
    · simp
    · simp
  refine ⟨?_, ?_, ?_, ?_, ?_, ?_, ?_, ?_, ?_⟩
  · intro i hi
    show i ≤ (p.session.ensureBluez r).presenceGeneration
    rw [hs.presenceGeneration]
    rcases hstage i with he | ⟨rfl, -⟩
    · exact h.known i (he ▸ hi)
    · exact h.known i (by rw [hfresh]; simp)
  · intro i hi
    show i < (p.session.ensureBluez r).presenceGeneration
    rw [hs.presenceGeneration]
    exact h.cancelled i (hs.cancelled ▸ hi)
  · intro i hi
    show i ∈ (p.session.ensureBluez r).cancelled
    rw [hs.cancelled]
    rcases hstage i with he | ⟨-, ⟨-, he⟩ | ⟨-, he⟩⟩
    · exact h.leaving i (he ▸ hi)
    · rw [he] at hi
      cases hi
    · rw [he] at hi
      cases hi
  · intro i hi
    show (p.session.ensureBluez r).presenceCancel = some i ∨ i ∈ (p.session.ensureBluez r).cancelled
    rw [hs.presenceCancel, hs.cancelled]
    rcases hstage i with he | ⟨rfl, -⟩
    · exact h.alive i (by rw [← he]; exact hi)
    · exact h.alive i halive
  · intro i hi
    show (p.session.ensureBluez r).presenceGeneration = i ∧ (p.session.ensureBluez r).bleBackend = .bluez
    rw [hs.presenceGeneration, hs.bleBackend]
    exact h.current i (hs.presenceCancel ▸ hi)
  · intro hz
    have hnot : (p.session.ensureBluez r).bluez = false := hz
    obtain ⟨hb, hc, hwl, ho⟩ := h.busless (hs.busless hnot)
    refine ⟨hs.lastBeacon.trans hb, fun hblu => hcar.trans (hc (hs.bleBackend ▸ hblu)), hw hwl, fun i => ?_⟩
    rcases hstage i with he | ⟨-, ⟨ht, -⟩ | ⟨-, he⟩⟩
    · rw [he]
      exact ho i
    · rw [hnot] at ht
      cases ht
    · rw [he]
      simp
  · intro i hi hgen
    have hgen' : p.session.presenceGeneration = i := hs.presenceGeneration.symm.trans hgen
    rcases hstage i with he | ⟨rfl, ⟨-, he⟩ | ⟨hz, -⟩⟩
    · obtain ⟨hb, hc, hwl⟩ := h.failing i (he.symm.trans hi) hgen'
      exact ⟨hs.lastBeacon.trans hb, hcar.trans hc, hw hwl⟩
    · rw [he] at hi
      cases hi
    · obtain ⟨hb, hc, hwl, -⟩ := h.busless (hs.busless hz)
      exact ⟨hs.lastBeacon.trans hb, hcar.trans (hc (h.on halive hgen').2), hw hwl⟩
  · intro i since' hmu
    cases hmu
  · intro i since' hmu
    cases hmu

/-- Only a loop without the bus ends presence mode, and then nothing is connected. -/
theorem ends (h : p.Looped) {g : Nat} {since : Int} (hm : p.mu = some (.cleanup g, since)) (hg : p.session.presenceGeneration = g) :
    p.session.car = none ∧ p.session.presenceCancel = some g := by
  rcases h.cleaning g since hm with hf | hl
  · exact ⟨(h.failing g hf hg).2.1, (h.on (by rw [hf]; rfl) hg).1⟩
  · have := h.cancelled g (h.leaving g hl)
    omega

/-- Its deferred cleanup is done. -/
theorem cleanup (h : p.Looped) {g : Nat} {since : Int} (hm : p.mu = some (.cleanup g, since)) (r : Reply) :
    (p.finish (.cleanup g) since r).Looped := by
  have hs : ∀ {t : State}, t = p.session.endPresence g → t.bleBackend = p.session.bleBackend ∧ t.presenceGeneration = p.session.presenceGeneration ∧
      t.cancelled = p.session.cancelled ∧ t.lastBeacon = p.session.lastBeacon ∧ t.bluez = p.session.bluez ∧ t.car = p.session.car ∧
      (p.session.presenceGeneration ≠ g → t.presenceCancel = p.session.presenceCancel) ∧ (p.session.presenceGeneration = g → t.presenceCancel = none) := by
    rintro t rfl
    unfold State.endPresence
    split
    · next hg => exact ⟨rfl, rfl, rfl, rfl, rfl, rfl, fun hn => (hn hg).elim, fun _ => rfl⟩
    · next hg => exact ⟨rfl, rfl, rfl, rfl, rfl, rfl, fun _ => rfl, fun hn => (hg hn).elim⟩
  obtain ⟨hb, hgen, hk, hl, hz, hc, hkeep, hoff⟩ := hs (t := (p.finish (.cleanup g) since r).session) rfl
  have hstage : ∀ {i} {stage : Stage}, (p.finish (.cleanup g) since r).loops i = stage → stage ≠ .over → i ≠ g ∧ p.loops i = stage := by
    intro i stage hi hn
    by_cases hig : i = g
    · subst hig
      exact (hn (hi.symm.trans (Session.upd_same _ _ _))).elim
    · exact ⟨hig, (Session.upd_ne _ _ hig).symm.trans hi⟩
  have hw : p.Watchless → (p.finish (.cleanup g) since r).Watchless := by
    intro hwl
    refine ⟨fun i hi => ?_, fun j since' hmu => by cases hmu⟩
    exact hwl.1 i (hstage hi (by simp)).2
  refine ⟨?_, ?_, ?_, ?_, ?_, ?_, ?_, ?_, ?_⟩
  · intro i hi
    rw [hgen]
    by_cases hig : i = g
    · subst hig
      refine h.known i fun hn => ?_
      rcases h.cleaning i since hm with hf | hf <;> rw [hn] at hf <;> cases hf
    · refine h.known i fun hn => hi ?_
      exact (Session.upd_ne _ _ hig).trans hn
  · rw [hk, hgen]
    exact h.cancelled
  · intro i hi
    rw [hk]
    exact h.leaving i (hstage hi (by simp)).2
  · intro i hi
    have hio : (p.finish (.cleanup g) since r).loops i ≠ .over := fun hn => by rw [hn] at hi; cases hi
    obtain ⟨hig, hpi⟩ := hstage rfl hio
    rw [hk]
    rcases h.alive i (by rw [hpi]; exact hi) with hon | hca
    · refine .inl ?_
      rw [hkeep ?_]
      · exact hon
      · rw [(h.current i hon).1]
        exact hig
    · exact .inr hca
  · intro i hi
    rw [hgen, hb]
    by_cases hg : p.session.presenceGeneration = g
    · rw [hoff hg] at hi
      cases hi
    · exact h.current i (hkeep hg ▸ hi)
  · intro hno
    obtain ⟨hbe, hca, hwl, ho⟩ := h.busless (hz.symm.trans hno)
    refine ⟨hl.trans hbe, fun hblu => hc.trans (hca (hb ▸ hblu)), hw hwl, fun i hi => ?_⟩
    exact ho i (hstage hi (by simp)).2
  · intro i hi hg
    obtain ⟨hbe, hca, hwl⟩ := h.failing i (hstage hi (by simp)).2 (hgen.symm.trans hg)
    exact ⟨hl.trans hbe, hc.trans hca, hw hwl⟩
  · intro i since' hmu
    cases hmu
  · intro i since' hmu
    cases hmu

/-- presence-start is done. -/
theorem presenceStart (h : p.Looped) (cfg : Session.Config) (since : Int) (r : Reply) : (p.finish (.presenceStart cfg) since r).Looped := by
  by_cases hc : p.session.bleBackend = .bluez ∧ p.session.presenceCancel = none
  · have hs : (p.finish (.presenceStart cfg) since r).session = { p.session with
        presenceGeneration := p.session.presenceGeneration + 1, presenceCancel := some (p.session.presenceGeneration + 1), presenceCfg := cfg } :=
      if_pos hc
    have hl : (p.finish (.presenceStart cfg) since r).loops = upd p.loops (p.session.presenceGeneration + 1) .fresh := if_pos hc
    have hstage : ∀ {i}, (p.finish (.presenceStart cfg) since r).loops i ≠ .fresh → i ≠ p.session.presenceGeneration + 1 ∧
        (p.finish (.presenceStart cfg) since r).loops i = p.loops i := by
      intro i hi
      rw [hl] at hi ⊢
      have hig : i ≠ p.session.presenceGeneration + 1 := by
        rintro rfl
        exact hi (Session.upd_same _ _ _)
      exact ⟨hig, Session.upd_ne _ _ hig⟩
    have hbus := h.busless
    have hcurrent := h.current
    refine ⟨?_, ?_, ?_, ?_, ?_, ?_, ?_, ?_, ?_⟩
    · intro i hi
      rw [hs]
      by_cases hf : (p.finish (.presenceStart cfg) since r).loops i = .fresh
      · by_cases hig : i = p.session.presenceGeneration + 1
        · exact Nat.le_of_eq hig
        · rw [hl, Session.upd_ne _ _ hig] at hi
          exact Nat.le_succ_of_le (h.known i hi)
      · rw [(hstage hf).2] at hi
        exact Nat.le_succ_of_le (h.known i hi)
    · rw [hs]
      intro i hi
      exact Nat.lt_succ_of_lt (h.cancelled i hi)
    · rw [hs]
      intro i hi
      exact h.leaving i ((hstage (by rw [hi]; simp)).2.symm.trans hi)
    · rw [hs]
      intro i hi
      by_cases hig : i = p.session.presenceGeneration + 1
      · exact .inl (congrArg some hig.symm)
      · rw [hl, Session.upd_ne _ _ hig] at hi
        refine (h.alive i hi).imp (fun hon => ?_) id
        rw [hc.2] at hon
        cases hon
    · rw [hs]
      intro i hi
      exact ⟨Option.some.inj hi, hc.1⟩
    · rw [hs]
      intro hz
      obtain ⟨hb, hca, hwl, ho⟩ := hbus hz
      refine ⟨hb, hca, ⟨fun i hi => ?_, fun j since' hmu => by cases hmu⟩, fun i hi => ?_⟩
      · exact hwl.1 i ((hstage (by rw [hi]; simp)).2.symm.trans hi)
      · exact ho i ((hstage (by rw [hi]; simp)).2.symm.trans hi)
    · rw [hs]
      intro i hi hg
      exact ((hstage (by rw [hi]; simp)).1 hg.symm).elim
    · intro i since' hmu
      cases hmu
    · intro i since' hmu
      cases hmu
  · have hs : (p.finish (.presenceStart cfg) since r).session = p.session := if_neg hc
    have hl : (p.finish (.presenceStart cfg) since r).loops = p.loops := if_neg hc
    refine h.steady ?_ hl (.inr rfl)
    rw [hs]
    exact .refl _

/-- presence-stop is done, or a key is replaced. -/
theorem stop (h : p.Looped) (hs : q.session = p.session.stopPresence.teardown) (hl : q.loops = p.loops) (hm : q.mu = none) : q.Looped := by
  have ht := State.teardown_steady p.session.stopPresence
  have hgen : q.session.presenceGeneration = p.session.presenceGeneration + 1 := by
    rw [hs, ht.presenceGeneration, State.stopPresence_generation]
  have hoff : q.session.presenceCancel = none := by
    rw [hs, ht.presenceCancel, State.stopPresence_presenceCancel]
  have hcar : q.session.car = none := by
    rw [hs]
    rfl
  have hbeacon : q.session.lastBeacon = none := by
    rw [hs, ht.lastBeacon]
    rfl
  have hcancel : ∀ i, i ∈ q.session.cancelled ↔ i ∈ p.session.cancelled ∨ p.session.presenceCancel = some i := by
    intro i
    rw [hs, ht.cancelled, State.stopPresence_cancelled]
  have hw : p.Watchless → q.Watchless := by
    intro hwl
    refine ⟨by rw [hl]; exact hwl.1, ?_⟩
    intro j since hmu
    rw [hm] at hmu
    cases hmu
  refine ⟨?_, ?_, ?_, ?_, ?_, ?_, ?_, ?_, ?_⟩
  · intro i hi
    rw [hl] at hi
    rw [hgen]
    exact Nat.le_succ_of_le (h.known i hi)
  · intro i hi
    rw [hgen]
    rcases (hcancel i).1 hi with hca | hon
    · exact Nat.lt_succ_of_lt (h.cancelled i hca)
    · rw [(h.current i hon).1]
      exact Nat.lt_succ_self i
  · intro i hi
    rw [hl] at hi
    exact (hcancel i).2 (.inl (h.leaving i hi))
  · intro i hi
    rw [hl] at hi
    exact .inr ((hcancel i).2 (h.alive i hi).symm)
  · intro i hi
    rw [hoff] at hi
    cases hi
  · intro hz
    rw [hs] at hz
    have hz' : p.session.bluez = false := (State.stopPresence_bluez p.session) ▸ ht.busless hz
    obtain ⟨-, -, hwl, ho⟩ := h.busless hz'
    exact ⟨hbeacon, fun _ => hcar, hw hwl, by rw [hl]; exact ho⟩
  · intro i hi hg
    rw [hl] at hi
    have := h.known i (by rw [hi]; simp)
    omega
  · intro i since hmu
    rw [hm] at hmu
    cases hmu
  · intro i since hmu
    rw [hm] at hmu
    cases hmu

/-- A watching loop has heard the beacon, or not. -/
theorem hear (h : p.Looped) {g : Nat} {result : Option Session.Result} {since : Int} (hm : p.mu = some (.hear g result, since)) (r : Reply) :
    (p.finish (.hear g result) since r).Looped := by
  have hno : ¬ p.Watchless := fun hw => by cases hw.2 _ _ hm
  refine ⟨h.known, h.cancelled, h.leaving, h.alive, h.current, ?_, ?_, ?_, ?_⟩
  · intro hz
    exact (hno (h.busless hz).2.2.1).elim
  · intro i hi hg
    exact (hno (h.failing i hi hg).2.2).elim
  · intro i since' hmu
    cases hmu
  · intro i since' hmu
    cases hmu

theorem done (h : p.Looped) {j : Job} {since : Int} (hm : p.mu = some (j, since)) (r : Reply) : (p.finish j since r).Looped := by
  have hsteady : ∀ {j : Job}, j.steady = true → p.loopsAfter r j = p.loops → (p.finish j since r).Looped :=
    fun hj hl => h.steady (State.run_steady p.session since r hj) hl (.inr rfl)
  cases j with
  | presenceStart cfg => exact h.presenceStart cfg since r
  | presenceStop => exact h.stop rfl rfl rfl
  | keygen force =>
    by_cases hf : (force && r.ok) = true
    · exact h.stop (if_pos hf) rfl rfl
    · refine h.steady ?_ rfl (.inr rfl)
      rw [show (p.finish (.keygen force) since r).session = p.session from if_neg hf]
      exact .refl _
  | openBus g => exact h.openBus hm r
  | hear g result => exact h.hear hm r
  | cleanup g => exact h.cleanup hm r
  | _ => exact hsteady rfl rfl

theorem step (h : p.Looped) (e : Event) : (p.step e).Looped := by
  unfold Proc.step
  cases e with
  | tick ms => exact h.steady (.of _ rfl rfl rfl rfl rfl id (.inl rfl)) rfl (.inl rfl)
  | expire t =>
    dsimp only
    split
    · exact h.steady (.of _ rfl rfl rfl rfl rfl id (.inl rfl)) rfl (.inl rfl)
    · exact h
  | callback t =>
    dsimp only
    split
    · refine h.steady ?_ rfl (.inl rfl)
      have hs : State.Steady p.session { p.session with waiting := p.session.waiting.erase t } := .of _ rfl rfl rfl rfl rfl id (.inl rfl)
      exact hs.trans (State.teardown_steady _)
    · exact h
  | lock j =>
    dsimp only
    split
    · next hj => exact h.lock hj.2 _
    · exact h
  | done r =>
    dsimp only
    split
    · next j since hm => exact h.done hm r
    · exact h
  | enter g =>
    dsimp only
    split
    · next hg =>
      refine h.goes (.inl hg) ?_
      by_cases hc : g ∈ p.session.cancelled
      · exact .inl ⟨if_pos hc, hc⟩
      · exact .inr ⟨if_neg hc, hg, hc⟩
    · exact h
  | exit g =>
    dsimp only
    split
    · next hg => exact h.goes (.inr hg.1) (.inl ⟨rfl, hg.2.1⟩)
    · exact h

end Looped

theorem looped {ok : Proc → Event → Prop} {p : Proc} (h : machine.Reach ok p) : p.Looped := by
  refine h.inv (I := Looped) ?_ fun p e hp _ => hp.step e
  rintro p ⟨b, t, rfl⟩
  refine ⟨?_, ?_, ?_, ?_, ?_, ?_, ?_, ?_, ?_⟩
  · intro g hg
    exact (hg rfl).elim
  · intro g hg
    cases hg
  · intro g hg
    cases hg
  · intro g hg
    cases hg
  · intro g hg
    cases hg
  · intro _
    exact ⟨rfl, fun _ => rfl, ⟨by simp [start], fun j since hmu => by cases hmu⟩, by simp [start]⟩
  · intro g hg
    cases hg
  · intro g since hmu
    cases hmu
  · intro g since hmu
    cases hmu

end Proc

end ElectricEel.Guarded
