/-
  ElectricEel.Child.Domains — on which links a command finds its domain's session
  (main.go `sessionDomains`, `ensureConnectedLocked`, `dispatch`; navigate.go).

  StartSession runs for the domains the command names, on a live link as on a new one; a
  command that names none gets both on a new link and nothing on a live one. navigate
  connects as presence mode does, for VCSEC alone. So what a link can sign depends on how
  it was opened and on what was served on it since.

  Proved, for every history of requests, presence connects and teardowns:
  - `recorded`: the domains up on the live link are exactly those its history names, or
    both when its opener named none.
  - `domain_up_iff`: a command finds the session it needs on a new link, or on one whose
    history has it, or by naming the domain itself; navigate only on a live link whose
    history has infotainment, not torn down under it.
  - `domain_missing_fails`: a command without that session is not answered OK.
-/
import ElectricEel.Lib.Runs
import ElectricEel.Child.Dispatch

namespace ElectricEel.Child

open Lib Commands Wire

/-! ## The child's session over a whole run -/

inductive Round where
  | line (w : World) (l : Line) (e : ServeEnv)
  | own (disk : Disk) (o : Own)

def Sess.round (s : Sess) : Round → Sess
  | .line w l e => (serveLine w s l e).1
  | .own disk o => s.own disk o

def sessions : Machine Sess Round := { init := fun s => ∃ vin b, s = .start vin b, step := Sess.round }

/-! ## History -/

/-- A link with this history has domain `d`. -/
def Covers (uses : List (Option Cmd)) (d : Domain) : Prop :=
  (∃ opener rest, uses = opener :: rest ∧ sessionDomains opener = []) ∨ ∃ u ∈ uses, d ∈ sessionDomains u

def Sess.Recorded (s : Sess) : Prop :=
  ∀ link, s.car = some link → link.uses ≠ [] ∧ ∀ d, d ∈ link.handshakes ↔ Covers link.uses d

theorem covers_single (cmd : Option Cmd) (d : Domain) : d ∈ startSession (sessionDomains cmd) ↔ Covers [cmd] d := by
  unfold startSession Covers
  split
  · rename_i h
    refine ⟨fun _ => .inl ⟨cmd, [], rfl, h⟩, fun _ => ?_⟩
    cases d <;> simp
  · rename_i h
    constructor
    · exact fun hd => .inr ⟨cmd, List.mem_singleton.2 rfl, hd⟩
    · rintro (⟨opener, rest, heq, hn⟩ | ⟨u, hu, hd⟩)
      · injection heq with heq _
        exact (h (heq ▸ hn)).elim
      · exact List.mem_singleton.1 hu ▸ hd

theorem covers_append {uses : List (Option Cmd)} (hn : uses ≠ []) (cmd : Option Cmd) (d : Domain) :
    Covers (uses ++ [cmd]) d ↔ Covers uses d ∨ d ∈ sessionDomains cmd := by
  obtain ⟨u, us, rfl⟩ := List.exists_cons_of_ne_nil hn
  unfold Covers
  constructor
  · rintro (⟨opener, rest, heq, h⟩ | ⟨v, hv, hd⟩)
    · injection heq with h1 _
      exact .inl (.inl ⟨u, us, rfl, h1 ▸ h⟩)
    · rcases List.mem_append.1 hv with hv | hv
      · exact .inl (.inr ⟨v, hv, hd⟩)
      · exact .inr (List.mem_singleton.1 hv ▸ hd)
  · rintro ((⟨opener, rest, heq, h⟩ | ⟨v, hv, hd⟩) | hd)
    · exact .inl ⟨opener, rest ++ [cmd], by rw [heq]; rfl, h⟩
    · exact .inr ⟨v, List.mem_append_left _ hv, hd⟩
    · exact .inr ⟨cmd, List.mem_append_right _ (List.mem_singleton.2 rfl), hd⟩

namespace Sess.Recorded

variable {s : Sess}

theorem of_none (h : s.car = none) : s.Recorded := fun link hl => by rw [h] at hl; cases hl

theorem congr {t : Sess} (hs : s.Recorded) (h : t.car = s.car) : t.Recorded := fun link hl => hs link (h ▸ hl)

theorem ensureConnected (hs : s.Recorded) (disk : Disk) {cmd : Option Cmd} (hw : withoutSession cmd = false)
    (e : ConnectEnv) : (s.ensureConnected disk cmd e).1.Recorded := by
  cases h : (s.ensureConnected disk cmd e).2 with
  | error err => exact hs.congr (Sess.ensureConnected_error h)
  | ok =>
    rcases Sess.ensureConnected_ok hw h with ⟨_, hc⟩ | ⟨live, hl, hc⟩
    · intro link hl
      obtain rfl := Option.some.inj (hc.symm.trans hl)
      exact ⟨by simp, covers_single cmd⟩
    · intro link hl'
      obtain rfl := Option.some.inj (hc.symm.trans hl')
      obtain ⟨hn, hd⟩ := hs live hl
      exact ⟨by simp, fun d => by rw [covers_append hn, List.mem_append, hd]⟩

theorem own (hs : s.Recorded) (disk : Disk) (o : Own) : (s.own disk o).Recorded := by
  cases o with
  | connect e =>
    show (if s.presence then (s.ensureConnected disk none e).1 else s).Recorded
    split
    · exact hs.ensureConnected disk rfl e
    · exact hs
  | teardown => exact .of_none rfl
  | loopExit => exact hs.congr rfl

theorem owns (hs : s.Recorded) (disk : Disk) (os : List Own) : (os.foldl (Sess.own disk) s).Recorded := by
  induction os generalizing s with
  | nil => exact hs
  | cons o os ih => exact ih (hs.own disk o)

theorem command (hs : s.Recorded) (w : World) (req : Request) (e : ServeEnv) : (dispatchCommand w s req e).1.Recorded := by
  have hkeep : withoutSession (some req.cmd) = false → (s.ensureConnected w.disk (some req.cmd) e.connect).1.Recorded :=
    fun hw => hs.ensureConnected w.disk hw e.connect
  unfold dispatchCommand
  split
  · rename_i s' err heq
    have herr := @Sess.ensureConnected_error w.disk s (some req.cmd) e.connect err (by rw [heq])
    rw [heq] at herr
    exact hs.congr herr
  · rename_i s' heq
    rw [heq] at hkeep
    dsimp only
    split
    · split <;> exact .of_none rfl
    · rename_i hw
      exact hkeep (Bool.eq_false_iff.2 hw)

theorem keygen (hs : s.Recorded) (w : World) (req : Request) (e : KeygenEnv) : (dispatchKeygen w s req e).1.Recorded := by
  have hfresh : ∀ force, (keygenFresh w s req force e).1.Recorded := by
    intro force
    unfold keygenFresh
    split
    · exact hs
    · split
      · exact hs
      · dsimp only
        split
        · exact .of_none rfl
        · exact hs
  unfold dispatchKeygen
  split
  · exact hfresh true
  · split
    · exact hfresh false
    · exact hs
    · exact hs
    · exact hs

theorem navigate (hs : s.Recorded) (w : World) (req : Request) (c : ConnectEnv) (e : NavigateEnv) :
    (dispatchNavigate w s req c e).1.Recorded := by
  have hc := @Sess.Recorded.ensureConnected s hs w.disk none rfl c
  unfold dispatchNavigate
  split
  · exact hs
  split
  · rename_i heq
    rwa [heq] at hc
  · rename_i heq
    rw [heq] at hc
    dsimp only
    split
    · exact hc.owns w.disk _
    · split <;> exact hc.owns w.disk _

theorem dispatch (hs : s.Recorded) (w : World) (req : Request) (e : ServeEnv) : (dispatch w s req e).1.Recorded := by
  unfold Child.dispatch
  split
  · unfold dispatchPair
    split
    · split
      · exact hs
      · exact hs
      · split
        · exact hs.command w _ e
        · exact hs
    · exact hs
  · exact hs.keygen w req e.keygen
  · dsimp only
    unfold dispatchPresenceStart
    split
    · exact hs
    · split
      · exact hs
      · split
        · exact hs
        · exact hs.congr rfl
  · exact .of_none rfl
  · exact hs.navigate w req e.connect e.navigate
  · exact hs.command w req e

theorem round (hs : s.Recorded) (r : Round) : (s.round r).Recorded := by
  cases r with
  | own disk o => exact hs.own disk o
  | line w l e =>
    show (serveLine w s l e).1.Recorded
    cases l with
    | blank => exact hs
    | tooLong => exact hs
    | malformed err => exact hs
    | request req =>
      unfold serveLine
      dsimp only
      split
      · exact hs
      · exact hs.dispatch w req e

end Sess.Recorded

abbrev AnySession : Sess → Prop := sessions.Reach fun _ _ => True

theorem recorded {s : Sess} (h : AnySession s) : s.Recorded :=
  h.inv (fun s ⟨_, _, hs⟩ => .of_none (by rw [hs]; rfl)) fun _ r hs _ => hs.round r

/-! ## The link a command executes on -/

/-- The link on which `dispatch` goes on to execute `req` once ensureConnectedLocked
    returned nil; add-key-request needs no session. -/
def executesOn (w : World) (s : Sess) (req : Request) (e : ServeEnv) : Option Link :=
  match req.cmd with
  | .pair | .keygen | .presenceStart | .presenceStop => none
  | .navigate =>
    if e.navigate.shape.isSome then none
    else
      match s.ensureConnected w.disk none e.connect with
      | (_, .error _) => none
      | (s', .ok ()) => (e.navigate.between.foldl (Sess.own w.disk) s').car
  | cmd =>
    if withoutSession (some cmd) then none
    else
      match s.ensureConnected w.disk (some cmd) e.connect with
      | (_, .error _) => none
      | (s', .ok ()) => s'.car

/-- When the command will find a session for domain `d`. -/
def Prepared (s : Sess) (req : Request) (e : ServeEnv) (d : Domain) : Prop :=
  match s.car with
  | none => req.cmd ≠ .navigate
  | some link =>
    if req.cmd = .navigate then Covers link.uses d ∧ Own.teardown ∉ e.navigate.between
    else Covers link.uses d ∨ d ∈ sessionDomains (some req.cmd)

/-! ## Under navigate -/

/-- No link, or one without infotainment. -/
def Sess.Dim (s : Sess) : Prop := ∀ link, s.car = some link → .infotainment ∉ link.handshakes

theorem ensureConnected_live {disk : Disk} {s : Sess} {link : Link} (hc : s.car = some link) (e : ConnectEnv) :
    ∃ link', (s.ensureConnected disk none e).1.car = some link' ∧
      (Domain.infotainment ∈ link'.handshakes ↔ Domain.infotainment ∈ link.handshakes) := by
  cases h : (s.ensureConnected disk none e).2 with
  | error err => exact ⟨link, (Sess.ensureConnected_error h).trans hc, Iff.rfl⟩
  | ok =>
    rcases Sess.ensureConnected_ok rfl h with ⟨hn, _⟩ | ⟨live, hl, hc'⟩
    · rw [hc] at hn
      cases hn
    · obtain rfl := Option.some.inj (hc.symm.trans hl)
      exact ⟨_, hc', by simp [sessionDomains]⟩

theorem Sess.Dim.connect {s : Sess} (hs : s.Dim) (disk : Disk) (e : ConnectEnv) : (s.ensureConnected disk none e).1.Dim := by
  intro link hl
  cases hc : s.car with
  | some live =>
    obtain ⟨link', hl', hiff⟩ := @ensureConnected_live disk s live hc e
    obtain rfl := Option.some.inj (hl'.symm.trans hl)
    exact fun h => hs live hc (hiff.1 h)
  | none =>
    cases h : (s.ensureConnected disk none e).2 with
    | error err =>
      rw [Sess.ensureConnected_error h, hc] at hl
      cases hl
    | ok =>
      rcases Sess.ensureConnected_ok rfl h with ⟨_, hc'⟩ | ⟨live, hl', _⟩
      · obtain rfl := Option.some.inj (hc'.symm.trans hl)
        simp [startSession, sessionDomains]
      · rw [hc] at hl'
        cases hl'

theorem Sess.Dim.owns {s : Sess} (hs : s.Dim) (disk : Disk) (os : List Own) : (os.foldl (Sess.own disk) s).Dim := by
  induction os generalizing s with
  | nil => exact hs
  | cons o os ih =>
    refine ih ?_
    cases o with
    | connect e =>
      show (if s.presence then (s.ensureConnected disk none e).1 else s).Dim
      split
      · exact hs.connect disk e
      · exact hs
    | teardown => exact fun link hl => by cases hl
    | loopExit => exact hs

/-- A teardown under navigate leaves at best a presence link. -/
theorem owns_torn (disk : Disk) (s : Sess) {os : List Own} (h : Own.teardown ∈ os) : (os.foldl (Sess.own disk) s).Dim := by
  induction os generalizing s with
  | nil => cases h
  | cons o os ih =>
    rcases List.mem_cons.1 h with rfl | h
    · exact Sess.Dim.owns (s := s.teardown) (fun link hl => by cases hl) disk os
    · exact ih _ h

theorem owns_kept (disk : Disk) {s : Sess} {link : Link} (hc : s.car = some link) {os : List Own} (h : Own.teardown ∉ os) :
    ∃ link', (os.foldl (Sess.own disk) s).car = some link' ∧
      (Domain.infotainment ∈ link'.handshakes ↔ Domain.infotainment ∈ link.handshakes) := by
  induction os generalizing s link with
  | nil => exact ⟨link, hc, Iff.rfl⟩
  | cons o os ih =>
    rw [List.mem_cons, not_or] at h
    have hstep : ∃ link', (s.own disk o).car = some link' ∧
        (Domain.infotainment ∈ link'.handshakes ↔ Domain.infotainment ∈ link.handshakes) := by
      cases o with
      | connect e =>
        show ∃ link', (if s.presence then (s.ensureConnected disk none e).1 else s).car = some link' ∧ _
        split
        · exact ensureConnected_live hc e
        · exact ⟨link, hc, Iff.rfl⟩
      | teardown => exact (h.1 rfl).elim
      | loopExit => exact ⟨link, hc, Iff.rfl⟩
    obtain ⟨mid, hm, hmi⟩ := hstep
    obtain ⟨last, hl, hli⟩ := ih hm h.2
    exact ⟨last, hl, hli.trans hmi⟩

theorem navigate_domain_iff {s : Sess} (hs : s.Recorded) {w : World} {req : Request} {e : ServeEnv} {link : Link}
    (hn : req.cmd = .navigate) (hx : executesOn w s req e = some link) :
    .infotainment ∈ link.handshakes ↔ Prepared s req e .infotainment := by
  unfold executesOn at hx
  simp only [hn] at hx
  split at hx
  · cases hx
  split at hx
  · cases hx
  rename_i s' heq
  have hok : (s.ensureConnected w.disk none e.connect).2 = .ok () := by rw [heq]
  unfold Prepared
  cases hc : s.car with
  | none =>
    -- a new link, opened for VCSEC
    have hdim : s'.Dim := by
      have := Sess.Dim.connect (s := s) (fun link hl => by rw [hc] at hl; cases hl) w.disk e.connect
      rwa [heq] at this
    simpa [hn] using hdim.owns w.disk e.navigate.between link hx
  | some live =>
    obtain ⟨mid, hm, hmi⟩ := @ensureConnected_live w.disk s live hc e.connect
    rw [heq] at hm
    simp only [hn, if_true]
    by_cases ht : Own.teardown ∈ e.navigate.between
    · simp [ht, owns_torn w.disk s' ht link hx]
    · obtain ⟨last, hl, hli⟩ := owns_kept w.disk hm ht
      obtain rfl := Option.some.inj (hl.symm.trans hx)
      rw [hli, hmi, (hs live hc).2]
      simp [ht]

/-! ## Ordinary commands -/

theorem sessionDomains_sends {v : Vendor} {d : Domain} (h : v.sends = some d) (hn : sessionDomains (some (.vendor v)) ≠ []) :
    sessionDomains (some (.vendor v)) = [d] := by
  cases v <;> cases d <;> simp_all [sessionDomains, commands, Vendor.sends]

theorem command_domain_iff {s : Sess} (hs : s.Recorded) {w : World} {req : Request} {e : ServeEnv} {link : Link} {v : Vendor}
    {d : Domain} (hv : req.cmd = .vendor v) (hd : v.sends = some d) (hx : executesOn w s req e = some link) :
    d ∈ link.handshakes ↔ Prepared s req e d := by
  unfold executesOn at hx
  simp only [hv] at hx
  split at hx
  · cases hx
  rename_i hw
  split at hx
  · cases hx
  rename_i s' heq
  have hok : (s.ensureConnected w.disk (some (.vendor v)) e.connect).2 = .ok () := by rw [heq]
  have hnav : req.cmd ≠ .navigate := by rw [hv]; simp
  unfold Prepared
  rcases Sess.ensureConnected_ok (Bool.eq_false_iff.2 hw) hok with ⟨hn, hc⟩ | ⟨live, hl, hc⟩
  · rw [heq] at hc
    obtain rfl := Option.some.inj (hc.symm.trans hx)
    simp only [hn, ne_eq, hnav, not_false_eq_true, iff_true]
    by_cases hnil : sessionDomains (some (.vendor v)) = []
    · rw [hnil]
      cases d <;> simp [startSession]
    · rw [sessionDomains_sends hd hnil]
      simp [startSession]
  · rw [heq] at hc
    obtain rfl := Option.some.inj (hc.symm.trans hx)
    simp only [hl, hnav, if_false]
    rw [List.mem_append, (hs live hl).2, hv]

/-! ## Results -/

def parkedWorld : World :=
  { disk := ⟨none, some (.key 7), some (.pem 7)⟩, whitelist := [("5YJ3E1EA0PF000000", 7)], now := 0, confirmed := [] }

/-- Exactly when a command finds the session it needs on its link. -/
theorem domain_up_iff {s : Sess} (h : AnySession s) {w : World} {req : Request} {e : ServeEnv} {link : Link} {d : Domain}
    (hx : executesOn w s req e = some link) (hd : req.cmd.sends = some d) : d ∈ link.handshakes ↔ Prepared s req e d := by
  cases hc : req.cmd with
  | vendor v =>
    rw [hc] at hd
    exact command_domain_iff (recorded h) hc hd hx
  | navigate =>
    rw [hc] at hd
    cases hd
    exact navigate_domain_iff (recorded h) hc hx
  | _ => rw [hc] at hd; cases hd

/-- Presence mode starts and connects. -/
def walkUp : List Round :=
  [.line parkedWorld (.request ⟨"request", "1", .presenceStart, []⟩) {}, .own parkedWorld.disk (.connect {})]

def climateOn : Request := ⟨"request", "2", .vendor .climateOn, []⟩

def walkedUp : Sess := sessions.run (.start "5YJ3E1EA0PF000000" .bluez) walkUp

theorem walkedUp_reached : AnySession walkedUp :=
  (Machine.Reach.init (M := sessions) ⟨_, _, rfl⟩).run walkUp (.of_forall (fun _ _ => trivial) _ _)

theorem climateOn_up_iff :
    executesOn parkedWorld walkedUp climateOn {} = some ⟨[.vcsec], [none, some (.vendor .climateOn)]⟩ ∧
    (.infotainment ∈ ([.vcsec] : List Domain) ↔ Prepared walkedUp climateOn {} .infotainment) :=
  have hx : executesOn parkedWorld walkedUp climateOn {} = some ⟨[.vcsec], [none, some (.vendor .climateOn)]⟩ := by decide
  ⟨hx, domain_up_iff walkedUp_reached hx rfl⟩

/-- climate-on over the phone key's link goes to infotainment without a session. -/
theorem climateOn_domain_missing :
    ¬ ∀ s, AnySession s → ∀ (w : World) (req : Request) (e : ServeEnv) (link : Link) (d : Domain),
      executesOn w s req e = some link → req.cmd.sends = some d → d ∈ link.handshakes := by
  intro h
  have := h walkedUp walkedUp_reached parkedWorld climateOn {} ⟨[.vcsec], [none, some (.vendor .climateOn)]⟩ .infotainment
    (by decide) rfl
  revert this
  decide

/-- Without that session the command is not answered OK. -/
theorem domain_missing_fails {w : World} {s : Sess} {req : Request} {e : ServeEnv} {link : Link} {d : Domain}
    (hx : executesOn w s req e = some link) (hd : req.cmd.sends = some d) (hm : d ∉ link.handshakes) :
    (dispatch w s req e).2.2.ok = false := by
  unfold executesOn at hx
  unfold dispatch
  cases hc : req.cmd with
  | navigate =>
    rw [hc] at hd
    cases hd
    simp only [hc] at hx ⊢
    unfold dispatchNavigate
    cases hsh : e.navigate.shape with
    | some err => rfl
    | none =>
      simp only [hsh, Option.isSome_none, Bool.false_eq_true, if_false] at hx ⊢
      rcases hr : s.ensureConnected w.disk none e.connect with ⟨s', err | _⟩
      · rfl
      · simp only [hr] at hx ⊢
        simp only [hx, hm, if_false]
  | vendor v =>
    rw [hc] at hd
    simp only [hc] at hx ⊢
    split at hx
    · cases hx
    rename_i hw
    unfold dispatchCommand
    rcases hr : s.ensureConnected w.disk (some req.cmd) e.connect with ⟨s', err | _⟩
    · rfl
    · rw [hc] at hr
      simp only [hr] at hx
      simp only [hc, hw, Bool.false_eq_true, if_false, respond_ok]
      unfold execute
      have hs : v.sends = some d := hd
      dsimp only
      split
      · rfl
      split
      · rfl
      split
      · rfl
      · simp [hs, hx, hm]
  | _ => rw [hc] at hd; cases hd

end ElectricEel.Child
