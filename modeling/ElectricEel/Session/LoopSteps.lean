/-
  ElectricEel.Session.LoopSteps — what one step of a presence loop does.

  Most steps leave the session alone and move the loop on (`Onward`); the others pause or
  enter a watcher's discovery, say something, or are one of its sections (`LoopSection`).

  Proved: every step is one of these (`stepLoop_cases`).
-/
import ElectricEel.Session.Process

namespace ElectricEel.Session

open Lib Lib.Protowire Commands Wire Child

namespace Pc

/-- The loop stands where it goes by the link it has seen. -/
def reads : Pc → Bool
  | droppedLink | readConnected | disconnected => true
  | tell _ next => next.reads
  | _ => false

/-- In Wait. -/
def scans : Pc → Bool
  | wait | discovering | listening => true
  | tell _ next => next.scans
  | _ => false

/-- In ensureDiscovering, past the check of `paused`. -/
def discovers : Pc → Bool
  | discovering => true
  | tell _ next => next.discovers
  | _ => false

/-- On to a connect round, or in it. -/
def connects : Pc → Bool
  | connect _ => true
  | tell _ next => next.connects
  | _ => false

theorem scans_of_discovers {pc : Pc} (h : pc.discovers = true) : pc.scans = true := by
  induction pc with
  | discovering => rfl
  | tell kind next ih => exact ih h
  | _ => cases h

end Pc

namespace Proc

/-- Loop `g` stays in Wait as it is, or is not in it. -/
def Kept (l l' : Loop) : Prop :=
  l'.pc.scans = true → l.pc.scans = true ∧ l'.watcher = l.watcher ∧ (l'.pc.discovers = true → l.pc.discovers = true)

theorem Kept.refl (l : Loop) : Kept l l := fun h => ⟨h, rfl, id⟩

theorem Kept.of_not {l l' : Loop} (h : l'.pc.scans = false) : Kept l l' := by
  intro hs
  rw [h] at hs
  cases hs

/-- Where a loop goes on to: by a link it has seen, to Wait from Wait only, and not to a
    connect round; its clock is the one it had, or the session's outside a connect round. -/
structure Onward (now : Int) (l l' : Loop) : Prop where
  link : l'.link = l.link
  reads : l'.pc.reads = true → l.link.isSome = true ∨ l.pc.reads = true
  kept : Kept l l'
  connects : l'.pc.connects = l.pc.connects
  now : l'.now = l.now ∨ l'.pc.connects = false ∧ l'.now = now

section

variable {now : Int} {l l' : Loop}

theorem Onward.idle (hc : l.pc.connects = false) (hk : l'.link = l.link) (hn : l'.now = l.now ∨ l'.now = now)
    (hr : l'.pc.reads = false) (hs : l'.pc.scans = false) (hc' : l'.pc.connects = false) : Onward now l l' := by
  refine ⟨hk, fun h => ?_, .of_not hs, hc'.trans hc.symm, hn.imp_right fun h => ⟨hc', h⟩⟩
  rw [hr] at h
  cases h

/-- It goes by the link it has seen. -/
theorem Onward.read (hc : l.pc.connects = false) (hl : l.link.isSome = true ∨ l.pc.reads = true) (hk : l'.link = l.link)
    (hn : l'.now = l.now) (hs : l'.pc.scans = false) (hc' : l'.pc.connects = false) : Onward now l l' :=
  ⟨hk, fun _ => hl, .of_not hs, hc'.trans hc.symm, .inl hn⟩

/-- It stays in Wait. -/
theorem Onward.waits (hc : l.pc.connects = false) (hs : l.pc.scans = true) (hk : l'.link = l.link) (hw : l'.watcher = l.watcher)
    (hn : l'.now = l.now) (hr : l'.pc.reads = false) (hd : l'.pc.discovers = false) (hc' : l'.pc.connects = false) : Onward now l l' := by
  refine ⟨hk, fun h => ?_, fun _ => ⟨hs, hw, fun h => ?_⟩, hc'.trans hc.symm, .inl hn⟩
  · rw [hr] at h
    cases h
  · rw [hd] at h
    cases h

end

/-- A section of loop `g`. -/
inductive LoopSection (p : Proc) (g : Nat) (c : Choice) : Proc → Prop
  | watch : (p.loops g).pc = .watch ∨ (p.loops g).pc = .rewatch → LoopSection p g c { p with mu := some (.watch g) }
  | entered : (p.loops g).pc = .entered → LoopSection p g c ((p.onSession ({ · with watcher := some (p.loops g).watcher })).setLoop g
      { pc := .check, cfg := (p.loops g).cfg, watcher := (p.loops g).watcher })
  | snapshot : (p.loops g).pc = .snapshot → LoopSection p g c (p.snapshot g c)
  | dropSeen : (p.loops g).pc = .droppedLink ∨ (p.loops g).pc = .disconnected → LoopSection p g c (p.dropSeen g)
  | refresh : (p.loops g).pc = .refresh → LoopSection p g c (p.refresh g)
  | resume {l : Loop} : (p.loops g).pc = .resume → p.session.car = none → l.link = (p.loops g).link → l.now = p.session.now →
      l.pc = .wait → LoopSection p g c ((p.onSession (·.resumeWatcher (p.loops g).watcher)).setLoop g l)
  | hear : (p.loops g).pc = .heard → LoopSection p g c (p.hear g)
  /-- The gate is passed. -/
  | aim {target : Option Result} : (p.loops g).pc = .target → p.session.connectBackoffActive (p.loops g).now = false →
      LoopSection p g c (p.goto g (.connect target))
  | connect {target : Option Result} : (p.loops g).pc = .connect target → LoopSection p g c (p.ensureConnected (.loop g) target (c != .fail))
  | depart : (p.loops g).pc = .depart →
      LoopSection p g c ((p.onSession fun s => s.clearConnectBackoff.teardown).goto g (.tell .presenceFar .settle))
  | leave : (p.loops g).pc = .leave → LoopSection p g c ((p.onSession (·.forgetWatcher (p.loops g).watcher)).goto g .stopWatcher)
  | cleanup : (p.loops g).pc = .cleanup → p.session.presenceGeneration = g →
      LoopSection p g c ((p.onSession State.endPresence).goto g (.tell .presenceStopped .over))

/-- What a step of loop `g` does. -/
inductive LoopStep (p : Proc) (g : Nat) (c : Choice) : Proc → Prop
  | stay : LoopStep p g c p
  | on {l : Loop} {n : Nat} : Onward p.session.now (p.loops g) l → LoopStep p g c ({ p with results := n }.setLoop g l)
  | tell {l : Loop} {kind : EventKind} : Onward p.session.now (p.loops g) l → LoopStep p g c ((p.onSession (·.emit kind)).setLoop g l)
  | pause {l : Loop} : Onward p.session.now (p.loops g) l →
      LoopStep p g c ((p.onSession (·.pauseWatcher (p.loops g).watcher)).setLoop g l)
  | enter : (p.loops g).pc = .wait → (p.session.watchers (p.loops g).watcher).busy = false →
      (p.session.watchers (p.loops g).watcher).paused = false →
      LoopStep p g c ((p.onSession (·.setBusy (p.loops g).watcher true)).goto g .discovering)
  | exit {pc : Pc} : (p.loops g).pc = .discovering → pc = .listening ∨ pc = .waitFailed →
      LoopStep p g c ((p.onSession (·.setBusy (p.loops g).watcher false)).goto g pc)
  | discover {pc : Pc} : (p.loops g).pc = .discovering → pc = .listening ∨ pc = .waitFailed →
      LoopStep p g c (((p.onSession (·.setBusy (p.loops g).watcher false)).onSession (·.note .startDiscovery)).goto g pc)
  | locked {q : Proc} : (p.loops g).pc.locks = true → p.mu = none → LoopSection p g c q → LoopStep p g c q

theorem stepLoop_cases (p : Proc) (g : Nat) (c : Choice) : LoopStep p g c (p.stepLoop g c) := by
  have hgo : ∀ {pc : Pc}, (p.loops g).pc.connects = false → pc.reads = false → pc.scans = false → pc.connects = false →
      LoopStep p g c (p.goto g pc) := fun hc hr hs hc' => .on (.idle hc rfl (.inl rfl) hr hs hc')
  have hset : ∀ {l : Loop}, (p.loops g).pc.connects = false → l.link = (p.loops g).link →
      l.now = (p.loops g).now ∨ l.now = p.session.now → l.pc.reads = false → l.pc.scans = false → l.pc.connects = false →
      LoopStep p g c (p.setLoop g l) := fun hc hk hn hr hs hc' => .on (.idle hc hk hn hr hs hc')
  unfold stepLoop
  dsimp only
  split
  · exact .stay
  · next hlock =>
    have hsection : ∀ {q : Proc}, (p.loops g).pc.locks = true → LoopSection p g c q → LoopStep p g c q := by
      intro q hl hs
      refine .locked hl ?_ hs
      simpa [hl] using hlock
    split <;> rename_i hpc <;> have hc := congrArg Pc.connects hpc
    · exact .stay
    · exact .stay
    · -- bus
      split <;> exact hgo hc rfl rfl rfl
    · -- top
      split <;> exact hgo hc rfl rfl rfl
    · exact hsection (by rw [hpc]; rfl) (.watch (.inl hpc))
    · exact hsection (by rw [hpc]; rfl) (.watch (.inr hpc))
    · -- rest
      split
      · split
        · exact hgo hc rfl rfl rfl
        · exact .stay
      · exact hgo hc rfl rfl rfl
    · exact hsection (by rw [hpc]; rfl) (.entered hpc)
    · -- check
      split <;> exact hgo hc rfl rfl rfl
    · exact hsection (by rw [hpc]; rfl) (.snapshot hpc)
    · -- pausing
      split
      · exact .stay
      · exact .pause (.idle hc rfl (.inl rfl) rfl rfl rfl)
    · -- linkSelect
      split
      · split
        · exact hgo hc rfl rfl rfl
        · exact .stay
      · split
        · next hl => exact .on (.read hc (.inl hl) rfl rfl rfl rfl)
        · exact .stay
      · split
        · next hl => exact .on (.read hc (.inl hl) rfl rfl rfl rfl)
        · exact hset hc rfl (.inr rfl) rfl rfl rfl
    · exact hsection (by rw [hpc]; rfl) (.dropSeen (.inl hpc))
    · exact hsection (by rw [hpc]; rfl) (.dropSeen (.inr hpc))
    · -- readConnected
      split
      · exact hset hc rfl (.inr rfl) rfl rfl rfl
      · split
        · exact .on (.read hc (.inr (by rw [hpc]; rfl)) rfl rfl rfl rfl)
        · exact hset hc rfl (.inr rfl) rfl rfl rfl
      · exact hset hc rfl (.inr rfl) rfl rfl rfl
    · exact hsection (by rw [hpc]; rfl) (.refresh hpc)
    · -- resume
      split
      · exact hset hc rfl (.inl rfl) rfl rfl rfl
      · next hcar => exact hsection (by rw [hpc]; rfl) (.resume hpc (by simpa using hcar) rfl rfl rfl)
    · -- wait
      split
      · exact .stay
      · next hbusy =>
        split
        · exact .on (.waits hc (by rw [hpc]; rfl) rfl rfl rfl rfl rfl rfl)
        · next hpaused => exact .enter hpc (Bool.eq_false_iff.2 hbusy) (Bool.eq_false_iff.2 hpaused)
    · -- discovering
      split
      · exact .exit hpc (.inl rfl)
      · exact .discover hpc (.inl rfl)
      · exact .discover hpc (.inr rfl)
      · exact .exit hpc (.inr rfl)
    · -- listening
      split
      · exact .on (.idle hc rfl (.inl rfl) rfl rfl rfl)
      · exact hset hc rfl (.inl rfl) rfl rfl rfl
      · exact .on (.waits hc (by rw [hpc]; rfl) rfl rfl rfl rfl rfl rfl)
      · exact hgo hc rfl rfl rfl
      · exact .stay
    · -- waitFailed
      split <;> exact hset hc rfl (.inl rfl) rfl rfl rfl
    · exact .pause (.idle hc rfl (.inl rfl) rfl rfl rfl)
    · exact hsection (by rw [hpc]; rfl) (.hear hpc)
    · -- target
      split
      · exact hgo hc rfl rfl rfl
      · next hgate =>
        refine hsection (by rw [hpc]; rfl) (.aim hpc ?_)
        rw [Bool.or_eq_true, not_or] at hgate
        exact Bool.eq_false_iff.2 hgate.1
    · exact hsection (by rw [hpc]; rfl) (.connect hpc)
    · exact hsection (by rw [hpc]; rfl) (.depart hpc)
    · -- settle
      split
      · split <;> exact hgo hc rfl rfl rfl
      · split
        · split
          · exact hgo hc rfl rfl rfl
          · exact .stay
        · exact hgo hc rfl rfl rfl
    · exact hsection (by rw [hpc]; rfl) (.leave hpc)
    · exact .pause (.idle hc rfl (.inl rfl) rfl rfl rfl)
    · -- cleanup
      split
      · next hg => exact hsection (by rw [hpc]; rfl) (.cleanup hpc hg)
      · exact hgo hc rfl rfl rfl
    · -- tell: on with the link, in Wait, or to a connect round, as before
      refine .tell ⟨rfl, fun h => .inr ?_, fun h => ⟨?_, rfl, fun hd => ?_⟩, hc.symm, .inl rfl⟩
      · rw [hpc]
        exact h
      · rw [hpc]
        exact h
      · rw [hpc]
        exact hd

end Proc

end ElectricEel.Session
