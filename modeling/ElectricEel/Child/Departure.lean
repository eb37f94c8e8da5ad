/-
  ElectricEel.Child.Departure — is every presence_near followed by a presence_far
  (main.go `runPresenceWatcher`; docs/phone-key-events.md).

  The loop owes a presence_far while its last presence_near has none after it (`Owed`).
  It pays when it departs, and it departs only while `near` is set; but a connect round
  that fails clears `near` without a word, and a watcher that cannot be replaced takes
  `near` with it.

  Proved, for every sequence of turns, watcher starts and errands at non-decreasing times:
  - `tracked`: as long as no connect round and no replacement of the watcher fails while a
    presence_far is owed, `near` is set whenever one is owed, and lastSeen is never later
    than the vehicle was near.
  - `departure_announced`: then a turn without a link, more than farTimeout after the
    vehicle was last near, has announced the departure.
  - `departure_lost`: one failed reconnect loses it, and so does one failed replacement.
-/
import ElectricEel.Lib.Runs
import ElectricEel.Child.Watcher

namespace ElectricEel.Child

open Lib Commands Wire

/-! ## The machine -/

def watches (cfg : PresenceConfig) : Machine Watch Beat :=
  { init := fun s => ∃ sess t, s = .start sess t, step := Watch.step cfg }

/-- A presence_near without a presence_far after it. -/
def Owed (log : List EventKind) : Prop :=
  ∃ earlier later, log = earlier ++ .presenceNear :: later ∧ .presenceFar ∉ later

/-- Time does not go back. -/
def Watch.Timely (s : Watch) : Beat → Prop
  | .errand t _ => s.clock ≤ t
  | .watch t _ => s.clock ≤ t
  | .iterate i => s.clock ≤ i.now ∧ i.now ≤ i.heard

/-- The session as the connect round of turn `i` finds it. -/
def Watch.connecting (s : Watch) (i : Iteration) : Sess := i.meanwhile.foldl Sess.errand (s.snapshot i).sess

/-- The connect round of turn `i` fails on the session `sess`. -/
def ConnectError (sess : Sess) (i : Iteration) : Prop :=
  (sess.ensureConnected i.disk none i.connect).2 ≠ .ok () ∨ i.primeDrops = true

/-- Turn `i` hears the vehicle, tries to connect and fails. -/
def ConnectFails (cfg : PresenceConfig) (s : Watch) : Beat → Prop
  | .errand _ _ => False
  | .watch _ _ => False
  | .iterate i =>
    (s.snapshot i).sess.car = none ∧ (∃ b, i.scan = some b ∧ Watch.strong cfg b = true) ∧ i.backoff = false ∧
    ConnectError (s.connecting i) i

/-- Turn `i` is the fifth peek error in a row, and no new watcher can be started. -/
def RestartFails (s : Watch) : Beat → Prop
  | .errand _ _ => False
  | .watch _ _ => False
  | .iterate i => (s.snapshot i).sess.car = none ∧ i.scan = none ∧ 5 ≤ s.peekErrors + 1 ∧ i.restarted = false

/-- Turn `i` has no link and gets the scan result `b`. -/
def Watch.Scans (s : Watch) (i : Iteration) (b : Option Beacon) : Prop :=
  s.phase = .watching ∧ s.cancelled = false ∧ (s.snapshot i).sess.car = none ∧ i.scan = some b

instance (s : Watch) (b : Beat) : Decidable (s.Timely b) :=
  match b with
  | .errand t _ => inferInstanceAs (Decidable (s.clock ≤ t))
  | .watch t _ => inferInstanceAs (Decidable (s.clock ≤ t))
  | .iterate i => inferInstanceAs (Decidable (s.clock ≤ i.now ∧ i.now ≤ i.heard))

instance (s : Watch) (i : Iteration) (b : Option Beacon) : Decidable (s.Scans i b) :=
  inferInstanceAs (Decidable (s.phase = .watching ∧ s.cancelled = false ∧ (s.snapshot i).sess.car = none ∧ i.scan = some b))

/-! ## What is owed -/

theorem not_owed_nil : ¬ Owed [] := by
  rintro ⟨earlier, later, h, _⟩
  exact List.append_ne_nil_of_right_ne_nil earlier (List.cons_ne_nil _ later) h.symm

theorem owed_append {log : List EventKind} {k : EventKind} (hk : k ≠ .presenceNear) (h : Owed (log ++ [k])) : Owed log := by
  obtain ⟨earlier, later, heq, hfar⟩ := h
  rcases List.eq_nil_or_concat later with rfl | ⟨later', k', rfl⟩
  · have := congrArg List.getLast? heq
    simp [hk] at this
  · rw [List.concat_eq_append, ← List.cons_append, ← List.append_assoc] at heq
    obtain ⟨h1, h2⟩ := List.append_inj' heq rfl
    exact ⟨earlier, later', h1, fun hm => hfar (by simp [hm])⟩

theorem not_owed_far (log : List EventKind) : ¬ Owed (log ++ [.presenceFar]) := by
  rintro ⟨earlier, later, heq, hfar⟩
  rcases List.eq_nil_or_concat later with rfl | ⟨later', k', rfl⟩
  · have := congrArg List.getLast? heq
    simp at this
  · have := congrArg List.getLast? heq
    simp only [List.concat_eq_append, List.getLast?_append, Option.some_or, List.getLast?_cons] at this
    simp at this
    exact hfar (by simp [this])

theorem dropLink_owed {s : Watch} (h : Owed s.dropLink.emitted) : Owed s.emitted := by
  unfold Watch.dropLink Watch.emitDisconnected at h
  split at h
  · exact owed_append (by simp) h
  · exact h

theorem connectNow_near (s : Watch) (i : Iteration) : (s.connectNow i).1.near = s.near := by
  unfold Watch.connectNow
  dsimp only
  split
  · rfl
  · split
    · unfold Watch.dropLink Watch.emitDisconnected
      split <;> rfl
    · rfl

theorem connectNow_failed {s : Watch} {i : Iteration} (h : (s.connectNow i).2 = false) : ConnectError s.sess i := by
  unfold Watch.connectNow at h
  dsimp only at h
  split at h
  · rename_i heq
    exact .inl (by rw [heq]; simp)
  · split at h
    · exact .inr ‹_›
    · cases h

theorem connectNow_owed (s : Watch) (i : Iteration) (h : Owed (s.connectNow i).1.emitted) : Owed s.emitted := by
  unfold Watch.connectNow at h
  dsimp only at h
  split at h
  · exact h
  · split at h
    · exact dropLink_owed (s := { s with sess := (s.sess.ensureConnected i.disk none i.connect).1 }) h
    · exact h

/-! ## What a run keeps -/

structure Tracked (s : Watch) : Prop where
  owed : Owed s.emitted → s.near = true
  seen : ∀ t, s.lastSeen = some t → ∃ u, s.lastNear = some u ∧ t ≤ u
  past : ∀ u, s.lastNear = some u → u ≤ s.clock

namespace Tracked

variable {s : Watch}

theorem emit (hs : Tracked s) {k : EventKind} (hk : k ≠ .presenceNear) : Tracked (s.emit k) :=
  ⟨fun h => hs.owed (owed_append hk h), hs.seen, hs.past⟩

theorem dropLink (hs : Tracked s) : Tracked s.dropLink := by
  unfold Watch.dropLink Watch.emitDisconnected
  have h : Tracked { s with sess := s.sess.teardown } := ⟨hs.owed, hs.seen, hs.past⟩
  split
  · exact h.emit (by simp)
  · exact h

theorem note (hs : Tracked s) {t : Int} (ht : s.clock ≤ t) : Tracked (s.note t) := by
  unfold Watch.note
  refine ⟨hs.owed, fun t' h => ?_, fun u h => ?_⟩
  · obtain ⟨u, hu, hle⟩ := hs.seen t' h
    dsimp only
    split
    · exact ⟨t, rfl, Int.le_trans hle (Int.le_trans (hs.past u hu) ht)⟩
    · exact ⟨u, hu, hle⟩
  · dsimp only at h ⊢
    split at h
    · exact Option.some.inj h ▸ Int.le_refl _
    · exact Int.le_trans (hs.past u h) ht

theorem snapshot (hs : Tracked s) (i : Iteration) : Tracked (s.snapshot i) := by
  unfold Watch.snapshot
  split
  · exact hs.dropLink
  · exact hs

theorem gattTick (hs : Tracked s) (i : Iteration) (hn : s.lastNear = some i.now) : Tracked (s.gattTick i) := by
  have h0 : Tracked { s with near := true, lastSeen := some i.now } :=
    ⟨fun _ => rfl, fun t h => ⟨i.now, hn, (Option.some.inj h) ▸ Int.le_refl _⟩, hs.past⟩
  have hdrop := h0.dropLink
  unfold Watch.gattTick
  dsimp only
  split
  · exact ⟨hdrop.owed, hdrop.seen, hdrop.past⟩
  · split
    · exact h0
    · exact ⟨h0.owed, h0.seen, h0.past⟩
    · split
      · exact ⟨hdrop.owed, hdrop.seen, hdrop.past⟩
      · exact ⟨h0.owed, h0.seen, h0.past⟩

/-- Leaving runPresenceWatcher is harmless only when nothing is owed. -/
theorem leave (hs : Tracked s) (ho : ¬ Owed s.emitted) : Tracked s.leave :=
  ⟨fun h => (ho h).elim, fun _ => nofun, hs.past⟩

theorem peekError (hs : Tracked s) (i : Iteration) (hf : 5 ≤ s.peekErrors + 1 → i.restarted = false → ¬ Owed s.emitted) :
    Tracked (s.peekError i) := by
  have h0 : Tracked { s with peekErrors := s.peekErrors + 1 } := ⟨hs.owed, hs.seen, hs.past⟩
  unfold Watch.peekError
  dsimp only
  split
  · exact h0
  · rename_i hfive
    split
    · exact ⟨hs.owed, hs.seen, hs.past⟩
    · rename_i hfailed
      have hno : ¬ Owed s.emitted := hf (Nat.not_lt.1 hfive) (by simpa using hfailed)
      exact (h0.emit (k := .presenceError) (by simp)).leave fun h => hno (owed_append (by simp) h)

theorem connectNow (hs : Tracked s) (i : Iteration) : Tracked (s.connectNow i).1 := by
  have h0 : ∀ sess, Tracked { s with sess } := fun sess => ⟨hs.owed, hs.seen, hs.past⟩
  unfold Watch.connectNow
  dsimp only
  split
  · exact h0 _
  · split
    · exact (h0 _).dropLink
    · exact h0 _

/-- The connect round, `near` being set. A failure is harmless only when nothing is owed. -/
theorem approach (hs : Tracked s) (hn : s.near = true) (cfg : PresenceConfig) (i : Iteration) (live : Bool) (rssi : Int)
    (hf : live = true → cfg.nearRSSI ≤ rssi → i.backoff = false → ConnectError s.sess i → ¬ Owed s.emitted) :
    Tracked (s.approach cfg i live rssi) := by
  have hc := hs.connectNow i
  have hk := connectNow_near s i
  have he := connectNow_owed s i
  have hx := connectNow_failed (s := s) (i := i)
  unfold Watch.approach
  split
  · exact hs
  rename_i hgo
  simp only [Bool.or_eq_true, Bool.not_eq_true', Bool.and_eq_false_iff, decide_eq_false_iff_not, not_or, not_not,
    Bool.not_eq_false, Bool.not_eq_true] at hgo
  rcases hout : s.connectNow i with ⟨t, ok⟩
  rw [hout] at hc he hk hx
  cases ok with
  | true => exact ⟨fun _ => hk.trans hn, hc.seen, hc.past⟩
  | false =>
    have hno : ¬ Owed t.emitted := fun h => hf hgo.1.1 hgo.1.2 hgo.2 (hx rfl) (he h)
    exact ⟨fun h => (hno (owed_append (by simp) h)).elim, hc.seen, hc.past⟩

theorem judge (hs : Tracked s) (cfg : PresenceConfig) (i : Iteration) (b : Option Beacon) (hnow : Watch.strong cfg b = true →
    ∃ u, s.lastNear = some u ∧ i.now ≤ u)
    (hf : Watch.strong cfg b = true → i.backoff = false → ConnectError s.sess i → ¬ Owed s.emitted) :
    Tracked (s.judge cfg i b) := by
  obtain ⟨hls, hact⟩ := presenceStep_cases cfg s.near s.consecNear s.lastSeen i.now (Watch.live b) (Watch.rssi b)
  unfold Watch.judge
  dsimp only
  generalize presenceStep cfg s.near s.consecNear s.lastSeen i.now (Watch.live b) (Watch.rssi b) false = out at hls hact ⊢
  have hseen : ∀ t, out.2.2.1 = some t → ∃ u, s.lastNear = some u ∧ t ≤ u := by
    intro t ht
    rw [hls] at ht
    split at ht
    · rename_i hst
      exact Option.some.inj ht ▸ hnow hst
    · exact hs.seen t ht
  have hfail : Watch.live b = true → cfg.nearRSSI ≤ Watch.rssi b → i.backoff = false → ConnectError s.sess i → ¬ Owed s.emitted :=
    fun hl hr => hf (by simp [Watch.strong, hl, hr])
  rcases hact with ⟨ha, hn, h1⟩ | ⟨ha, hn, h1⟩ | ⟨ha, h1⟩ | ⟨ha, hn, h1⟩ <;> rw [ha]
  · exact approach (s := { s with near := out.1, consecNear := out.2.1, lastSeen := out.2.2.1 })
      ⟨fun _ => h1, hseen, hs.past⟩ h1 cfg i _ _ hfail
  · exact approach (s := { s with near := out.1, consecNear := out.2.1, lastSeen := out.2.2.1 })
      ⟨fun _ => h1, hseen, hs.past⟩ h1 cfg i _ _ hfail
  · exact ⟨fun h => (not_owed_far _ h).elim, hseen, hs.past⟩
  · exact ⟨fun h => absurd (hs.owed h) (by simp [hn]), hseen, hs.past⟩

theorem hear (hs : Tracked s) (cfg : PresenceConfig) (i : Iteration) (b : Option Beacon) (hclock : s.clock ≤ i.heard) :
    Tracked (s.hear cfg i b) := by
  unfold Watch.hear
  refine ⟨hs.owed, fun t ht => ?_, fun u hu => ?_⟩
  · obtain ⟨u, hu, hle⟩ := hs.seen t ht
    dsimp only
    split
    · exact ⟨i.heard, rfl, Int.le_trans hle (Int.le_trans (hs.past u hu) hclock)⟩
    · exact ⟨u, hu, hle⟩
  · dsimp only at hu ⊢
    split at hu
    · exact Option.some.inj hu ▸ Int.le_refl _
    · exact Int.le_trans (hs.past u hu) hclock

theorem scanTick (hs : Tracked s) (cfg : PresenceConfig) (i : Iteration) (hclock : s.clock ≤ i.heard) (htime : i.now ≤ i.heard)
    (hf : ∀ b, i.scan = some b → Watch.strong cfg b = true → i.backoff = false →
      ConnectError (i.meanwhile.foldl Sess.errand s.sess) i → ¬ Owed s.emitted)
    (hr : i.scan = none → 5 ≤ s.peekErrors + 1 → i.restarted = false → ¬ Owed s.emitted) : Tracked (s.scanTick cfg i) := by
  have h0 : Tracked (s.scanning i) := ⟨hs.owed, hs.seen, hs.past⟩
  unfold Watch.scanTick
  split
  · rename_i hscan
    exact h0.peekError i (hr hscan)
  · rename_i b hb
    exact (h0.hear cfg i b hclock).judge cfg i b (fun hst => ⟨i.heard, if_pos hst, htime⟩) (hf b hb)

end Tracked

/-! ## The clock -/

theorem dropLink_clock (s : Watch) : s.dropLink.clock = s.clock := by
  unfold Watch.dropLink Watch.emitDisconnected
  split <;> rfl

theorem gattTick_clock (s : Watch) (i : Iteration) : (s.gattTick i).clock = s.clock := by
  unfold Watch.gattTick
  dsimp only
  split
  · exact dropLink_clock _
  · split
    · rfl
    · rfl
    · split
      · exact dropLink_clock _
      · rfl

theorem snapshot_clock (s : Watch) (i : Iteration) : (s.snapshot i).clock = s.clock := by
  unfold Watch.snapshot
  split
  · exact dropLink_clock s
  · rfl

theorem connectNow_clock (s : Watch) (i : Iteration) : (s.connectNow i).1.clock = s.clock := by
  unfold Watch.connectNow
  dsimp only
  split
  · rfl
  · split
    · exact dropLink_clock _
    · rfl

theorem approach_clock (cfg : PresenceConfig) (s : Watch) (i : Iteration) (live : Bool) (rssi : Int) :
    (s.approach cfg i live rssi).clock = s.clock := by
  have hc := connectNow_clock s i
  unfold Watch.approach
  split
  · rfl
  · split
    · rename_i heq
      rwa [heq] at hc
    · rename_i heq
      rwa [heq] at hc

theorem judge_clock (cfg : PresenceConfig) (s : Watch) (i : Iteration) (b : Option Beacon) :
    (s.judge cfg i b).clock = s.clock := by
  unfold Watch.judge
  dsimp only
  split
  · exact approach_clock ..
  · exact approach_clock ..
  · rfl
  · rfl

theorem scanTick_clock (cfg : PresenceConfig) (s : Watch) (i : Iteration) (h : s.clock ≤ i.heard) :
    (s.scanTick cfg i).clock ≤ i.heard := by
  unfold Watch.scanTick
  split
  · unfold Watch.peekError
    dsimp only
    split
    · exact h
    · split <;> exact h
  · rw [judge_clock]
    exact Int.le_refl _

/-! ## Every turn -/

/-- A turn or errand that keeps `Tracked`: on time, and not losing a presence_far owed. -/
def Watch.Keeps (cfg : PresenceConfig) (s : Watch) (b : Beat) : Prop :=
  s.Timely b ∧ (Owed s.emitted → ¬ ConnectFails cfg s b ∧ ¬ RestartFails s b)

theorem snapshot_peekErrors (s : Watch) (i : Iteration) : (s.snapshot i).peekErrors = s.peekErrors := by
  unfold Watch.snapshot Watch.dropLink Watch.emitDisconnected
  split
  · split <;> rfl
  · rfl

theorem snapshot_owed {s : Watch} {i : Iteration} (h : Owed (s.snapshot i).emitted) : Owed s.emitted := by
  unfold Watch.snapshot at h
  split at h
  · exact dropLink_owed h
  · exact h

theorem Tracked.iterate {s : Watch} (hs : Tracked s) {cfg : PresenceConfig} {i : Iteration} (hk : s.Keeps cfg (.iterate i)) :
    Tracked (s.iterate cfg i) := by
  obtain ⟨⟨h1, h2⟩, hf⟩ := hk
  have hsnap := (hs.snapshot i).note (t := i.now) (by rw [snapshot_clock]; exact h1)
  unfold Watch.iterate
  split
  · exact hs
  split
  · exact ⟨hs.owed, hs.seen, hs.past⟩
  dsimp only
  split
  · rename_i hcar
    refine (hsnap.gattTick i (if_pos hcar)).note ?_
    rw [gattTick_clock]
    exact h2
  · rename_i hcar
    have hnone : (s.snapshot i).sess.car = none := by simpa [Watch.note] using hcar
    refine (hsnap.scanTick cfg i h2 h2 (fun b hb hst hbo herr ho => ?_) fun hscan hfive hfailed ho => ?_).note
      (scanTick_clock cfg _ i h2)
    · exact (hf (snapshot_owed ho)).1 ⟨hnone, ⟨b, hb, hst⟩, hbo, herr⟩
    · have herrors : (s.snapshot i).peekErrors = s.peekErrors := snapshot_peekErrors s i
      exact (hf (snapshot_owed ho)).2 ⟨hnone, hscan, herrors ▸ hfive, hfailed⟩

theorem Tracked.watch {s : Watch} (hs : Tracked s) {t : Int} (ht : s.clock ≤ t) (started : Bool) : Tracked (s.watch t started) := by
  unfold Watch.watch
  split
  · exact hs
  split
  · exact ⟨hs.owed, hs.seen, hs.past⟩
  split
  · exact Tracked.note (s := { s with phase := .watching }) ⟨hs.owed, hs.seen, hs.past⟩ ht
  · exact (hs.emit (by simp)).note ht

theorem Tracked.step {s : Watch} (hs : Tracked s) {cfg : PresenceConfig} {b : Beat} (hk : s.Keeps cfg b) :
    Tracked (s.step cfg b) := by
  cases b with
  | errand t a => exact Tracked.note (s := { s with sess := s.sess.errand a }) ⟨hs.owed, hs.seen, hs.past⟩ hk.1
  | watch t started => exact hs.watch hk.1 started
  | iterate i => exact hs.iterate hk

theorem tracked {cfg : PresenceConfig} {s : Watch} (h : (watches cfg).Reach (Watch.Keeps cfg) s) : Tracked s := by
  refine h.inv (fun s ⟨sess, t, h⟩ => ?_) fun _ _ hs hk => hs.step hk
  subst h
  exact ⟨fun h => (not_owed_nil h).elim, fun _ => nofun, fun _ => nofun⟩

/-! ## What a turn emits -/

theorem dropLink_emitted (s : Watch) : s.emitted <+: s.dropLink.emitted := by
  unfold Watch.dropLink Watch.emitDisconnected
  split
  · exact List.prefix_append _ _
  · exact List.prefix_rfl

theorem snapshot_emitted (s : Watch) (i : Iteration) : s.emitted <+: (s.snapshot i).emitted := by
  unfold Watch.snapshot
  split
  · exact dropLink_emitted s
  · exact List.prefix_rfl

theorem connectNow_emitted (s : Watch) (i : Iteration) : s.emitted <+: (s.connectNow i).1.emitted := by
  unfold Watch.connectNow
  dsimp only
  split
  · exact List.prefix_rfl
  · split
    · exact dropLink_emitted { s with sess := (s.sess.ensureConnected i.disk none i.connect).1 }
    · exact List.prefix_rfl

theorem approach_emitted (cfg : PresenceConfig) (s : Watch) (i : Iteration) (live : Bool) (rssi : Int) :
    s.emitted <+: (s.approach cfg i live rssi).emitted := by
  have hc := connectNow_emitted s i
  unfold Watch.approach
  split
  · exact List.prefix_rfl
  · split
    · rename_i heq
      rw [heq] at hc
      exact hc.trans (List.prefix_append _ _)
    · rename_i heq
      rw [heq] at hc
      exact hc.trans (List.prefix_append _ _)

theorem judge_emitted (cfg : PresenceConfig) (s : Watch) (i : Iteration) (b : Option Beacon) :
    s.emitted <+: (s.judge cfg i b).emitted := by
  unfold Watch.judge
  dsimp only
  generalize presenceStep cfg s.near s.consecNear s.lastSeen i.now (Watch.live b) (Watch.rssi b) false = out
  split
  · exact approach_emitted cfg { s with near := out.1, consecNear := out.2.1, lastSeen := out.2.2.1 } i _ _
  · exact approach_emitted cfg { s with near := out.1, consecNear := out.2.1, lastSeen := out.2.2.1 } i _ _
  · exact List.prefix_append _ _
  · exact List.prefix_rfl

theorem snapshot_near (s : Watch) (i : Iteration) : (s.snapshot i).near = s.near := by
  unfold Watch.snapshot Watch.dropLink Watch.emitDisconnected
  split
  · split <;> rfl
  · rfl

theorem connectNow_lastSeen (s : Watch) (i : Iteration) : (s.connectNow i).1.lastSeen = s.lastSeen := by
  unfold Watch.connectNow
  dsimp only
  split
  · rfl
  · split
    · unfold Watch.dropLink Watch.emitDisconnected
      split <;> rfl
    · rfl

theorem approach_lastSeen (cfg : PresenceConfig) (s : Watch) (i : Iteration) (live : Bool) (rssi : Int) :
    (s.approach cfg i live rssi).lastSeen = s.lastSeen := by
  have hc := connectNow_lastSeen s i
  unfold Watch.approach
  split
  · rfl
  · split
    · rename_i heq
      rwa [heq] at hc
    · rename_i heq
      rwa [heq] at hc

theorem judge_lastSeen (cfg : PresenceConfig) (s : Watch) (i : Iteration) (b : Option Beacon) :
    (s.judge cfg i b).lastSeen =
      (presenceStep cfg s.near s.consecNear s.lastSeen i.now (Watch.live b) (Watch.rssi b) false).2.2.1 := by
  unfold Watch.judge
  dsimp only
  split
  · exact approach_lastSeen ..
  · exact approach_lastSeen ..
  · rfl
  · rfl

/-- Near, and lastSeen expired: the turn departs. -/
theorem judge_depart {cfg : PresenceConfig} {s : Watch} {i : Iteration} {b : Option Beacon} (hn : s.near = true)
    (hx : expired cfg (s.judge cfg i b).lastSeen i.now = true) : (s.judge cfg i b).emitted = s.emitted ++ [.presenceFar] := by
  rw [judge_lastSeen, hn] at hx
  have ha := presenceStep_depart hx
  unfold Watch.judge
  dsimp only
  rw [hn, ha]
  rfl

theorem iterate_scan {cfg : PresenceConfig} {s : Watch} {i : Iteration} {b : Option Beacon} (h : s.Scans i b) :
    s.iterate cfg i = (((((s.snapshot i).note i.now).scanning i).hear cfg i b).judge cfg i b).note i.heard := by
  obtain ⟨h1, h2, h3, h4⟩ := h
  have h5 : ((s.snapshot i).note i.now).sess.car.isSome = false := by
    show (s.snapshot i).sess.car.isSome = false
    rw [h3]
    rfl
  unfold Watch.iterate
  simp only [h1, h2, h5, ne_eq, not_true_eq_false, Bool.false_eq_true, if_false]
  unfold Watch.scanTick
  simp only [h4]

/-! ## Results -/

/-- Departure is announced, as long as no reconnect fails while it is owed. -/
theorem departure_announced {cfg : PresenceConfig} {s : Watch} (h : (watches cfg).Reach (Watch.Keeps cfg) s) {i : Iteration}
    (hk : s.Keeps cfg (.iterate i)) {b : Option Beacon} (hr : s.Scans i b)
    (hlate : ∀ u, (s.iterate cfg i).lastNear = some u → cfg.farTimeout < i.now - u) {earlier later : List EventKind}
    (hn : s.emitted = earlier ++ .presenceNear :: later) :
    ∃ later', (s.iterate cfg i).emitted = earlier ++ .presenceNear :: later' ∧ .presenceFar ∈ later' := by
  have hpost := (tracked h).iterate hk
  have hsnap := snapshot_emitted s i
  rw [iterate_scan hr] at hlate hpost ⊢
  by_cases hfar : .presenceFar ∈ later
  · have hpre : s.emitted <+: (((((s.snapshot i).note i.now).scanning i).hear cfg i b).judge cfg i b).emitted :=
      hsnap.trans (judge_emitted cfg (((((s.snapshot i).note i.now).scanning i).hear cfg i b)) i b)
    obtain ⟨more, hm⟩ := hpre
    refine ⟨later ++ more, ?_, List.mem_append_left _ hfar⟩
    show (Watch.judge ..).emitted = _
    rw [← hm, hn, List.append_assoc, List.cons_append]
  · have hnear : (s.snapshot i).near = true := by
      rw [snapshot_near]
      exact (tracked h).owed ⟨earlier, later, hn, hfar⟩
    have hx : expired cfg (((((s.snapshot i).note i.now).scanning i).hear cfg i b).judge cfg i b).lastSeen i.now = true := by
      unfold expired
      split
      · rfl
      · rename_i t ht
        -- lastSeen is never after the vehicle was near
        obtain ⟨u, hu, hle⟩ := hpost.seen t ht
        have := hlate u hu
        simp only [decide_eq_true_eq]
        omega
    obtain ⟨more, hm⟩ := hsnap
    refine ⟨later ++ more ++ [.presenceFar], ?_, by simp⟩
    show (Watch.judge ..).emitted = _
    rw [judge_depart (s := (((s.snapshot i).note i.now).scanning i).hear cfg i b) hnear hx]
    show (s.snapshot i).emitted ++ _ = _
    rw [← hm, hn]
    simp

/-! ## A lost departure -/

def defaultPresenceConfig : PresenceConfig := { nearRSSI := -90, nearConfirm := 1, farTimeout := 15000 }

def keyDisk : Disk := ⟨none, some (.key 7), some (.pem 7)⟩

def walking : Watch :=
  .start { vin := "5YJ3E1EA0PF000000", bleBackend := .bluez, car := none, presence := true, presenceGeneration := 1 } 0

/-- The vehicle is heard and connects. -/
def arrival : Iteration := { now := 1000, heard := 1500, disk := keyDisk, scan := some (some ⟨some (-70)⟩) }

/-- The link drops, the vehicle is heard once more and the reconnect fails. -/
def reconnect : Iteration :=
  { now := 4000, heard := 4500, disk := keyDisk, dropped := true, scan := some (some ⟨some (-88)⟩),
    connect := { transport := some "le-connection-abort-by-local" } }

/-- Out of reach, `now` being well past the timeout. -/
def silence (now : Int) : Iteration := { now, heard := now + 2000, disk := keyDisk, dropped := true }

theorem silence_late {s : Watch} {t : Int} (h : s.lastNear = some t) (ht : t < 45000) (u : Int) (hu : s.lastNear = some u) :
    defaultPresenceConfig.farTimeout < (silence 60000).now - u := by
  obtain rfl := Option.some.inj (h.symm.trans hu)
  show (15000 : Int) < 60000 - t
  omega

/-- The first watcher starts. -/
def scanning : Watch := walking.step defaultPresenceConfig (.watch 0 true)

/-- A peek error; the watcher cannot be replaced if it is the fifth. -/
def peekFailure (now : Int) : Iteration := { now, heard := now, disk := keyDisk, dropped := true, scan := none, restarted := false }

/-- Without the failed reconnect the departure is announced. -/
theorem silence_announced :
    (scanning.step defaultPresenceConfig (.iterate arrival)).emitted = [] ++ .presenceNear :: [] ∧
    ∃ later', ((scanning.step defaultPresenceConfig (.iterate arrival)).iterate defaultPresenceConfig (silence 60000)).emitted =
      [] ++ .presenceNear :: later' ∧ .presenceFar ∈ later' := by
  have hwalking : (watches defaultPresenceConfig).Reach (Watch.Keeps defaultPresenceConfig) walking := .init ⟨_, _, rfl⟩
  have hstart : (watches defaultPresenceConfig).Reach (Watch.Keeps defaultPresenceConfig) scanning :=
    hwalking.step (Beat.watch 0 true) ⟨by decide, fun h => (not_owed_nil h).elim⟩
  have hkeep : scanning.Keeps defaultPresenceConfig (.iterate arrival) := ⟨by decide, fun h => (not_owed_nil h).elim⟩
  have hlost : ∀ s : Watch, ¬ ConnectFails defaultPresenceConfig s (.iterate (silence 60000)) := by
    rintro s ⟨_, ⟨b, hb, hst⟩, _⟩
    cases hb
    cases hst
  have hkept : ∀ s : Watch, ¬ RestartFails s (.iterate (silence 60000)) := fun _ h => nomatch h.2.1
  exact ⟨by decide, departure_announced (s := scanning.step defaultPresenceConfig (.iterate arrival))
    (hstart.step (.iterate arrival) hkeep) (i := silence 60000)
    ⟨by decide, fun _ => ⟨hlost _, hkept _⟩⟩ (b := none) (by decide) (silence_late (t := 1500) (by decide) (by decide))
    (show _ = _ ++ EventKind.presenceNear :: ([] : List EventKind) from by decide)⟩

/-- Whatever turn without a link comes next, once it is late enough. -/
def Watch.Announces (cfg : PresenceConfig) (s : Watch) : Prop :=
  ∀ (i : Iteration) (b : Option Beacon), s.Timely (.iterate i) → s.Scans i b →
    (∀ u, (s.iterate cfg i).lastNear = some u → cfg.farTimeout < i.now - u) →
    ∀ earlier later, s.emitted = earlier ++ .presenceNear :: later →
      ∃ later', (s.iterate cfg i).emitted = earlier ++ .presenceNear :: later' ∧ .presenceFar ∈ later'

theorem not_announces {s : Watch} (t : Int) (later : List EventKind) (htimely : s.Timely (.iterate (silence 60000)))
    (hscans : s.Scans (silence 60000) none) (hlast : (s.iterate defaultPresenceConfig (silence 60000)).lastNear = some t)
    (ht : t < 45000) (hbefore : s.emitted = .presenceNear :: later)
    (hafter : (s.iterate defaultPresenceConfig (silence 60000)).emitted = .presenceNear :: later) (hfar : .presenceFar ∉ later) :
    ¬ s.Announces defaultPresenceConfig := by
  intro h
  obtain ⟨later', h1, h2⟩ := h (silence 60000) none htimely hscans (silence_late hlast ht) [] later hbefore
  rw [hafter] at h1
  injection h1 with _ h1
  exact hfar (h1 ▸ h2)

/-- Five peek errors, and a watcher that cannot be replaced at once. -/
def forgetting : List Beat :=
  [.watch 0 true, .iterate arrival, .iterate (peekFailure 4000), .iterate (peekFailure 5000), .iterate (peekFailure 6000),
    .iterate (peekFailure 7000), .iterate (peekFailure 8000), .watch 9000 true]

/-- A failed reconnect and a failed replacement of the watcher lose the departure. -/
theorem departure_lost :
    (¬ ∀ (cfg : PresenceConfig) (s : Watch), (watches cfg).Reach Watch.Timely s → s.Announces cfg) ∧
      (watches defaultPresenceConfig).Allowed Watch.Timely walking forgetting ∧
        ¬ ((watches defaultPresenceConfig).run walking forgetting).Announces defaultPresenceConfig := by
  refine ⟨fun h => ?_, ⟨by decide, by decide, by decide, by decide, by decide, by decide, by decide, by decide, trivial⟩, ?_⟩
  · have hreach : (watches defaultPresenceConfig).Reach Watch.Timely
        ((watches defaultPresenceConfig).run walking [.watch 0 true, .iterate arrival, .iterate reconnect]) :=
      (Machine.Reach.init (M := watches defaultPresenceConfig) ⟨_, _, rfl⟩).run _ ⟨by decide, by decide, by decide, trivial⟩
    exact not_announces 4500 [.presenceDisconnected, .presenceError] (by decide) (by decide) (by decide) (by decide)
      (by decide) (by decide) (by decide) (h defaultPresenceConfig _ hreach)
  · exact not_announces 1500 [.presenceDisconnected, .presenceError] (by decide) (by decide) (by decide) (by decide)
      (by decide) (by decide) (by decide)

end ElectricEel.Child
