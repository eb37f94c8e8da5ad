/-
  ElectricEel.Child.Hysteresis — what a history of ticks makes `presenceStep` say
  (main.go `presenceStep`).

  A tick is one call with what it was given; near, consecNear and lastSeen go from one
  call to the next. A sign is a near sample or a live GATT. Times are readings of the
  monotonic clock, whose differences fit a Duration.

  Proved, from "not near" and for any ticks:
  - `verdicts_alternate`: Arrive and Depart take turns, StayNear stands only between an
    Arrive and the next Depart, None only outside.
  - `arrive_iff`: an Arrive is a tick with GATT up or the last of nearConfirm near
    samples in a row; none of those is a Depart (`confirmed_no_depart`).
  - `first_depart_iff`: the Depart behind an Arrive is the first tick more than farTimeout
    after the last sign.
  - `presence_hysteresis`: the three together.
-/
import ElectricEel.Child.Watcher

namespace ElectricEel.Child

/-! ## Ticks -/

/-- What one call is given beside the loop's own state. -/
structure Tick where
  now : Int
  seen : Bool
  rssi : Int
  gattUp : Bool
  deriving DecidableEq, Repr

/-- What one call hands to the next. -/
structure Hold where
  near : Bool := false
  consecNear : Int := 0
  lastSeen : Option Int := none
  deriving DecidableEq, Repr

def Tick.strong (cfg : PresenceConfig) (t : Tick) : Bool := t.seen && cfg.nearRSSI ≤ t.rssi

def Tick.sign (cfg : PresenceConfig) (t : Tick) : Bool := t.strong cfg || t.gattUp

def Hold.tick (cfg : PresenceConfig) (s : Hold) (t : Tick) : Hold × PresenceAction :=
  let out := presenceStep cfg s.near s.consecNear s.lastSeen t.now t.seen t.rssi t.gattUp
  (⟨out.1, out.2.1, out.2.2.1⟩, out.2.2.2)

/-- The state behind a history. -/
def Hold.after (cfg : PresenceConfig) (s : Hold) (ticks : List Tick) : Hold := ticks.foldl (fun s t => (s.tick cfg t).1) s

/-- The action of every tick. -/
def verdicts (cfg : PresenceConfig) : Hold → List Tick → List PresenceAction
  | _, [] => []
  | s, t :: ts => (s.tick cfg t).2 :: verdicts cfg (s.tick cfg t).1 ts

@[simp] theorem Hold.after_nil (cfg : PresenceConfig) (s : Hold) : s.after cfg [] = s := rfl

@[simp] theorem Hold.after_append (cfg : PresenceConfig) (s : Hold) (ts : List Tick) (t : Tick) :
    s.after cfg (ts ++ [t]) = ((s.after cfg ts).tick cfg t).1 := by
  simp [Hold.after]

theorem verdicts_get (cfg : PresenceConfig) (s : Hold) (ts : List Tick) (n : Nat) :
    (verdicts cfg s ts)[n]? = ts[n]?.map (fun t => ((s.after cfg (ts.take n)).tick cfg t).2) := by
  induction ts generalizing s n with
  | nil => simp [verdicts]
  | cons t ts ih =>
    cases n with
    | zero => simp [verdicts]
    | succ n => simpa [verdicts, Hold.after] using ih (s.tick cfg t).1 n

theorem take_succ_of_get {α : Type} {xs : List α} {n : Nat} {x : α} (h : xs[n]? = some x) : xs.take (n + 1) = xs.take n ++ [x] := by
  rw [List.take_add_one, h]; rfl

/-- The state behind one more tick. -/
theorem after_succ (cfg : PresenceConfig) (s : Hold) {ts : List Tick} {n : Nat} {t : Tick} (h : ts[n]? = some t) :
    s.after cfg (ts.take (n + 1)) = ((s.after cfg (ts.take n)).tick cfg t).1 := by
  rw [take_succ_of_get h, Hold.after_append]

/-! ## What one tick can do -/

theorem tick_lastSeen (cfg : PresenceConfig) (s : Hold) (t : Tick) :
    (s.tick cfg t).1.lastSeen = if t.sign cfg then some t.now else s.lastSeen := by
  unfold Hold.tick presenceStep Tick.sign Tick.strong
  cases hs : (t.seen && decide (cfg.nearRSSI ≤ t.rssi)) <;> cases hg : t.gattUp <;> simp <;> repeat' split
  all_goals rfl

/-- The near samples in a row, with this tick. -/
def Hold.counted (cfg : PresenceConfig) (s : Hold) (t : Tick) : Int := if t.strong cfg then s.consecNear + 1 else 0

/-- The four verdicts, with the state each leaves. -/
theorem tick_cases {cfg : PresenceConfig} (hc : 1 ≤ cfg.nearConfirm) (s : Hold) (t : Tick) :
    (s.near = false ∧ (t.gattUp = true ∨ cfg.nearConfirm ≤ s.counted cfg t) ∧
      (s.tick cfg t).2 = .arrive ∧ (s.tick cfg t).1.near = true ∧ t.sign cfg = true) ∨
    (s.near = false ∧ ¬ (t.gattUp = true ∨ cfg.nearConfirm ≤ s.counted cfg t) ∧
      (s.tick cfg t).2 = .none ∧ (s.tick cfg t).1.near = false ∧ (s.tick cfg t).1.consecNear = s.counted cfg t) ∨
    (s.near = true ∧ expired cfg (s.tick cfg t).1.lastSeen t.now = true ∧
      (s.tick cfg t).2 = .depart ∧ (s.tick cfg t).1.near = false ∧ (s.tick cfg t).1.consecNear = 0) ∨
    (s.near = true ∧ expired cfg (s.tick cfg t).1.lastSeen t.now = false ∧
      (s.tick cfg t).2 = .stayNear ∧ (s.tick cfg t).1.near = true) := by
  rw [tick_lastSeen]
  unfold Hold.tick presenceStep Hold.counted Tick.sign
  have h0 : ¬ cfg.nearConfirm ≤ 0 := by omega
  have hs : (t.seen && decide (cfg.nearRSSI ≤ t.rssi)) = t.strong cfg := rfl
  rw [hs]
  cases hn : s.near with
  | false =>
    cases hst : t.strong cfg with
    | true =>
      by_cases hk : cfg.nearConfirm ≤ s.consecNear + 1
      · simp [hk]
      · cases hg : t.gattUp <;> simp [hk]
    | false => cases hg : t.gattUp <;> simp [h0]
  | true =>
    cases hst : t.strong cfg with
    | true => cases he : expired cfg (some t.now) t.now <;> simp [he]
    | false =>
      cases hg : t.gattUp with
      | true => cases he : expired cfg (some t.now) t.now <;> simp [he]
      | false => cases he : expired cfg s.lastSeen t.now <;> simp [he]

/-! ## The pattern of verdicts -/

/-- Which verdicts may follow, outside (`false`) or between an Arrive and its Depart. -/
inductive Alternating : Bool → List PresenceAction → Prop
  | nil (near : Bool) : Alternating near []
  | none {as : List PresenceAction} : Alternating false as → Alternating false (.none :: as)
  | arrive {as : List PresenceAction} : Alternating true as → Alternating false (.arrive :: as)
  | stayNear {as : List PresenceAction} : Alternating true as → Alternating true (.stayNear :: as)
  | depart {as : List PresenceAction} : Alternating false as → Alternating true (.depart :: as)

theorem verdicts_alternate {cfg : PresenceConfig} (hc : 1 ≤ cfg.nearConfirm) (s : Hold) (ts : List Tick) :
    Alternating s.near (verdicts cfg s ts) := by
  induction ts generalizing s with
  | nil => exact .nil _
  | cons t ts ih =>
    have h := ih (s.tick cfg t).1
    unfold verdicts
    rcases tick_cases hc s t with ⟨hn, -, ha, hn', -⟩ | ⟨hn, -, ha, hn', -⟩ | ⟨hn, -, ha, hn', -⟩ | ⟨hn, -, ha, hn'⟩ <;>
      rw [hn'] at h <;> rw [hn, ha]
    · exact .arrive h
    · exact .none h
    · exact .depart h
    · exact .stayNear h

/-! ## The state in terms of the history -/

/-- The near samples in a row at the end of a history. -/
def streak (cfg : PresenceConfig) (ts : List Tick) : Nat := (ts.reverse.takeWhile (·.strong cfg)).length

/-- The time of a history's last sign. -/
def lastSign (cfg : PresenceConfig) (ts : List Tick) : Option Int := (ts.reverse.find? (·.sign cfg)).map (·.now)

@[simp] theorem streak_nil (cfg : PresenceConfig) : streak cfg [] = 0 := rfl

theorem streak_append (cfg : PresenceConfig) (ts : List Tick) (t : Tick) :
    streak cfg (ts ++ [t]) = if t.strong cfg then streak cfg ts + 1 else 0 := by
  unfold streak
  cases h : t.strong cfg <;> simp [h]

theorem lastSign_append (cfg : PresenceConfig) (ts : List Tick) (t : Tick) :
    lastSign cfg (ts ++ [t]) = if t.sign cfg then some t.now else lastSign cfg ts := by
  unfold lastSign
  cases h : t.sign cfg <;> simp [h]

/-- A streak is a window of near samples. -/
theorem le_streak_iff (cfg : PresenceConfig) (ts : List Tick) (k : Nat) :
    k ≤ streak cfg ts ↔ k ≤ ts.length ∧ ∀ j, ts.length ≤ j + k → j < ts.length → ∃ t, ts[j]? = some t ∧ t.strong cfg = true := by
  induction ts using List.reverseRecOn generalizing k with
  | nil => simp
  | append_singleton ts t ih =>
    have hlast : (ts ++ [t])[ts.length]? = some t := by simp
    have hold : ∀ j, j < ts.length → (ts ++ [t])[j]? = ts[j]? := fun j hj => List.getElem?_append_left hj
    rw [streak_append, List.length_append, List.length_singleton]
    cases hst : t.strong cfg with
    | false =>
      constructor
      · intro hk
        have hk : k = 0 := by simpa using hk
        exact ⟨by omega, fun j h1 h2 => by omega⟩
      · intro hw
        obtain ⟨hk, hw⟩ := hw
        by_cases h0 : k = 0
        · simp [h0]
        · obtain ⟨t', ht', hs'⟩ := hw ts.length (by omega) (by omega)
          cases hlast.symm.trans ht'
          rw [hst] at hs'
          exact absurd hs' (by simp)
    | true =>
      have ih := ih (k - 1)
      constructor
      · intro hk
        have hk : k ≤ streak cfg ts + 1 := hk
        obtain ⟨hlen, hw⟩ := ih.1 (by omega)
        refine ⟨by omega, fun j h1 h2 => ?_⟩
        by_cases hj : j < ts.length
        · rw [hold j hj]
          exact hw j (by omega) hj
        · obtain rfl : j = ts.length := by omega
          exact ⟨t, hlast, hst⟩
      · intro hw
        obtain ⟨hk, hw⟩ := hw
        have : k - 1 ≤ streak cfg ts := by
          refine ih.2 ⟨by omega, fun j h1 h2 => ?_⟩
          rw [← hold j h2]
          exact hw j (by omega) (by omega)
        change k ≤ streak cfg ts + 1
        omega

theorem expired_now {cfg : PresenceConfig} (hf : 0 ≤ cfg.farTimeout) (t : Int) : expired cfg (some t) t = false := by
  simp [expired, hf]

/-- An expired tick is no sign. -/
theorem sign_false_of_expired {cfg : PresenceConfig} (hf : 0 ≤ cfg.farTimeout) {s : Hold} {t : Tick}
    (h : expired cfg (s.tick cfg t).1.lastSeen t.now = true) : t.sign cfg = false := by
  rw [tick_lastSeen] at h
  cases hs : t.sign cfg with
  | false => rfl
  | true =>
    rw [hs, if_pos rfl, expired_now hf] at h
    exact absurd h (by simp)

theorem strong_false_of_sign {cfg : PresenceConfig} {t : Tick} (h : t.sign cfg = false) : t.strong cfg = false :=
  (Bool.or_eq_false_iff.1 h).1

section

variable {cfg : PresenceConfig} (hc : 1 ≤ cfg.nearConfirm) (hf : 0 ≤ cfg.farTimeout) {s : Hold} (hn : s.near = false)
  (h0 : s.consecNear = 0)

include hc in
/-- While near, the history has a sign, and lastSeen is the last one's time. -/
theorem after_lastSeen (hn : s.near = false) (ts : List Tick) (h : (s.after cfg ts).near = true) :
    (lastSign cfg ts).isSome ∧ (s.after cfg ts).lastSeen = lastSign cfg ts := by
  induction ts using List.reverseRecOn with
  | nil => simp [hn] at h
  | append_singleton ts t ih =>
    rw [Hold.after_append] at h ⊢
    rw [lastSign_append, tick_lastSeen]
    by_cases hs : t.sign cfg = true
    · simp [hs]
    · rw [if_neg hs, if_neg hs]
      rcases tick_cases hc (s.after cfg ts) t with ⟨-, -, -, -, hs'⟩ | ⟨-, -, -, hn', -⟩ | ⟨-, -, -, hn', -⟩ | ⟨hold, -, -, -⟩
      · exact absurd hs' hs
      · simp [hn'] at h
      · simp [hn'] at h
      · exact ih hold

include hc hf h0 in
/-- While not near, consecNear is the streak. -/
theorem after_consecNear (ts : List Tick) (h : (s.after cfg ts).near = false) :
    (s.after cfg ts).consecNear = streak cfg ts := by
  induction ts using List.reverseRecOn with
  | nil => simpa using h0
  | append_singleton ts t ih =>
    rw [Hold.after_append] at h ⊢
    rw [streak_append]
    rcases tick_cases hc (s.after cfg ts) t with ⟨-, -, -, hn', -⟩ | ⟨hold, -, -, -, hk⟩ | ⟨-, he, -, -, hk⟩ | ⟨-, -, -, hn'⟩
    · simp [hn'] at h
    · rw [hk, Hold.counted, ih hold]
      split <;> simp
    · rw [hk, strong_false_of_sign (sign_false_of_expired hf he)]
      simp
    · simp [hn'] at h

/-! ## Arrive -/

/-- The last `k` ticks up to the `n`-th are near samples. -/
def Confirmed (cfg : PresenceConfig) (ts : List Tick) (k n : Nat) : Prop :=
  k ≤ n + 1 ∧ ∀ j, n + 1 ≤ j + k → j ≤ n → ∃ t, ts[j]? = some t ∧ t.strong cfg = true

theorem confirmed_iff {ts : List Tick} {n : Nat} {t : Tick} (ht : ts[n]? = some t) (k : Nat) :
    Confirmed cfg ts k n ↔ k ≤ streak cfg (ts.take (n + 1)) := by
  have hlen : n < ts.length := (List.getElem?_eq_some_iff.1 ht).1
  have hlen' : (ts.take (n + 1)).length = n + 1 := by
    rw [List.length_take]
    omega
  have hget : ∀ j, j < n + 1 → (ts.take (n + 1))[j]? = ts[j]? := fun j hj => List.getElem?_take_of_lt hj
  rw [le_streak_iff, hlen']
  constructor
  · intro h
    refine ⟨h.1, fun j h1 h2 => ?_⟩
    rw [hget j h2]
    exact h.2 j h1 (by omega)
  · intro h
    refine ⟨h.1, fun j h1 h2 => ?_⟩
    rw [← hget j (by omega)]
    exact h.2 j h1 (by omega)

include hc hf h0 in
/-- An Arrive, exactly. -/
theorem arrive_iff {ts : List Tick} {n : Nat} {t : Tick} (ht : ts[n]? = some t) :
    (verdicts cfg s ts)[n]? = some .arrive ↔
      (s.after cfg (ts.take n)).near = false ∧ (t.gattUp = true ∨ Confirmed cfg ts cfg.nearConfirm.toNat n) := by
  have hcount : (s.after cfg (ts.take n)).near = false →
      (Confirmed cfg ts cfg.nearConfirm.toNat n ↔ cfg.nearConfirm ≤ (s.after cfg (ts.take n)).counted cfg t) := by
    intro hn
    rw [confirmed_iff ht, take_succ_of_get ht, streak_append, Hold.counted, after_consecNear hc hf h0 _ hn]
    split <;> omega
  rw [verdicts_get, ht, Option.map_some, Option.some.injEq]
  rcases tick_cases hc (s.after cfg (ts.take n)) t with ⟨hn, hk, ha, -, -⟩ | ⟨hn, hk, ha, -, -⟩ | ⟨hn, -, ha, -, -⟩ | ⟨hn, -, ha, -⟩
  · rw [hcount hn]
    exact ⟨fun _ => ⟨hn, hk⟩, fun _ => ha⟩
  · rw [hcount hn, ha]
    exact ⟨fun h => by simp at h, fun h => absurd h.2 hk⟩
  · rw [ha, hn]
    simp
  · rw [ha, hn]
    simp

/-! ## Depart -/

/-- The `n`-th tick lies more than farTimeout after the last sign. -/
def Overdue (cfg : PresenceConfig) (ts : List Tick) (n : Nat) : Prop :=
  ∃ t u, ts[n]? = some t ∧ lastSign cfg (ts.take (n + 1)) = some u ∧ cfg.farTimeout < t.now - u

include hc hn in
theorem depart_iff {ts : List Tick} {n : Nat} {t : Tick} (ht : ts[n]? = some t) :
    (verdicts cfg s ts)[n]? = some .depart ↔ (s.after cfg (ts.take n)).near = true ∧ Overdue cfg ts n := by
  have hover : (s.after cfg (ts.take n)).near = true →
      (Overdue cfg ts n ↔ expired cfg ((s.after cfg (ts.take n)).tick cfg t).1.lastSeen t.now = true) := by
    intro h
    obtain ⟨hsome, hlast⟩ := after_lastSeen hc hn _ h
    unfold Overdue
    rw [tick_lastSeen, take_succ_of_get ht, lastSign_append, hlast]
    split
    · simp [ht, expired]
    · obtain ⟨u, hu⟩ := Option.isSome_iff_exists.1 hsome
      simp [ht, hu, expired]
  rw [verdicts_get, ht, Option.map_some, Option.some.injEq]
  rcases tick_cases hc (s.after cfg (ts.take n)) t with ⟨hn, -, ha, -, -⟩ | ⟨hn, -, ha, -, -⟩ | ⟨hn, he, ha, -, -⟩ | ⟨hn, he, ha, -⟩
  · rw [ha, hn]
    simp
  · rw [ha, hn]
    simp
  · rw [hover hn]
    exact ⟨fun _ => ⟨hn, he⟩, fun _ => ha⟩
  · rw [hover hn, ha, he]
    simp

include hc in
/-- Behind an Arrive the vehicle stays near until a Depart. -/
theorem near_until_depart {ts : List Tick} {a n : Nat} (ha : (verdicts cfg s ts)[a]? = some .arrive) (han : a < n)
    (hlen : n ≤ ts.length) (hno : ∀ j, a < j → j < n → (verdicts cfg s ts)[j]? ≠ some .depart) :
    (s.after cfg (ts.take n)).near = true := by
  induction n with
  | zero => omega
  | succ n ih =>
    obtain ⟨t, ht⟩ : ∃ t, ts[n]? = some t := ⟨ts[n], List.getElem?_eq_getElem hlen⟩
    rw [after_succ cfg s ht]
    have hv : (verdicts cfg s ts)[n]? = some ((s.after cfg (ts.take n)).tick cfg t).2 := by rw [verdicts_get, ht]; rfl
    by_cases hna : a = n
    · subst hna
      rw [ha] at hv
      rcases tick_cases hc (s.after cfg (ts.take a)) t with ⟨-, -, -, hn', -⟩ | ⟨-, -, h, -, -⟩ | ⟨-, -, h, -, -⟩ | ⟨-, -, -, hn'⟩
      · exact hn'
      · simp [h] at hv
      · simp [h] at hv
      · exact hn'
    · have hnear := ih (by omega) (by omega) (fun j h1 h2 => hno j h1 (by omega))
      rcases tick_cases hc (s.after cfg (ts.take n)) t with ⟨-, -, -, hn', -⟩ | ⟨hn, -, -, -, -⟩ | ⟨-, -, h, -, -⟩ | ⟨-, -, -, hn'⟩
      · exact hn'
      · simp [hn] at hnear
      · exact absurd (by rw [hv, h]) (hno n (by omega) (by omega))
      · exact hn'

include hc hn in
/-- The Depart behind an Arrive, exactly. -/
theorem first_depart_iff {ts : List Tick} {a n : Nat} (ha : (verdicts cfg s ts)[a]? = some .arrive) (han : a < n) :
    ((verdicts cfg s ts)[n]? = some .depart ∧ ∀ j, a < j → j < n → (verdicts cfg s ts)[j]? ≠ some .depart) ↔
      (Overdue cfg ts n ∧ ∀ j, a < j → j < n → ¬ Overdue cfg ts j) := by
  have hget : ∀ {n}, n < ts.length → ∃ t, ts[n]? = some t := fun h => ⟨ts[_], List.getElem?_eq_getElem h⟩
  constructor
  · intro h
    obtain ⟨hd, hno⟩ := h
    have hlen : n < ts.length := by
      rw [verdicts_get] at hd
      obtain ⟨t, ht, -⟩ := Option.map_eq_some_iff.1 hd
      exact (List.getElem?_eq_some_iff.1 ht).1
    obtain ⟨t, ht⟩ := hget hlen
    refine ⟨((depart_iff hc hn ht).1 hd).2, fun j h1 h2 hover => ?_⟩
    obtain ⟨u, hu⟩ := hget (Nat.lt_trans h2 hlen)
    have hnear := near_until_depart hc ha h1 (by omega) (fun i hi1 hi2 => hno i hi1 (by omega))
    exact hno j h1 h2 ((depart_iff hc hn hu).2 ⟨hnear, hover⟩)
  · intro h
    obtain ⟨hover, hno⟩ := h
    obtain ⟨t, _, ht, -, -⟩ := id hover
    have hlen : n < ts.length := (List.getElem?_eq_some_iff.1 ht).1
    have hnone : ∀ j, a < j → j < n → (verdicts cfg s ts)[j]? ≠ some .depart := by
      intro j h1 h2 hd
      obtain ⟨u, hu⟩ := hget (Nat.lt_trans h2 hlen)
      exact hno j h1 h2 ((depart_iff hc hn hu).1 hd).2
    exact ⟨(depart_iff hc hn ht).2 ⟨near_until_depart hc ha han (by omega) hnone, hover⟩, hnone⟩

include hc hf in
/-- No Depart falls on a near sample. -/
theorem confirmed_no_depart {ts : List Tick} {j : Nat} {t : Tick} (ht : ts[j]? = some t) (hs : t.strong cfg = true) :
    (verdicts cfg s ts)[j]? ≠ some .depart := by
  rw [verdicts_get, ht, Option.map_some]
  rcases tick_cases hc (s.after cfg (ts.take j)) t with ⟨-, -, h, -, -⟩ | ⟨-, -, h, -, -⟩ | ⟨-, he, -, -, -⟩ | ⟨-, -, h, -⟩
  · simp [h]
  · simp [h]
  · rw [strong_false_of_sign (sign_false_of_expired hf he)] at hs
    exact absurd hs (by simp)
  · simp [h]

end

/-! ## The loop's hysteresis -/

/-- From not near, for any ticks: the verdicts alternate; an Arrive has GATT up or ends
    nearConfirm near samples in a row with no Depart among them; and the Depart behind an
    Arrive is the first tick more than farTimeout after the last sign. -/
theorem presence_hysteresis (cfg : PresenceConfig) (hc : 1 ≤ cfg.nearConfirm) (hf : 0 ≤ cfg.farTimeout) (s : Hold)
    (hn : s.near = false) (h0 : s.consecNear = 0) (ts : List Tick) :
    Alternating false (verdicts cfg s ts) ∧
    (∀ (n : Nat) t, ts[n]? = some t → (verdicts cfg s ts)[n]? = some .arrive →
      t.gattUp = true ∨ (cfg.nearConfirm ≤ n + 1 ∧ ∀ j : Nat, (n : Int) + 1 - cfg.nearConfirm ≤ j → j ≤ n →
        (∃ u, ts[j]? = some u ∧ u.strong cfg = true) ∧ (verdicts cfg s ts)[j]? ≠ some .depart)) ∧
    ∀ a n : Nat, (verdicts cfg s ts)[a]? = some .arrive → a < n →
      (((verdicts cfg s ts)[n]? = some .depart ∧ ∀ j, a < j → j < n → (verdicts cfg s ts)[j]? ≠ some .depart) ↔
        (Overdue cfg ts n ∧ ∀ j, a < j → j < n → ¬ Overdue cfg ts j)) := by
  refine ⟨hn ▸ verdicts_alternate hc s ts, fun n t ht ha => ?_, fun a n ha han => first_depart_iff hc hn ha han⟩
  rcases ((arrive_iff hc hf h0 ht).1 ha).2 with hg | ⟨hk, hw⟩
  · exact .inl hg
  · refine .inr ⟨by omega, fun j h1 h2 => ?_⟩
    obtain ⟨u, hu, hs⟩ := hw j (by omega) h2
    exact ⟨⟨u, hu, hs⟩, confirmed_no_depart hc hf hu hs⟩

/-- Two near samples, the link, then silence: an Arrive on the second, a Depart after the
    timeout. -/
theorem presence_hysteresis_walk :
    verdicts ⟨-70, 2, 10⟩ {} [⟨0, true, -60, false⟩, ⟨1, true, -60, false⟩, ⟨2, false, 0, true⟩, ⟨12, false, 0, false⟩, ⟨13, false, 0, false⟩] =
      [.none, .arrive, .stayNear, .stayNear, .depart] ∧
    Alternating false (verdicts ⟨-70, 2, 10⟩ {} [⟨0, true, -60, false⟩, ⟨1, true, -60, false⟩, ⟨2, false, 0, true⟩,
      ⟨12, false, 0, false⟩, ⟨13, false, 0, false⟩]) :=
  ⟨by decide, (presence_hysteresis ⟨-70, 2, 10⟩ (by decide) (by decide) {} rfl rfl _).1⟩

end ElectricEel.Child
