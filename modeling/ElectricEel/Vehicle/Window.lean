/-
  ElectricEel.Vehicle.Window — the anti-replay window of the vehicle protocol
  (vehicle-command/internal/authentication/window.go).

  Proved: `updateSlidingWindow` is `Lib.slide` on the counters' values
  (`updateSlidingWindow_slide`), so it keeps the record of what it accepted; over any
  sequence of counters a `SlidingWindow` accepts exactly those that are newer than all
  accepted ones or are among the 32 before the newest and not accepted yet, and none twice
  (`window_accepts`).
-/
import ElectricEel.Lib.ReplayWindow

namespace ElectricEel.Vehicle

open Lib

def windowSize : Nat := 32

/-- The window is a uint64, whose shifts by 64 and more give 0. -/
def updateSlidingWindow (counter : UInt32) (window : BitVec 64) (newCounter : UInt32) : UInt32 × BitVec 64 × Bool :=
  if counter = newCounter then (counter, window, false)
  else if newCounter < counter then
    let age := (counter - newCounter).toNat
    if windowSize < age then (counter, window, false)
    else if window >>> (age - 1) &&& 1#64 = 1#64 then (counter, window, false)
    else (counter, window ||| (1#64) <<< (age - 1), true)
  else
    let shiftCount := (newCounter - counter).toNat
    (newCounter, window <<< shiftCount ||| (1#64) <<< (shiftCount - 1), true)

structure SlidingWindow where
  history : BitVec 64
  counter : UInt32
  used : Bool
  deriving DecidableEq, Repr

/-- Go's zero value. -/
def SlidingWindow.new : SlidingWindow := { history := 0#64, counter := 0, used := false }

def SlidingWindow.update (w : SlidingWindow) (counter : UInt32) : SlidingWindow × Bool :=
  if w.used then
    let (counter, history, ok) := updateSlidingWindow w.counter w.history counter
    ({ w with counter, history }, ok)
  else ({ w with used := true, counter }, true)

/-! ## One update -/

theorem bit_ne_one (window : BitVec 64) (k : Nat) : window >>> k &&& 1#64 = 1#64 ↔ ¬window.getLsbD k = false := by
  rw [Bool.not_eq_false]
  constructor
  · intro h
    have h0 := congrArg (·.getLsbD 0) h
    simpa using h0
  · intro h
    apply BitVec.eq_of_getLsbD_eq
    intro i hi
    rw [BitVec.getLsbD_and, BitVec.getLsbD_one, BitVec.getLsbD_ushiftRight]
    by_cases h0 : i = 0
    · simp [h0, h]
    · simp [h0]

/-- The code's branches are those of the rule. -/
theorem updateSlidingWindow_slide (counter newCounter : UInt32) (window : BitVec 64) :
    ((updateSlidingWindow counter window newCounter).1.toNat, (updateSlidingWindow counter window newCounter).2) =
      slide windowSize counter.toNat window newCounter.toNat := by
  unfold updateSlidingWindow slide
  rcases Nat.lt_trichotomy newCounter.toNat counter.toNat with hlt | heq | hlt
  · have hne : counter ≠ newCounter := fun he => by
      rw [he] at hlt
      exact Nat.lt_irrefl _ hlt
    have hlt' : newCounter < counter := UInt32.lt_iff_toNat_lt.2 hlt
    have hage : (counter - newCounter).toNat = counter.toNat - newCounter.toNat :=
      UInt32.toNat_sub_of_le _ _ (UInt32.le_iff_toNat_le.2 (Nat.le_of_lt hlt))
    simp only [hne, if_false, hlt', if_true, hage, Nat.lt_asymm hlt, hlt, true_and, bit_ne_one]
    by_cases hold : windowSize < counter.toNat - newCounter.toNat
    · have hno : ¬counter.toNat - newCounter.toNat ≤ windowSize := by omega
      simp only [hold, if_true, hno, false_and, if_false]
    · have hle : counter.toNat - newCounter.toNat ≤ windowSize := by omega
      simp only [hold, if_false, hle, true_and]
      by_cases hbit : window.getLsbD (counter.toNat - newCounter.toNat - 1) = false <;> simp [hbit]
  · have he : newCounter = counter := UInt32.toNat_inj.1 heq
    simp [he]
  · have hne : counter ≠ newCounter := fun he => by
      rw [he] at hlt
      exact Nat.lt_irrefl _ hlt
    have hno : ¬newCounter < counter := fun h => Nat.lt_asymm hlt (UInt32.lt_iff_toNat_lt.1 h)
    have hage : (newCounter - counter).toNat = newCounter.toNat - counter.toNat :=
      UInt32.toNat_sub_of_le _ _ (UInt32.le_iff_toNat_le.2 (Nat.le_of_lt hlt))
    simp only [hne, if_false, hno, hage, hlt, if_true]

variable {counter newCounter : UInt32} {window : BitVec 64} {seen : List Nat}

theorem updateSlidingWindow_ok (h : Remembers window counter.toNat seen) :
    (updateSlidingWindow counter window newCounter).2.2 = true ↔ Admits windowSize counter.toNat seen newCounter.toNat := by
  rw [← slide_ok h (by decide : windowSize ≤ 64), ← updateSlidingWindow_slide]

theorem updateSlidingWindow_refused (h : (updateSlidingWindow counter window newCounter).2.2 = false) :
    updateSlidingWindow counter window newCounter = (counter, window, false) := by
  have hs := updateSlidingWindow_slide counter newCounter window
  rw [slide_refused (by rw [← hs]; exact h)] at hs
  obtain ⟨h1, h2⟩ := Prod.mk.injEq .. ▸ hs
  exact Prod.ext (UInt32.toNat_inj.1 h1) h2

/-- An accepted counter joins the record. -/
theorem updateSlidingWindow_remembers (h : Remembers window counter.toNat seen)
    (hok : (updateSlidingWindow counter window newCounter).2.2 = true) :
    Remembers (updateSlidingWindow counter window newCounter).2.1 (updateSlidingWindow counter window newCounter).1.toNat
      (newCounter.toNat :: seen) := by
  have hs := updateSlidingWindow_slide counter newCounter window
  have hr := @slide_remembers _ window counter.toNat newCounter.toNat seen windowSize h
  rw [← hs] at hr
  exact hr hok

/-! ## Runs -/

/-- The window after the counters of `cs`, and those it accepted, the newest first. -/
def SlidingWindow.run (cs : List UInt32) : SlidingWindow × List UInt32 :=
  cs.foldl (fun (w, accepted) c => ((w.update c).1, if (w.update c).2 then c :: accepted else accepted)) (.new, [])

/-- What a window knows of the counters it accepted. -/
structure SlidingWindow.Tracks (w : SlidingWindow) (accepted : List UInt32) : Prop where
  usedIff : w.used = true ↔ accepted ≠ []
  remembers : w.used = true → Remembers w.history w.counter.toNat (accepted.map (·.toNat))
  cleared : w.used = false → w.history = 0#64
  nodup : accepted.Nodup

namespace SlidingWindow

theorem toNat_mem {c : UInt32} {accepted : List UInt32} : c.toNat ∈ accepted.map (·.toNat) ↔ c ∈ accepted := by
  rw [List.mem_map]
  constructor
  · rintro ⟨d, hd, he⟩
    rwa [← UInt32.toNat_inj.1 he]
  · intro h
    exact ⟨c, h, rfl⟩

theorem update_refused {w : SlidingWindow} {c : UInt32} (h : (w.update c).2 = false) : (w.update c).1 = w := by
  unfold update at h ⊢
  split
  · rw [if_pos ‹_›] at h
    have := updateSlidingWindow_refused h
    simp [this]
  · rw [if_neg ‹_›] at h
    cases h

theorem Tracks.unused {w : SlidingWindow} {accepted : List UInt32} (h : w.Tracks accepted) (hu : ¬w.used = true) : accepted = [] := by
  by_contra hne
  exact hu (h.usedIff.2 hne)

theorem Tracks.accepts {w : SlidingWindow} {accepted : List UInt32} (h : w.Tracks accepted) (c : UInt32) :
    (w.update c).2 = true ↔ accepted = [] ∨ Admits windowSize w.counter.toNat (accepted.map (·.toNat)) c.toNat := by
  by_cases hu : w.used = true
  · have hne := h.usedIff.1 hu
    simpa [update, hu, hne] using updateSlidingWindow_ok (h.remembers hu)
  · simp [update, hu, h.unused hu]

theorem Tracks.fresh {w : SlidingWindow} {accepted : List UInt32} (h : w.Tracks accepted) {c : UInt32}
    (hok : (w.update c).2 = true) : c ∉ accepted := by
  rcases (h.accepts c).1 hok with he | hadm
  · simp [he]
  · by_cases hu : w.used = true
    · exact fun hc => hadm.fresh (h.remembers hu).leTop (toNat_mem.2 hc)
    · simp [h.unused hu]

theorem Tracks.update {w : SlidingWindow} {accepted : List UInt32} (h : w.Tracks accepted) {c : UInt32}
    (hok : (w.update c).2 = true) : (w.update c).1.Tracks (c :: accepted) := by
  have hnd := List.nodup_cons.2 ⟨h.fresh hok, h.nodup⟩
  by_cases hu : w.used = true
  · have hok' : (updateSlidingWindow w.counter w.history c).2.2 = true := by simpa [SlidingWindow.update, hu] using hok
    have hr := updateSlidingWindow_remembers (h.remembers hu) hok'
    refine ⟨by simp [SlidingWindow.update, hu], fun _ => ?_, fun hf => ?_, hnd⟩
    · simpa [SlidingWindow.update, hu] using hr
    · simp [SlidingWindow.update, hu] at hf
  · have hz := h.cleared (by simpa using hu)
    have he := h.unused hu
    refine ⟨by simp [SlidingWindow.update, hu], fun _ => ?_, fun hf => ?_, hnd⟩
    · simpa [SlidingWindow.update, hu, hz, he] using Remembers.first c.toNat
    · simp [SlidingWindow.update, hu] at hf

theorem Tracks.new : SlidingWindow.new.Tracks [] := by
  refine ⟨by simp [SlidingWindow.new], fun h => ?_, fun _ => rfl, List.nodup_nil⟩
  cases h

theorem run_tracks (cs : List UInt32) : (run cs).1.Tracks (run cs).2 := by
  induction cs using List.reverseRecOn with
  | nil => exact .new
  | append_singleton cs c ih =>
    have hstep : run (cs ++ [c]) =
        (((run cs).1.update c).1, if ((run cs).1.update c).2 then c :: (run cs).2 else (run cs).2) := by
      rw [run, List.foldl_append]
      rfl
    rw [hstep]
    by_cases hok : ((run cs).1.update c).2 = true
    · simpa [hok] using ih.update hok
    · have hno : ((run cs).1.update c).2 = false := by simpa using hok
      simpa [hno, update_refused hno] using ih

end SlidingWindow

/-- After any counters: the next is accepted iff it is newer than every accepted one, or it is at
    most 32 behind the newest and was not accepted; and no counter was accepted twice. -/
theorem window_accepts (cs : List UInt32) (c : UInt32) :
    (((SlidingWindow.run cs).1.update c).2 = true ↔
      (∀ n ∈ (SlidingWindow.run cs).2, n < c) ∨
      ∃ top ∈ (SlidingWindow.run cs).2, (∀ n ∈ (SlidingWindow.run cs).2, n ≤ top) ∧ c < top ∧ top.toNat - c.toNat ≤ windowSize ∧
        c ∉ (SlidingWindow.run cs).2) ∧
    (SlidingWindow.run cs).2.Nodup := by
  have ht := SlidingWindow.run_tracks cs
  refine ⟨?_, ht.nodup⟩
  rw [ht.accepts c]
  generalize SlidingWindow.run cs = r at ht
  by_cases hu : r.1.used = true
  · have hr := ht.remembers hu
    have hne := ht.usedIff.1 hu
    have htop : r.1.counter ∈ r.2 := SlidingWindow.toNat_mem.1 hr.topSeen
    have hle : ∀ n ∈ r.2, n.toNat ≤ r.1.counter.toNat := fun n hn => hr.leTop _ (SlidingWindow.toNat_mem.2 hn)
    constructor
    · rintro (he | hlt | ⟨hlt, hage, hno⟩)
      · exact absurd he hne
      · exact Or.inl fun n hn => UInt32.lt_iff_toNat_lt.2 (Nat.lt_of_le_of_lt (hle n hn) hlt)
      · refine Or.inr ⟨_, htop, fun n hn => UInt32.le_iff_toNat_le.2 (hle n hn), UInt32.lt_iff_toNat_lt.2 hlt, hage, ?_⟩
        exact fun hc => hno (SlidingWindow.toNat_mem.2 hc)
    · rintro (hall | ⟨top, hmem, hmax, hlt, hage, hno⟩)
      · exact Or.inr (Or.inl (UInt32.lt_iff_toNat_lt.1 (hall _ htop)))
      · have he : top = r.1.counter := UInt32.toNat_inj.1 (Nat.le_antisymm (hle top hmem) (UInt32.le_iff_toNat_le.1 (hmax _ htop)))
        subst he
        exact Or.inr (Or.inr ⟨UInt32.lt_iff_toNat_lt.1 hlt, hage, fun hc => hno (SlidingWindow.toNat_mem.1 hc)⟩)
  · simp [ht.unused hu]

end ElectricEel.Vehicle
