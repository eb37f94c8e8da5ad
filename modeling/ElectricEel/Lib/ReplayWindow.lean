/-
  ElectricEel.Lib.ReplayWindow — a bitmask that remembers which counters were accepted.

  The mask is read from the newest accepted counter `top` down: bit `i` stands for
  `top - (i + 1)`. Bits that stand for numbers below zero mean nothing, so a mask need not
  be cleared when its counter starts again at zero. An older counter is judged only while
  it is at most `size` behind.

  Proved: the mask follows the set of accepted counters when an older one is marked
  (`Remembers.mark`), when a newer one moves the top (`Remembers.advance`) and when the
  counter starts again (`Remembers.restart`); a counter that the rule admits was not
  accepted before (`Admits.fresh`). `slide` is the rule on a mask: it accepts what the rule
  admits (`slide_ok`), then remembers it (`slide_remembers`), and else changes nothing
  (`slide_refused`).
-/
import Mathlib.Data.BitVec
import Mathlib.Data.List.Basic

namespace ElectricEel.Lib

variable {w : Nat} {history : BitVec w} {top n : Nat} {seen : List Nat}

structure Remembers (history : BitVec w) (top : Nat) (seen : List Nat) : Prop where
  topSeen : top ∈ seen
  leTop : ∀ n ∈ seen, n ≤ top
  bits : ∀ i < w, i + 1 ≤ top → (history.getLsbD i = true ↔ top - (i + 1) ∈ seen)

/-- The rule a window implements: newer than all, or not too old and not seen. -/
def Admits (size top : Nat) (seen : List Nat) (n : Nat) : Prop :=
  top < n ∨ n < top ∧ top - n ≤ size ∧ n ∉ seen

instance (size top : Nat) (seen : List Nat) (n : Nat) : Decidable (Admits size top seen n) :=
  inferInstanceAs (Decidable (_ ∨ _))

theorem getLsbD_one_shiftLeft (k i : Nat) : ((1#w) <<< k).getLsbD i = true ↔ i < w ∧ i = k := by
  rw [BitVec.getLsbD_shiftLeft, BitVec.getLsbD_one]
  simp only [Bool.and_eq_true, decide_eq_true_eq, Bool.not_eq_true']
  simp only [decide_eq_false_iff_not]
  omega

namespace Remembers

theorem bit_iff (h : Remembers history top seen) (hlt : n < top) (hw : top - n ≤ w) :
    history.getLsbD (top - n - 1) = true ↔ n ∈ seen := by
  have hi := h.bits (top - n - 1) (by omega) (by omega)
  have he : top - (top - n - 1 + 1) = n := by omega
  rwa [he] at hi

theorem congr {seen' : List Nat} (h : Remembers history top seen) (hs : ∀ n, n ∈ seen' ↔ n ∈ seen) :
    Remembers history top seen' :=
  ⟨(hs _).2 h.topSeen, fun n hn => h.leTop n ((hs n).1 hn), fun i hi hle => (h.bits i hi hle).trans (hs _).symm⟩

theorem restart (history : BitVec w) : Remembers history 0 [0] :=
  ⟨List.mem_singleton_self 0, fun n hn => by simp_all, fun i _ h => by omega⟩

theorem first (n : Nat) : Remembers (0#w) n [n] := by
  refine ⟨List.mem_singleton_self n, fun m hm => by simp_all, fun i _ hle => ?_⟩
  rw [BitVec.getLsbD_zero, List.mem_singleton]
  constructor
  · intro h
    cases h
  · intro h
    omega

theorem mark (h : Remembers history top seen) (hlt : n < top) :
    Remembers (history ||| (1#w) <<< (top - n - 1)) top (n :: seen) := by
  refine ⟨List.mem_cons_of_mem _ h.topSeen, ?_, ?_⟩
  · intro m hm
    rcases List.mem_cons.mp hm with rfl | hm
    · omega
    · exact h.leTop m hm
  · intro i hi hle
    rw [BitVec.getLsbD_or, Bool.or_eq_true, getLsbD_one_shiftLeft, h.bits i hi hle, List.mem_cons]
    constructor
    · rintro (hs | ⟨-, rfl⟩)
      · exact Or.inr hs
      · exact Or.inl (by omega)
    · rintro (he | hs)
      · exact Or.inr ⟨hi, by omega⟩
      · exact Or.inl hs

theorem advance (h : Remembers history top seen) (hlt : top < n) :
    Remembers (history <<< (n - top) ||| (1#w) <<< (n - top - 1)) n (n :: seen) := by
  refine ⟨List.mem_cons_self, ?_, ?_⟩
  · intro m hm
    rcases List.mem_cons.mp hm with rfl | hm
    · exact Nat.le_refl _
    · exact Nat.le_trans (h.leTop m hm) (Nat.le_of_lt hlt)
  · intro i hi hle
    rw [BitVec.getLsbD_or, Bool.or_eq_true, getLsbD_one_shiftLeft, BitVec.getLsbD_shiftLeft, List.mem_cons]
    -- Above the old top, at it, and below it.
    rcases Nat.lt_trichotomy i (n - top - 1) with hi' | rfl | hi'
    · have hout : n - (i + 1) ∉ seen := fun hs => by
        have := h.leTop _ hs
        omega
      simp only [hout, or_false, show decide (i < n - top) = true from decide_eq_true (by omega), Bool.not_true, Bool.and_false,
        Bool.false_and, Bool.false_eq_true, false_or]
      omega
    · have hat : n - (n - top - 1 + 1) = top := by omega
      rw [hat]
      exact ⟨fun _ => Or.inr h.topSeen, fun _ => Or.inr ⟨hi, rfl⟩⟩
    · have hb := h.bits (i - (n - top)) (by omega) (by omega)
      have he : top - (i - (n - top) + 1) = n - (i + 1) := by omega
      rw [he] at hb
      have hge : decide (i < n - top) = false := decide_eq_false (by omega)
      simp only [hge, Bool.not_false, Bool.and_true, hi, decide_true, Bool.true_and, hb]
      constructor
      · rintro (hs | ⟨-, he⟩)
        · exact Or.inr hs
        · omega
      · rintro (he | hs)
        · omega
        · exact Or.inl hs

end Remembers

/-! ## The rule on a mask -/

/-- The top and the mask after `n`, and whether it is accepted. -/
def slide (size top : Nat) (history : BitVec w) (n : Nat) : Nat × BitVec w × Bool :=
  if top < n then (n, history <<< (n - top) ||| (1#w) <<< (n - top - 1), true)
  else if n < top ∧ top - n ≤ size ∧ history.getLsbD (top - n - 1) = false then
    (top, history ||| (1#w) <<< (top - n - 1), true)
  else (top, history, false)

variable {size : Nat}

theorem slide_refused (h : (slide size top history n).2.2 = false) : slide size top history n = (top, history, false) := by
  unfold slide at h ⊢
  split
  · rw [if_pos ‹_›] at h
    cases h
  · rw [if_neg ‹_›] at h
    split
    · rw [if_pos ‹_›] at h
      cases h
    · rfl

theorem Remembers.admits_iff (h : Remembers history top seen) (hw : size ≤ w) :
    n < top ∧ top - n ≤ size ∧ history.getLsbD (top - n - 1) = false ↔ n < top ∧ top - n ≤ size ∧ n ∉ seen := by
  constructor
  · rintro ⟨hlt, hage, hb⟩
    refine ⟨hlt, hage, fun hs => ?_⟩
    rw [(h.bit_iff hlt (Nat.le_trans hage hw)).2 hs] at hb
    cases hb
  · rintro ⟨hlt, hage, hs⟩
    refine ⟨hlt, hage, Bool.eq_false_iff.2 fun hb => hs ?_⟩
    exact (h.bit_iff hlt (Nat.le_trans hage hw)).1 hb

theorem slide_ok (h : Remembers history top seen) (hw : size ≤ w) :
    (slide size top history n).2.2 = true ↔ Admits size top seen n := by
  unfold slide Admits
  by_cases hlt : top < n
  · simp only [hlt, if_true, true_or]
  · simp only [hlt, if_false, false_or, h.admits_iff hw]
    split
    · exact iff_of_true rfl ‹_›
    · exact iff_of_false Bool.false_ne_true ‹_›

theorem slide_remembers (h : Remembers history top seen) (hok : (slide size top history n).2.2 = true) :
    Remembers (slide size top history n).2.1 (slide size top history n).1 (n :: seen) := by
  unfold slide at hok ⊢
  by_cases hlt : top < n
  · rw [if_pos hlt]
    exact h.advance hlt
  · rw [if_neg hlt] at hok ⊢
    by_cases hold : n < top ∧ top - n ≤ size ∧ history.getLsbD (top - n - 1) = false
    · rw [if_pos hold]
      exact h.mark hold.1
    · rw [if_neg hold] at hok
      cases hok

theorem Admits.fresh (hle : ∀ m ∈ seen, m ≤ top) (h : Admits size top seen n) : n ∉ seen := by
  rcases h with h | ⟨-, -, h⟩
  · intro hs
    have := hle n hs
    omega
  · exact h

end ElectricEel.Lib
