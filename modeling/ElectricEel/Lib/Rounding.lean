/-
  ElectricEel.Lib.Rounding — rounding a fraction to a binary significand.

  `nearest p num den` is the number nearest to num / den among those whose significand has
  p + 1 bits, in whole units: below 2^(p+1) every whole number is one of them, and of two
  equally near ones it is the even. A format with bits p and smallest unit u rounds x to
  u · nearest p (x / u).

  Proved: a bound of p + 1 bits bounds the rounded number wherever it bounds the fraction
  (`nearest_le`, `le_nearest`); and if rounding to more bits, in a finer unit, stays within
  such a bound, then so does rounding to p + 1 bits, although the fraction itself may be
  beyond the bound (`nearest_le_of_finer`, `le_nearest_of_finer`, and with a sign
  `signed_le_of_finer`, `le_signed_of_finer`).
-/
import Mathlib.Algebra.Order.Ring.Nat
import Mathlib.Data.Nat.Log
import Mathlib.Tactic.Ring
import Mathlib.Tactic.Linarith

namespace ElectricEel.Lib

/-! ## To a whole number -/

/-- The whole number nearest to a / b, the even one of two. -/
def roundDiv (a b : Nat) : Nat :=
  let q := a / b
  if b < 2 * (a % b) ∨ 2 * (a % b) = b ∧ q % 2 = 1 then q + 1 else q

variable {a b k : Nat}

/-- At most half a step off, either way. -/
theorem roundDiv_near (hb : 0 < b) : 2 * a ≤ (2 * roundDiv a b + 1) * b ∧ 2 * roundDiv a b * b ≤ 2 * a + b := by
  have hdiv : b * (a / b) + a % b = a := Nat.div_add_mod a b
  have hmod : a % b < b := Nat.mod_lt a hb
  have hexpand : ∀ q, (2 * q + 1) * b = 2 * (b * q) + b ∧ 2 * q * b = 2 * (b * q) := by
    intro q
    constructor <;> ring
  have hnext : b * (a / b + 1) = b * (a / b) + b := Nat.mul_succ ..
  unfold roundDiv
  dsimp only
  split
  · rw [(hexpand _).1, (hexpand _).2, hnext]
    omega
  · rw [(hexpand _).1, (hexpand _).2]
    omega

theorem roundDiv_le (hb : 0 < b) (h : a ≤ k * b) : roundDiv a b ≤ k := by
  by_contra hk
  have hstep : (k + 1) * b ≤ roundDiv a b * b := Nat.mul_le_mul_right b (by omega)
  have hnear := (roundDiv_near (a := a) hb).2
  nlinarith

theorem le_roundDiv (hb : 0 < b) (h : k * b ≤ a) : k ≤ roundDiv a b := by
  by_contra hk
  have hstep : (roundDiv a b + 1) * b ≤ k * b := Nat.mul_le_mul_right b (by omega)
  have hnear := (roundDiv_near (a := a) hb).1
  nlinarith

/-! ## To a significand -/

def nearest (p num den : Nat) : Nat :=
  let shift := Nat.log2 (num / den) - p
  roundDiv num (den * 2 ^ shift) * 2 ^ shift

/-- A significand of p + 1 bits: far enough up, a multiple of the step. -/
def Fits (p B : Nat) : Prop := ∀ t, 2 ^ (p + t) ≤ B → 2 ^ t ∣ B

theorem fits_mul_pow {p m : Nat} (hm : m < 2 ^ (p + 1)) (t : Nat) : Fits p (m * 2 ^ t) := by
  intro s hs
  have hlt : 2 ^ (p + s) < 2 ^ (p + 1 + t) :=
    calc 2 ^ (p + s) ≤ m * 2 ^ t := hs
      _ < 2 ^ (p + 1) * 2 ^ t := Nat.mul_lt_mul_of_pos_right hm (Nat.two_pow_pos t)
      _ = 2 ^ (p + 1 + t) := (Nat.pow_add 2 (p + 1) t).symm
  have hexp : p + s < p + 1 + t := (Nat.pow_lt_pow_iff_right (by decide)).1 hlt
  exact Dvd.dvd.mul_left (Nat.pow_dvd_pow 2 (by omega)) m

/-- The step of a fraction: one unit, or as many as p + 1 bits leave. -/
structure Step (p num den t : Nat) : Prop where
  low : t = 0 ∨ 2 ^ p * (den * 2 ^ t) ≤ num
  high : num < 2 ^ (p + 1) * (den * 2 ^ t)

theorem nearest_step (p num : Nat) {den : Nat} (hd : 0 < den) :
    ∃ t, Step p num den t ∧ nearest p num den = roundDiv num (den * 2 ^ t) * 2 ^ t := by
  refine ⟨Nat.log2 (num / den) - p, ⟨?_, ?_⟩, rfl⟩
  · by_cases h : Nat.log2 (num / den) ≤ p
    · exact .inl (by omega)
    · right
      have hne : num / den ≠ 0 := by
        intro hz
        rw [hz] at h
        exact h (Nat.zero_le p)
      have hpow : 2 ^ (p + (Nat.log2 (num / den) - p)) ≤ num / den := by
        rw [Nat.add_sub_cancel' (by omega)]
        exact Nat.log2_self_le hne
      have hmul := (Nat.le_div_iff_mul_le hd).1 hpow
      rw [Nat.pow_add] at hmul
      linarith
  · have hlt : num / den < 2 ^ (p + 1 + (Nat.log2 (num / den) - p)) :=
      Nat.lt_of_lt_of_le Nat.lt_log2_self (Nat.pow_le_pow_right (by decide) (by omega))
    have hmul := (Nat.div_lt_iff_lt_mul hd).1 hlt
    rw [Nat.pow_add] at hmul
    linarith

variable {p q num den B : Nat}

theorem nearest_le (hd : 0 < den) (hB : Fits p B) (h : num ≤ B * den) : nearest p num den ≤ B := by
  obtain ⟨t, hs, ht⟩ := nearest_step p num hd
  have hD : 0 < den * 2 ^ t := Nat.mul_pos hd (Nat.two_pow_pos t)
  have hdvd : 2 ^ t ∣ B := by
    rcases hs.low with h0 | hlow
    · rw [h0]
      exact one_dvd B
    · apply hB
      have hmul : 2 ^ (p + t) * den ≤ B * den := by
        rw [Nat.pow_add]
        linarith
      exact Nat.le_of_mul_le_mul_right hmul hd
  obtain ⟨m, hm⟩ := hdvd
  have hround : roundDiv num (den * 2 ^ t) ≤ m := by
    apply roundDiv_le hD
    calc num ≤ B * den := h
      _ = m * (den * 2 ^ t) := by rw [hm]; ring
  rw [ht, hm, Nat.mul_comm]
  exact Nat.mul_le_mul_left _ hround

theorem le_nearest (hd : 0 < den) (hB : Fits p B) (h : B * den ≤ num) : B ≤ nearest p num den := by
  obtain ⟨t, hs, ht⟩ := nearest_step p num hd
  have hD : 0 < den * 2 ^ t := Nat.mul_pos hd (Nat.two_pow_pos t)
  rw [ht]
  by_cases hbig : 2 ^ (p + t) ≤ B
  · obtain ⟨m, hm⟩ := hB t hbig
    have hround : m ≤ roundDiv num (den * 2 ^ t) := by
      apply le_roundDiv hD
      calc m * (den * 2 ^ t) = B * den := by rw [hm]; ring
        _ ≤ num := h
    rw [hm, Nat.mul_comm]
    exact Nat.mul_le_mul_right _ hround
  · rcases hs.low with h0 | hlow
    · subst h0
      rw [Nat.pow_zero, Nat.mul_one, Nat.mul_one]
      exact le_roundDiv hd h
    · have hround : 2 ^ p ≤ roundDiv num (den * 2 ^ t) := le_roundDiv hD hlow
      calc B ≤ 2 ^ p * 2 ^ t := by rw [← Nat.pow_add]; omega
        _ ≤ _ := Nat.mul_le_mul_right _ hround

/-! ## Two roundings -/

/-- Below a bound of p + 1 bits in the step's range there is room for half a step. -/
theorem fits_gap {t R : Nat} (hB : Fits p B) (hR : t = 0 ∨ 2 ^ p ≤ R) (h : R * 2 ^ t < B) : (R + 1) * 2 ^ t ≤ B := by
  have hdvd : 2 ^ t ∣ B := by
    rcases hR with h0 | hR
    · rw [h0]
      exact one_dvd B
    · apply hB
      calc 2 ^ (p + t) = 2 ^ p * 2 ^ t := Nat.pow_add ..
        _ ≤ R * 2 ^ t := Nat.mul_le_mul_right _ hR
        _ ≤ B := Nat.le_of_lt h
  obtain ⟨m, hm⟩ := hdvd
  rw [hm, Nat.mul_comm (2 ^ t) m] at h ⊢
  exact Nat.mul_le_mul_right _ (Nat.lt_of_mul_lt_mul_right h)

theorem finer_bits (hpq : p < q) : 0 < 2 ^ (p + 1) ∧ 2 * 2 ^ (p + 1) ≤ 2 ^ (q + 1) := by
  refine ⟨Nat.two_pow_pos _, ?_⟩
  rw [← Nat.pow_succ']
  exact Nat.pow_le_pow_right (by decide) (by omega)

/-- Rounding down to R: the bound is at least the midpoint beyond it. -/
theorem le_nearest_of_finer (hd : 0 < den) (hB : Fits p B) (hpq : p < q)
    (h : B * 2 ^ (k + 1) ≤ nearest q (num * 2 ^ (k + 1)) den) : B ≤ nearest p num den := by
  obtain ⟨t, hs, ht⟩ := nearest_step p num hd
  have hD : 0 < den * 2 ^ t := Nat.mul_pos hd (Nat.two_pow_pos t)
  obtain ⟨hpos, hbits⟩ := finer_bits hpq
  rw [ht]
  by_contra hlt
  have hR : t = 0 ∨ 2 ^ p ≤ roundDiv num (den * 2 ^ t) := hs.low.imp_right (le_roundDiv hD)
  have hRtop : roundDiv num (den * 2 ^ t) ≤ 2 ^ (p + 1) := roundDiv_le hD (Nat.le_of_lt hs.high)
  have hgap := fits_gap hB hR (Nat.lt_of_not_le hlt)
  have hnear := (roundDiv_near (a := num) hD).1
  generalize roundDiv num (den * 2 ^ t) = R at *
  by_cases hdown : num ≤ R * (den * 2 ^ t)
  · -- the fraction is not beyond R, so neither is the finer number
    have hfine : nearest q (num * 2 ^ (k + 1)) den ≤ R * 2 ^ (t + (k + 1)) := by
      apply nearest_le hd (fits_mul_pow (by omega) _)
      calc num * 2 ^ (k + 1) ≤ R * (den * 2 ^ t) * 2 ^ (k + 1) := Nat.mul_le_mul_right _ hdown
        _ = R * 2 ^ (t + (k + 1)) * den := by rw [Nat.pow_add 2 t]; ring
    have hB' : B * 2 ^ (k + 1) ≤ R * 2 ^ t * 2 ^ (k + 1) := by
      rw [Nat.mul_assoc R, ← Nat.pow_add]
      exact Nat.le_trans h hfine
    exact hlt (Nat.le_of_mul_le_mul_right hB' (Nat.two_pow_pos _))
  · -- the fraction is below the midpoint, which the finer format has
    have hlow : R < 2 ^ (p + 1) := by
      by_contra hge
      have hmul : 2 ^ (p + 1) * (den * 2 ^ t) ≤ R * (den * 2 ^ t) := Nat.mul_le_mul_right _ (by omega)
      have hhigh := hs.high
      omega
    have hfine : nearest q (num * 2 ^ (k + 1)) den ≤ (2 * R + 1) * 2 ^ (t + k) := by
      apply nearest_le hd (fits_mul_pow (by omega) _)
      calc num * 2 ^ (k + 1) = 2 * num * 2 ^ k := by rw [Nat.pow_succ]; ring
        _ ≤ (2 * R + 1) * (den * 2 ^ t) * 2 ^ k := Nat.mul_le_mul_right _ hnear
        _ = (2 * R + 1) * 2 ^ (t + k) * den := by rw [Nat.pow_add 2 t]; ring
    have hmid : (2 * R + 2) * 2 ^ (t + k) ≤ (2 * R + 1) * 2 ^ (t + k) :=
      calc (2 * R + 2) * 2 ^ (t + k) = (R + 1) * 2 ^ t * 2 ^ (k + 1) := by rw [Nat.pow_add, Nat.pow_succ]; ring
        _ ≤ B * 2 ^ (k + 1) := Nat.mul_le_mul_right _ hgap
        _ ≤ (2 * R + 1) * 2 ^ (t + k) := Nat.le_trans h hfine
    have := Nat.le_of_mul_le_mul_right hmid (Nat.two_pow_pos _)
    omega

/-- Rounding up to R: the bound is at most the midpoint before it. -/
theorem nearest_le_of_finer (hd : 0 < den) (hB : Fits p B) (hpq : p < q)
    (h : nearest q (num * 2 ^ (k + 1)) den ≤ B * 2 ^ (k + 1)) : nearest p num den ≤ B := by
  obtain ⟨t, hs, ht⟩ := nearest_step p num hd
  have hD : 0 < den * 2 ^ t := Nat.mul_pos hd (Nat.two_pow_pos t)
  obtain ⟨hpos, hbits⟩ := finer_bits hpq
  rw [ht]
  by_contra hlt
  have hRtop : roundDiv num (den * 2 ^ t) ≤ 2 ^ (p + 1) := roundDiv_le hD (Nat.le_of_lt hs.high)
  have hnear := (roundDiv_near (a := num) hD).2
  generalize roundDiv num (den * 2 ^ t) = R at *
  by_cases hup : R * (den * 2 ^ t) ≤ num
  · -- the fraction is not before R, so neither is the finer number
    have hfine : R * 2 ^ (t + (k + 1)) ≤ nearest q (num * 2 ^ (k + 1)) den := by
      apply le_nearest hd (fits_mul_pow (by omega) _)
      calc R * 2 ^ (t + (k + 1)) * den = R * (den * 2 ^ t) * 2 ^ (k + 1) := by rw [Nat.pow_add 2 t]; ring
        _ ≤ num * 2 ^ (k + 1) := Nat.mul_le_mul_right _ hup
    have hB' : R * 2 ^ t * 2 ^ (k + 1) ≤ B * 2 ^ (k + 1) := by
      rw [Nat.mul_assoc R, ← Nat.pow_add]
      exact Nat.le_trans hfine h
    exact hlt (Nat.le_of_mul_le_mul_right hB' (Nat.two_pow_pos _))
  · -- the fraction is beyond the midpoint, which the finer format has
    obtain ⟨S, rfl⟩ : ∃ S, R = S + 1 := by
      refine ⟨R - 1, ?_⟩
      have hpos : 0 < R := by
        by_contra h0
        have hzero : R = 0 := by omega
        rw [hzero, Nat.zero_mul] at hup
        exact hup (Nat.zero_le num)
      omega
    have hhalf : (2 * S + 1) * (den * 2 ^ t) ≤ 2 * num := by
      have hexpand : 2 * (S + 1) * (den * 2 ^ t) = (2 * S + 1) * (den * 2 ^ t) + den * 2 ^ t := by ring
      omega
    have hfine : (2 * S + 1) * 2 ^ (t + k) ≤ nearest q (num * 2 ^ (k + 1)) den := by
      apply le_nearest hd (fits_mul_pow (by omega) _)
      calc (2 * S + 1) * 2 ^ (t + k) * den = (2 * S + 1) * (den * 2 ^ t) * 2 ^ k := by rw [Nat.pow_add 2 t]; ring
        _ ≤ 2 * num * 2 ^ k := Nat.mul_le_mul_right _ hhalf
        _ = num * 2 ^ (k + 1) := by rw [Nat.pow_succ]; ring
    have hmid : (2 * S + 1) * 2 ^ t ≤ 2 * B := by
      have hmul : (2 * S + 1) * 2 ^ t * 2 ^ k ≤ 2 * B * 2 ^ k :=
        calc (2 * S + 1) * 2 ^ t * 2 ^ k = (2 * S + 1) * 2 ^ (t + k) := by rw [Nat.pow_add]; ring
          _ ≤ B * 2 ^ (k + 1) := Nat.le_trans hfine h
          _ = 2 * B * 2 ^ k := by rw [Nat.pow_succ]; ring
      exact Nat.le_of_mul_le_mul_right hmul (Nat.two_pow_pos k)
    have hS : t = 0 ∨ 2 ^ p ≤ S := by
      refine hs.low.imp_right fun hlow => ?_
      have hmul : 2 ^ p * (den * 2 ^ t) < (S + 1) * (den * 2 ^ t) := Nat.lt_of_le_of_lt hlow (Nat.lt_of_not_le hup)
      exact Nat.le_of_lt_succ (Nat.lt_of_mul_lt_mul_right hmul)
    by_cases hbelow : S * 2 ^ t < B
    · -- the bound is a whole step above S, at R
      exact hlt (fits_gap hB hS hbelow)
    · have hW : 0 < 2 ^ t := Nat.two_pow_pos t
      have hexpand : (2 * S + 1) * 2 ^ t = 2 * (S * 2 ^ t) + 2 ^ t := by ring
      omega

/-! ## Signs -/

def signed (neg : Bool) (n : Nat) : Int := if neg then -n else n

theorem signed_not (neg : Bool) (n : Nat) : signed (!neg) n = -signed neg n := by
  cases neg
  · rfl
  · exact (Int.neg_neg _).symm

/-- The finer number within a bound of whole steps of 2^t, the coarser one within it too. -/
theorem signed_le_of_finer (hd : 0 < den) (hpq : p < q) {neg : Bool} {bound : Int} (hb : bound.natAbs < 2 ^ (p + 1)) {t : Nat}
    (h : signed neg (nearest q (num * 2 ^ (k + 1)) den) ≤ bound * (2 ^ t * 2 ^ (k + 1) : Nat)) :
    signed neg (nearest p num den) ≤ bound * (2 ^ t : Nat) := by
  have hup : ∀ m : Nat, m < 2 ^ (p + 1) → nearest q (num * 2 ^ (k + 1)) den ≤ m * (2 ^ t * 2 ^ (k + 1)) →
      nearest p num den ≤ m * 2 ^ t := by
    intro m hm hle
    rw [← Nat.mul_assoc] at hle
    exact nearest_le_of_finer hd (fits_mul_pow hm t) hpq hle
  have hdown : ∀ m : Nat, m < 2 ^ (p + 1) → m * (2 ^ t * 2 ^ (k + 1)) ≤ nearest q (num * 2 ^ (k + 1)) den →
      m * 2 ^ t ≤ nearest p num den := by
    intro m hm hle
    rw [← Nat.mul_assoc] at hle
    exact le_nearest_of_finer hd (fits_mul_pow hm t) hpq hle
  have hfar : 0 < 2 ^ t * 2 ^ (k + 1) := Nat.mul_pos (Nat.two_pow_pos t) (Nat.two_pow_pos _)
  generalize nearest q (num * 2 ^ (k + 1)) den = fine at *
  generalize nearest p num den = coarse at *
  generalize 2 ^ t * 2 ^ (k + 1) = far at *
  generalize 2 ^ t = near at *
  cases neg with
  | false =>
    have h' : (fine : Int) ≤ bound * far := h
    show (coarse : Int) ≤ bound * near
    by_cases hpos : 0 ≤ bound
    · obtain ⟨m, rfl⟩ := Int.eq_ofNat_of_zero_le hpos
      have hle : fine ≤ m * far := by exact_mod_cast h'
      exact_mod_cast hup m hb hle
    · have hneg : bound * far < 0 := Int.mul_neg_of_neg_of_pos (by omega) (by omega)
      have hfine : (0 : Int) ≤ fine := Int.natCast_nonneg _
      omega
  | true =>
    have h' : -(fine : Int) ≤ bound * far := h
    show -(coarse : Int) ≤ bound * near
    by_cases hpos : 0 ≤ bound
    · have hnear : 0 ≤ bound * near := Int.mul_nonneg hpos (Int.natCast_nonneg _)
      have hcoarse : (0 : Int) ≤ coarse := Int.natCast_nonneg _
      omega
    · obtain ⟨m, hm⟩ : ∃ m : Nat, bound = -m := ⟨bound.natAbs, by omega⟩
      subst hm
      rw [Int.neg_mul] at h' ⊢
      have hle : m * far ≤ fine := by exact_mod_cast Int.neg_le_neg_iff.1 h'
      have hcoarse : m * near ≤ coarse := hdown m (by omega) hle
      exact Int.neg_le_neg (by exact_mod_cast hcoarse)

theorem le_signed_of_finer (hd : 0 < den) (hpq : p < q) {neg : Bool} {bound : Int} (hb : bound.natAbs < 2 ^ (p + 1)) {t : Nat}
    (h : bound * (2 ^ t * 2 ^ (k + 1) : Nat) ≤ signed neg (nearest q (num * 2 ^ (k + 1)) den)) :
    bound * (2 ^ t : Nat) ≤ signed neg (nearest p num den) := by
  have hneg : signed (!neg) (nearest p num den) ≤ -bound * (2 ^ t : Nat) := by
    refine signed_le_of_finer hd hpq (by rwa [Int.natAbs_neg]) (k := k) ?_
    rw [signed_not, Int.neg_mul]
    exact Int.neg_le_neg h
  rw [signed_not, Int.neg_mul] at hneg
  exact Int.neg_le_neg_iff.1 hneg

end ElectricEel.Lib
