/-
  ElectricEel.Share.Number — the numbers of the share parser: f64 and `str::parse::<f64>`.

  Every finite f64 is a whole number of 2^-1074, and `fin n` is that number; the sign of
  zero is left out. `parse` reads Rust's grammar (a sign, digits with at most one point, an
  exponent, or inf, infinity, nan in any case) and rounds to the nearest f64, ties to even.

  Proved: a text that parses begins with a sign, a point, a digit or a letter of inf or nan
  (`parse_head`).
-/
import Mathlib.Algebra.Order.Ring.Nat
import Mathlib.Data.List.Basic
import ElectricEel.Lib.Rounding

namespace ElectricEel.Share

open Lib

inductive F64 where
  | nan
  | inf (neg : Bool)
  /-- n · 2^-1074. -/
  | fin (n : Int)
  deriving DecidableEq, Repr

namespace F64

def ofInt (n : Int) : F64 := .fin (n * 2 ^ 1074)

def isFinite : F64 → Bool
  | fin _ => true
  | _ => false

/-- `(-b..=b).contains(&x)`. -/
def within (b : Nat) : F64 → Bool
  | fin n => decide (-(b * 2 ^ 1074 : Int) ≤ n ∧ n ≤ (b * 2 ^ 1074 : Int))
  | _ => false

/-! ## Rounding -/

/-- digits · 10^exp. A significand has 53 bits. -/
def ofDecimal (neg : Bool) (digits : Nat) (exp : Int) : F64 :=
  let num := digits * 10 ^ exp.toNat * 2 ^ 1074
  let den := 10 ^ (-exp).toNat
  let n := nearest 52 num den
  if 2 ^ 2098 ≤ n then .inf neg else .fin (if neg then -n else n)

/-! ## Reading -/

def digitsValue (ds : List Char) : Nat := ds.foldl (fun n c => 10 * n + (c.toNat - '0'.toNat)) 0

def takeSign : List Char → Bool × List Char
  | '-' :: rest => (true, rest)
  | '+' :: rest => (false, rest)
  | rest => (false, rest)

/-- What follows the mantissa. -/
def parseExponent (s : List Char) : Option Int :=
  match s with
  | [] => some 0
  | c :: rest =>
    if c = 'e' ∨ c = 'E' then
      let r := takeSign rest
      if r.2 ≠ [] ∧ r.2.all Char.isDigit then some (if r.1 then -digitsValue r.2 else digitsValue r.2) else none
    else none

def parseNumber (neg : Bool) (s : List Char) : Option F64 :=
  let whole := s.takeWhile Char.isDigit
  let rest := s.dropWhile Char.isDigit
  let frac := match rest with
    | '.' :: t => t.takeWhile Char.isDigit
    | _ => []
  let tail := match rest with
    | '.' :: t => t.dropWhile Char.isDigit
    | _ => rest
  if whole ++ frac = [] then none
  else (parseExponent tail).map fun e => ofDecimal neg (digitsValue (whole ++ frac)) (e - frac.length)

def parse (s : List Char) : Option F64 :=
  let r := takeSign s
  let word := r.2.map Char.toLower
  if word = "inf".toList ∨ word = "infinity".toList then some (.inf r.1)
  else if word = "nan".toList then some .nan
  else parseNumber r.1 r.2

example : parse "48.8584".toList = parse "+4885.84e-2".toList := by decide +kernel
example : parse ".".toList = none ∧ parse "1e400".toList = some (.inf false) := by decide +kernel

theorem takeSign_digits {ds : List Char} (h : ∀ c ∈ ds, c.isDigit = true) (hne : ds ≠ []) (rest : List Char) :
    takeSign (ds ++ rest) = (false, ds ++ rest) := by
  cases ds with
  | nil => exact absurd rfl hne
  | cons c ds =>
    have hc : c.isDigit = true := h c List.mem_cons_self
    unfold takeSign
    split
    · rename_i heq
      rw [(List.cons.inj heq).1] at hc
      exact absurd hc (by decide)
    · rename_i heq
      rw [(List.cons.inj heq).1] at hc
      exact absurd hc (by decide)
    · rfl

/-- With another first letter a text is no number. -/
theorem parse_head {c : Char} {rest : List Char} (hsign : c ≠ '-' ∧ c ≠ '+') (hdot : c ≠ '.') (hdigit : c.isDigit = false)
    (hword : c.toLower ≠ 'i' ∧ c.toLower ≠ 'n') : parse (c :: rest) = none := by
  have hs : takeSign (c :: rest) = (false, c :: rest) := by
    unfold takeSign
    split
    · rename_i heq
      exact absurd (List.cons.inj heq).1 hsign.1
    · rename_i heq
      exact absurd (List.cons.inj heq).1 hsign.2
    · rfl
  have hw : ∀ w : List Char, w.head? = some 'i' ∨ w.head? = some 'n' → (c :: rest).map Char.toLower ≠ w := by
    rintro w hw rfl
    simp only [List.map_cons, List.head?_cons, Option.some.injEq] at hw
    exact hw.elim hword.1 hword.2
  have hn : parseNumber false (c :: rest) = none := by
    have hfrac : (match (c :: rest : List Char) with
        | '.' :: t => t.takeWhile Char.isDigit
        | _ => []) = [] := by
      split
      · rename_i heq
        exact absurd (List.cons.inj heq).1 hdot
      · rfl
    simp only [parseNumber, List.takeWhile_cons, List.dropWhile_cons, hdigit, Bool.false_eq_true, if_false, List.nil_append, hfrac,
      if_true]
  simp only [parse, hs, hn]
  rw [if_neg, if_neg]
  · exact hw _ (.inr rfl)
  · rintro (h | h)
    · exact hw _ (.inl rfl) h
    · exact hw _ (.inl rfl) h

end F64

end ElectricEel.Share
