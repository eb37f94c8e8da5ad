/-
  ElectricEel.Numbers.Agreement — one text read by the parent and by the child.

  The parent trims a text and reads Rust's grammar, the child reads Go's grammar as it
  stands. What both accept is one numeral: the same whole number, or the same decimal,
  rounded to an f64 here and to a float32 there.

  Proved: the integers are equal (`parseIntArg_atoi`); the floats are roundings of one
  decimal (`parseFloatArg_parseFloat`, `stripUnit_sscanf`), and bounds that the f64 keeps
  are kept by the float32 (`Rounds.between`); a duration in seconds is the seconds the
  parent reads (`parseDuration_seconds`).
-/
import ElectricEel.Share.Geo
import ElectricEel.Numbers.Validate

namespace ElectricEel.Numbers

open Lib Config Share

/-! ## Characters -/

theorem trimChars_self {s : List Char} (h : ∀ c ∈ s, isWhitespace c = false) : trimChars s = s := trimMatches_self h

/-- Blanks on either side of what trimming leaves. -/
theorem trimChars_split (s : List Char) :
    ∃ a b, s = a ++ (trimChars s ++ b) ∧ (∀ c ∈ a, isWhitespace c = true) ∧ ∀ c ∈ b, isWhitespace c = true := by
  refine ⟨s.takeWhile isWhitespace, (s.dropWhile isWhitespace).rtakeWhile isWhitespace, ?_, ?_, ?_⟩
  · rw [trimChars, List.rdropWhile_append_rtakeWhile, List.takeWhile_append_dropWhile]
  · exact fun c hc => List.mem_takeWhile_imp hc
  · exact fun c hc => List.mem_rtakeWhile_imp hc

/-- A character of a decimal numeral. -/
def numeralChar (c : Char) : Bool := c.isDigit || c == '.' || c == 'e' || c == 'E' || c == '+' || c == '-'

theorem numeralChar_cases {c : Char} (h : numeralChar c = true) :
    c.isDigit = true ∨ c = '.' ∨ c = 'e' ∨ c = 'E' ∨ c = '+' ∨ c = '-' := by
  simpa [numeralChar, or_assoc] using h

theorem numeralChar_digit {c : Char} (h : c.isDigit = true) : numeralChar c = true := by simp [numeralChar, h]

theorem numeralChar_blank {c : Char} (h : numeralChar c = true) : isWhitespace c = false := by
  rcases numeralChar_cases h with hd | rfl | rfl | rfl | rfl | rfl
  · exact (decimalChar_plain (by simp [decimalChar, hd])).1
  all_goals decide

/-- A character of a numeral or a blank. -/
def Plain (c : Char) : Prop := numeralChar c = true ∨ isWhitespace c = true

instance (c : Char) : Decidable (Plain c) := inferInstanceAs (Decidable (_ ∨ _))

/-- No plain character has such a lower case. -/
theorem plain_toLower {c d u : Char} (hu : u.val + 32 = d.val) (hc : Plain c) (hd : ¬ Plain d) (hdu : ¬ Plain u) : c.toLower ≠ d := by
  intro h
  rcases of_toLower hu h with rfl | rfl
  · exact hd hc
  · exact hdu hc

/-! ## Signs -/

theorem takeSign_split (s : List Char) :
    s = (F64.takeSign s).2 ∧ (F64.takeSign s).1 = false ∨ s = '-' :: (F64.takeSign s).2 ∧ (F64.takeSign s).1 = true ∨
      s = '+' :: (F64.takeSign s).2 ∧ (F64.takeSign s).1 = false := by
  unfold F64.takeSign
  split
  · exact .inr (.inl ⟨rfl, rfl⟩)
  · exact .inr (.inr ⟨rfl, rfl⟩)
  · exact .inl ⟨rfl, rfl⟩

theorem takeSign_nonneg {s : List Char} (h : s.head? ≠ some '-') : (F64.takeSign s).1 = false := by
  obtain ⟨-, hn⟩ | ⟨hm, -⟩ | ⟨-, hn⟩ := takeSign_split s
  · exact hn
  · rw [hm] at h
    exact absurd rfl h
  · exact hn

theorem takeSign_mem {s : List Char} {c : Char} (h : c ∈ (F64.takeSign s).2) : c ∈ s := by
  obtain ⟨hs, -⟩ | ⟨hs, -⟩ | ⟨hs, -⟩ := takeSign_split s
  · rwa [hs]
  · rw [hs]
    exact List.mem_cons_of_mem _ h
  · rw [hs]
    exact List.mem_cons_of_mem _ h

/-- Behind a sign or none: numeral characters behind it, numeral characters all over. -/
theorem takeSign_numeral {s : List Char} (h : ∀ c ∈ (F64.takeSign s).2, numeralChar c = true) : ∀ c ∈ s, numeralChar c = true := by
  obtain ⟨hs, -⟩ | ⟨hs, -⟩ | ⟨hs, -⟩ := takeSign_split s
  · rwa [← hs] at h
  · rw [hs]
    exact List.forall_mem_cons.2 ⟨rfl, h⟩
  · rw [hs]
    exact List.forall_mem_cons.2 ⟨rfl, h⟩

/-! ## Integers -/

theorem parseSigned_spec {s : List Char} {n : Int} (h : parseSigned s = some n) :
    (F64.takeSign s).2 ≠ [] ∧ (∀ c ∈ (F64.takeSign s).2, c.isDigit = true) ∧
      n = if (F64.takeSign s).1 then -(F64.digitsValue (F64.takeSign s).2 : Int) else F64.digitsValue (F64.takeSign s).2 := by
  rw [parseSigned] at h
  split at h
  · rename_i hd
    refine ⟨hd.1, List.all_eq_true.1 hd.2, ?_⟩
    exact (Option.some.inj h).symm
  · cases h

theorem parseSigned_numeral {s : List Char} {n : Int} (h : parseSigned s = some n) : ∀ c ∈ s, numeralChar c = true :=
  takeSign_numeral fun c hc => numeralChar_digit ((parseSigned_spec h).2.1 c hc)

theorem parseI64_signed {s : List Char} {n : Int} (h : parseI64 s = some n) : parseSigned s = some n := (Option.filter_eq_some_iff.1 h).1

theorem parseIntArg_atoi {intSize : Nat} {s : List Char} {n m : Int} (hn : parseIntArg s = some n) (hm : atoi intSize s = some m) :
    m = n := by
  have hsigned : parseSigned s = some m := (Option.filter_eq_some_iff.1 hm).1
  have htrim : trimChars s = s := trimChars_self fun c hc => numeralChar_blank (parseSigned_numeral hsigned c hc)
  have hn' : parseSigned (trimChars s) = some n := parseI64_signed hn
  rw [htrim, hsigned] at hn'
  exact Option.some.inj hn'

/-! ## Floats -/

/-- One decimal, rounded to an f64 and to a float32. -/
def Rounds (x : F64) (y : F32) : Prop := ∃ neg digits exp, x = F64.ofDecimal neg digits exp ∧ y = F32.ofDecimal neg digits exp

theorem parseNumber_eq (neg : Bool) (s : List Char) :
    F64.parseNumber neg s = (decimal s).map fun d => F64.ofDecimal neg d.1 d.2 := by
  have hmap : ∀ (f : Nat → Int → F64) (A : Prop) [Decidable A] (v : Nat) (k : Int) (e : Option Int),
      (if A then none else e.map fun e => f v (e - k)) = (if A then none else e.map fun e => (v, e - k)).map fun d => f d.1 d.2 := by
    intro f A _ v k e
    by_cases hA : A
    · rw [if_pos hA, if_pos hA]
      rfl
    · rw [if_neg hA, if_neg hA, Option.map_map]
      rfl
  exact hmap (F64.ofDecimal neg) _ _ _ _

/-- The digits, with their point if there is one, and the rest. -/
theorem mantissa_split (digit : Char → Bool) (s : List Char) :
    let m := mantissa digit s
    (s = m.1 ++ m.2.2 ∧ m.2.1 = [] ∨ s = m.1 ++ '.' :: (m.2.1 ++ m.2.2)) ∧ (∀ c ∈ m.1, digit c = true) ∧ ∀ c ∈ m.2.1, digit c = true := by
  have hs : s.takeWhile digit ++ s.dropWhile digit = s := List.takeWhile_append_dropWhile
  unfold mantissa
  generalize s.dropWhile digit = rest at hs
  dsimp only
  refine ⟨?_, fun c hc => List.mem_takeWhile_imp hc, ?_⟩
  · split
    · rename_i t
      right
      rw [List.takeWhile_append_dropWhile, hs]
    · exact .inl ⟨hs.symm, rfl⟩
  · split
    · exact fun c hc => List.mem_takeWhile_imp hc
    · exact fun c hc => by cases hc

theorem parseExponent_numeral {s : List Char} {e : Int} (h : F64.parseExponent s = some e) : ∀ c ∈ s, numeralChar c = true := by
  cases s with
  | nil => exact fun c hc => by cases hc
  | cons c rest =>
    simp only [F64.parseExponent] at h
    split at h
    · rename_i he
      split at h
      · rename_i hd
        have hrest : ∀ c ∈ rest, numeralChar c = true :=
          takeSign_numeral fun c hc => numeralChar_digit (List.all_eq_true.1 hd.2 c hc)
        have hc : numeralChar c = true := by rcases he with rfl | rfl <;> rfl
        exact List.forall_mem_cons.2 ⟨hc, hrest⟩
      · cases h
    · cases h

theorem decimal_numeral {s : List Char} {d : Nat × Int} (h : decimal s = some d) : ∀ c ∈ s, numeralChar c = true := by
  obtain ⟨hsplit, hwhole, hfrac⟩ := mantissa_split Char.isDigit s
  simp only [decimal] at h
  split at h
  · cases h
  · obtain ⟨e, he, -⟩ := Option.map_eq_some_iff.1 h
    have htail := parseExponent_numeral he
    intro c hc
    rcases hsplit with ⟨hs, -⟩ | hs
    · rw [hs] at hc
      exact (List.mem_append.1 hc).elim (fun hc => numeralChar_digit (hwhole c hc)) (htail c)
    · rw [hs] at hc
      rcases List.mem_append.1 hc with hc | hc
      · exact numeralChar_digit (hwhole c hc)
      · rcases List.mem_cons.1 hc with rfl | hc
        · rfl
        · exact (List.mem_append.1 hc).elim (fun hc => numeralChar_digit (hfrac c hc)) (htail c)

/-- What Rust reads as a finite number is a decimal. -/
theorem parse_finite {s : List Char} {x : F64} (h : F64.parse s = some x) (hx : x.isFinite = true) :
    ∃ d, decimal (F64.takeSign s).2 = some d ∧ x = F64.ofDecimal (F64.takeSign s).1 d.1 d.2 := by
  simp only [F64.parse] at h
  split at h
  · cases h
    cases hx
  · split at h
    · cases h
      cases hx
    · rw [parseNumber_eq] at h
      obtain ⟨d, hd, rfl⟩ := Option.map_eq_some_iff.1 h
      exact ⟨d, hd, rfl⟩

/-- What Go reads, if it has no other characters, is a decimal too. -/
theorem parseFloat_plain {s : List Char} {y : F32} (h : parseFloat s = some y) (hs : ∀ c ∈ s, Plain c) :
    y.isFinite = true ∧ ∃ d, decimal (F64.takeSign s).2 = some d ∧ y = F32.ofDecimal (F64.takeSign s).1 d.1 d.2 := by
  have hbody : ∀ c ∈ (F64.takeSign s).2, Plain c := fun c hc => hs c (takeSign_mem hc)
  have hword : ∀ {t w : List Char}, (∀ c ∈ t, Plain c) → 'n' ∈ w → t.map Char.toLower ≠ w := by
    intro t w ht hw heq
    rw [← heq] at hw
    obtain ⟨c, hc, hlow⟩ := List.mem_map.1 hw
    exact plain_toLower (u := 'N') (by decide) (ht c hc) (by decide) (by decide) hlow
  have hunder : '_' ∉ (F64.takeSign s).2 := fun hm => absurd (hbody _ hm) (by decide)
  have hfilter : (F64.takeSign s).2.filter (· ≠ '_') = (F64.takeSign s).2 := by
    rw [List.filter_eq_self]
    intro c hc
    have hne : c ≠ '_' := by
      rintro rfl
      exact hunder hc
    simpa using hne
  have hread : readFloat (F64.takeSign s).1 (F64.takeSign s).2 =
      (decimal (F64.takeSign s).2).map fun d => F32.ofDecimal (F64.takeSign s).1 d.1 d.2 := by
    unfold readFloat
    split
    · rename_i c d rest heq
      have hc : Plain c := hbody c (by rw [heq]; simp)
      rw [if_neg (plain_toLower (u := 'X') (by decide) hc (by decide) (by decide))]
    · rfl
  simp only [parseFloat, hfilter, hread] at h
  rw [if_neg, if_neg (hword hs (by decide)), if_neg (by simpa using fun hm => absurd hm hunder)] at h
  · obtain ⟨hmap, hfin⟩ := Option.filter_eq_some_iff.1 h
    obtain ⟨d, hd, rfl⟩ := Option.map_eq_some_iff.1 hmap
    exact ⟨hfin, d, hd, rfl⟩
  · rintro (hw | hw)
    · exact hword hbody (by decide) hw
    · exact hword hbody (by decide) hw

theorem parseFloatArg_spec {s : List Char} {x : F64} (h : parseFloatArg s = some x) :
    (∃ d, decimal (F64.takeSign (trimChars s)).2 = some d ∧ x = F64.ofDecimal (F64.takeSign (trimChars s)).1 d.1 d.2) ∧
      ∀ c ∈ trimChars s, numeralChar c = true := by
  obtain ⟨hparse, hfin⟩ := Option.filter_eq_some_iff.1 h
  obtain ⟨d, hd, hx⟩ := parse_finite hparse hfin
  exact ⟨⟨d, hd, hx⟩, takeSign_numeral (decimal_numeral hd)⟩

theorem parseFloatArg_plain {s : List Char} {x : F64} (h : parseFloatArg s = some x) : ∀ c ∈ s, Plain c := by
  obtain ⟨a, b, hs, ha, hb⟩ := trimChars_split s
  intro c hc
  rw [hs] at hc
  rcases List.mem_append.1 hc with hc | hc
  · exact .inr (ha c hc)
  · rcases List.mem_append.1 hc with hc | hc
    · exact .inl ((parseFloatArg_spec h).2 c hc)
    · exact .inr (hb c hc)

theorem parseFloatArg_parseFloat {s : List Char} {x : F64} {y : F32} (hx : parseFloatArg s = some x) (hy : parseFloat s = some y) :
    Rounds x y ∧ y.isFinite = true := by
  obtain ⟨hfin, d, hd, hy'⟩ := parseFloat_plain hy (parseFloatArg_plain hx)
  -- Go takes no blanks, so there was nothing to trim
  have htrim : trimChars s = s := trimChars_self fun c hc => numeralChar_blank (takeSign_numeral (decimal_numeral hd) c hc)
  obtain ⟨⟨d', hd', hx'⟩, -⟩ := parseFloatArg_spec hx
  rw [htrim, hd] at hd'
  cases hd'
  rw [htrim] at hx'
  exact ⟨⟨_, _, _, hx', hy'⟩, hfin⟩

/-! ## Bounds -/

theorem round_eq (neg : Bool) (num den : Nat) :
    F32.round neg num den = if 2 ^ 277 ≤ nearest 23 num den then .inf neg else .fin (signed neg (nearest 23 num den)) := by
  rw [F32.round]
  rfl

theorem round_finite {neg : Bool} {num den : Nat} (h : (F32.round neg num den).isFinite = true) :
    F32.round neg num den = .fin (signed neg (nearest 23 num den)) := by
  rw [round_eq] at h ⊢
  by_cases hn : 2 ^ 277 ≤ nearest 23 num den
  · rw [if_pos hn] at h
    cases h
  · rw [if_neg hn]

theorem two_pow_add {a b c : Nat} (h : a = b + c) : 2 ^ a = 2 ^ b * 2 ^ c := by rw [h, Nat.pow_add]

theorem two_pow_split : 2 ^ 1074 = 2 ^ 149 * 2 ^ (924 + 1) := two_pow_add (by decide)

/-- The f64 is the finer rounding of the same fraction. -/
theorem ofDecimal_f64 (neg : Bool) (digits : Nat) (exp : Int) :
    F64.ofDecimal neg digits exp = .inf neg ∨
      F64.ofDecimal neg digits exp =
        .fin (signed neg (nearest 52 (digits * 10 ^ exp.toNat * 2 ^ 149 * 2 ^ (924 + 1)) (10 ^ (-exp).toNat))) := by
  rw [Nat.mul_assoc _ (2 ^ 149), ← two_pow_split]
  unfold F64.ofDecimal
  dsimp only
  generalize nearest 52 _ _ = n
  split
  · left
    rfl
  · right
    rw [signed]

theorem cast_two_pow (a : Nat) : (2 : Int) ^ a = (2 ^ a : Nat) := by
  rw [Nat.cast_pow, Nat.cast_ofNat]

theorem cast_two_pow_add {a b c : Nat} (h : a = b + c) : (2 : Int) ^ a = (2 ^ b * 2 ^ c : Nat) := by
  rw [cast_two_pow, two_pow_add h]

/-- Bounds that the f64 keeps are kept by the float32. -/
theorem Rounds.between {x : F64} {y : F32} (h : Rounds x y) (hy : y.isFinite = true) {lo hi : Int} (hlo : lo.natAbs < 2 ^ 24)
    (hhi : hi.natAbs < 2 ^ 24) (hx : floatIn lo hi x = true) : y.Between lo hi := by
  obtain ⟨neg, digits, exp, hx', hy'⟩ := h
  have hd : 0 < 10 ^ (-exp).toNat := Nat.pow_pos (by decide)
  rw [hy', F32.ofDecimal] at hy ⊢
  rw [hx'] at hx
  rw [round_finite hy]
  rcases ofDecimal_f64 neg digits exp with hinf | hfin
  · rw [hinf] at hx
    cases hx
  · rw [hfin] at hx
    obtain ⟨hge, hle⟩ := of_decide_eq_true hx
    rw [cast_two_pow_add (by decide : 1074 = 149 + (924 + 1))] at hge hle
    have hge' := le_signed_of_finer hd (by decide : 23 < 52) hlo hge
    have hle' := signed_le_of_finer hd (by decide : 23 < 52) hhi hle
    rw [← cast_two_pow] at hge' hle'
    exact ⟨_, rfl, hge', hle'⟩

theorem round_between {num den lo hi : Nat} (hd : 0 < den) (hhi : hi < 2 ^ 24) (hlh : lo ≤ hi) (hge : lo * 2 ^ 149 * den ≤ num)
    (hle : num ≤ hi * 2 ^ 149 * den) : (F32.round false num den).Between lo hi := by
  have hbelow : nearest 23 num den ≤ hi * 2 ^ 149 := nearest_le hd (fits_mul_pow hhi _) hle
  have habove : lo * 2 ^ 149 ≤ nearest 23 num den := le_nearest hd (fits_mul_pow (Nat.lt_of_le_of_lt hlh hhi) _) hge
  have hfits : ¬2 ^ 277 ≤ nearest 23 num den := by
    have htop : 2 ^ 277 = 2 ^ 128 * 2 ^ 149 := two_pow_add (by decide)
    have hhi' : hi * 2 ^ 149 < 2 ^ 128 * 2 ^ 149 := Nat.mul_lt_mul_of_pos_right (Nat.lt_trans hhi (by decide)) (Nat.two_pow_pos _)
    rw [htop]
    exact Nat.not_le_of_lt (Nat.lt_of_le_of_lt hbelow hhi')
  have hsigned : signed false (nearest 23 num den) = (nearest 23 num den : Int) := rfl
  refine ⟨signed false (nearest 23 num den), by rw [round_eq, if_neg hfits], ?_⟩
  rw [cast_two_pow, hsigned]
  exact ⟨by exact_mod_cast habove, by exact_mod_cast hbelow⟩

/-- Whole bounds of a fraction of float32 units bound its rounding. -/
theorem ofFraction_between {num : Int} {den lo hi : Nat} (hd : 0 < den) (hhi : hi < 2 ^ 24) (hlh : lo ≤ hi)
    (h : lo * 2 ^ 149 * den ≤ num ∧ num ≤ hi * 2 ^ 149 * den) : (F32.ofFraction num den).Between lo hi := by
  rw [cast_two_pow] at h
  have hnum : 0 ≤ num := Int.le_trans (by exact_mod_cast Nat.zero_le _) h.1
  have hcast : num = (num.natAbs : Int) := (Int.natAbs_of_nonneg hnum).symm
  rw [hcast] at h
  rw [F32.ofFraction, decide_eq_false (Int.not_lt.2 hnum)]
  exact round_between hd hhi hlh (by exact_mod_cast h.1) (by exact_mod_cast h.2)

/-- Fahrenheit within bounds, Celsius within bounds. -/
theorem celsius_between {x : F32} (h : x.Between 59 82) : (((x.sub 32).mul 5).div 9).Between 15 28 := by
  have hsub : (x.sub 32).Between (27 : Nat) (50 : Nat) := by
    obtain ⟨n, rfl, hn⟩ := h
    exact ofFraction_between (by decide) (by decide) (by decide) (by push_cast; omega)
  have hmul : ((x.sub 32).mul 5).Between (135 : Nat) (250 : Nat) := by
    obtain ⟨n, hx, hn⟩ := hsub
    rw [hx]
    exact ofFraction_between (by decide) (by decide) (by decide) (by push_cast at *; omega)
  have hdiv : (((x.sub 32).mul 5).div 9).Between (15 : Nat) (28 : Nat) := by
    obtain ⟨n, hx, hn⟩ := hmul
    rw [hx]
    exact ofFraction_between (by decide) (by decide) (by decide) (by push_cast at *; omega)
  exact hdiv

/-! ## A number and its unit -/

theorem accept_append (p : Char → Bool) (s : Scan) : (accept p s).2.1 ++ (accept p s).2.2 = s.1 ++ s.2 := by
  obtain ⟨buf, rest⟩ := s
  cases rest with
  | nil => rfl
  | cons c rest =>
    simp only [accept]
    split
    · simp
    · rfl

theorem acceptAll_append (p : Char → Bool) (s : Scan) : (acceptAll p s).1 ++ (acceptAll p s).2 = s.1 ++ s.2 := by
  simp only [acceptAll, List.append_assoc, List.takeWhile_append_dropWhile]

theorem acceptWord_append (ps : List (Char → Bool)) (s : Scan) : (acceptWord ps s).2.1 ++ (acceptWord ps s).2.2 = s.1 ++ s.2 := by
  induction ps generalizing s with
  | nil => rfl
  | cons p ps ih =>
    have hstep := accept_append p s
    simp only [acceptWord]
    split
    · rename_i s' heq
      rw [heq] at hstep
      rw [ih s']
      exact hstep
    · rename_i s' heq
      rw [heq] at hstep
      exact hstep

theorem acceptFraction_append (digits : Char → Bool) (s : Scan) :
    (acceptFraction digits s).1 ++ (acceptFraction digits s).2 = s.1 ++ s.2 := by
  simp only [acceptFraction]
  split
  · rw [acceptAll_append, accept_append]
  · rw [accept_append]

theorem acceptExponent_append (exp : Char → Bool) (s : Scan) : (acceptExponent exp s).1 ++ (acceptExponent exp s).2 = s.1 ++ s.2 := by
  simp only [acceptExponent]
  split
  · rw [acceptAll_append, accept_append, accept_append]
  · rw [accept_append]

/-- The token and what is left are the text. -/
theorem floatToken_append (text : List Char) : (floatToken text).1 ++ (floatToken text).2 = text := by
  have hnan := acceptWord_append [oneOf "nN", oneOf "aA", oneOf "nN"] ([], text)
  rw [List.nil_append] at hnan
  simp only [floatToken]
  split
  · exact hnan
  · split
    · rw [acceptWord_append, accept_append, hnan]
    · rw [acceptExponent_append, acceptFraction_append, acceptAll_append, acceptWord_append, acceptWord_append, accept_append, hnan]

theorem skipSpace_split {s t : List Char} (h : skipSpace s = some t) : ∃ w, s = w ++ t ∧ ∀ c ∈ w, isWhitespace c = true := by
  rw [skipSpace] at h
  split at h
  · cases h
  · cases h
    exact ⟨s.takeWhile isWhitespace, List.takeWhile_append_dropWhile.symm, fun c hc => List.mem_takeWhile_imp hc⟩

/-- Blanks, a token that reads as the number, blanks, the word, and what is not read. -/
theorem sscanf_split {intSize : Nat} {s u : List Char} {y : F32} (h : sscanf intSize s = some (y, u)) :
    ∃ w token w' rest, s = w ++ (token ++ (w' ++ (u ++ rest))) ∧ (∀ c ∈ w, isWhitespace c = true) ∧
      (∀ c ∈ w', isWhitespace c = true) ∧ convertFloat intSize token = some y := by
  simp only [sscanf] at h
  split at h
  · cases h
  · cases h
  · rename_i t _ hskip
    split at h
    · rename_i f c rest hconv hskip'
      cases h
      obtain ⟨w, hs, hw⟩ := skipSpace_split hskip
      obtain ⟨w', hrest, hw'⟩ := skipSpace_split hskip'
      refine ⟨w, (floatToken t).1, w', (c :: rest).dropWhile fun c => !isWhitespace c, ?_, hw, hw', hconv⟩
      rw [List.takeWhile_append_dropWhile, ← hrest, floatToken_append, ← hs]
    · cases h

/-- Only one character is c: both sides of it are the same. -/
theorem append_cons_unique {α : Type} [DecidableEq α] {c : α} {l r m n : List α} (hl : c ∉ l) (hr : c ∉ r)
    (h : l ++ c :: r = m ++ c :: n) : l = m := by
  induction l generalizing m with
  | nil =>
    cases m with
    | nil => rfl
    | cons d m =>
      obtain ⟨rfl, htail⟩ := List.cons.inj h
      exact absurd (htail ▸ List.mem_append_right m List.mem_cons_self) hr
  | cons d l ih =>
    cases m with
    | nil => exact absurd (List.cons.inj h).1 (fun hd => hl (hd ▸ List.mem_cons_self))
    | cons e m =>
      obtain ⟨rfl, htail⟩ := List.cons.inj h
      rw [ih (fun hm => hl (List.mem_cons_of_mem d hm)) htail]

theorem trimChars_blanks {w w' s : List Char} (hw : ∀ c ∈ w, isWhitespace c = true) (hw' : ∀ c ∈ w', isWhitespace c = true)
    (hs : ∀ c ∈ s, isWhitespace c = false) : trimChars (w ++ (s ++ w')) = s := by
  have hfront : (s ++ w').dropWhile isWhitespace = s ++ w' ∨ s = [] := by
    cases s with
    | nil => exact .inr rfl
    | cons c s => exact .inl (List.dropWhile_cons_of_neg (by simp [hs c List.mem_cons_self]))
  rw [trimChars, List.dropWhile_append_of_pos hw]
  rcases hfront with hfront | rfl
  · rw [hfront, List.rdropWhile, List.reverse_append, List.dropWhile_append_of_pos (by simpa using hw')]
    have hself : s.reverse.dropWhile isWhitespace = s.reverse := by
      rw [List.dropWhile_eq_self_iff]
      intro hl
      rw [hs _ (List.mem_reverse.1 (List.getElem_mem hl))]
      exact Bool.false_ne_true
    rw [hself, List.reverse_reverse]
  · have hnil : w'.dropWhile isWhitespace = [] := List.dropWhile_eq_nil_iff.2 hw'
    rw [List.nil_append, hnil]
    rfl

theorem stripUnit_cases (s : List Char) :
    (stripUnit s).2 = none ∧ (stripUnit s).1 = trimChars s ∨
      ∃ c, (stripUnit s).2 = some c ∧ c.isAlpha = true ∧ trimChars s = (stripUnit s).1 ++ [c] := by
  unfold stripUnit
  dsimp only
  cases hl : (trimChars s).getLast? with
  | none => exact .inl ⟨rfl, rfl⟩
  | some c =>
    by_cases hc : c.isAlpha = true
    · have happend : trimChars s = (trimChars s).dropLast ++ [c] := (List.dropLast_append_getLast? c hl).symm
      simp only [hc, if_true]
      exact .inr ⟨c, rfl, hc, happend⟩
    · simp only [hc]
      exact .inl ⟨rfl, rfl⟩

/-- A number and a one letter unit, for both sides. -/
theorem stripUnit_sscanf {intSize : Nat} {s : List Char} {x : F64} {y : F32} {c : Char} (hc : ¬ Plain c)
    (hx : parseFloatArg (stripUnit s).1 = some x) (hy : sscanf intSize s = some (y, [c])) :
    (stripUnit s).2 = some c ∧ Rounds x y ∧ y.isFinite = true := by
  obtain ⟨w, token, w', rest, hs, hw, hw', hconv⟩ := sscanf_split hy
  obtain ⟨a, b, hs', ha, hb⟩ := trimChars_split s
  have hnum := parseFloatArg_plain hx
  have hmem : c ∈ s := by
    rw [hs]
    simp
  have hblank : ∀ {l : List Char}, (∀ d ∈ l, isWhitespace d = true) → c ∉ l := fun hl hm => hc (.inr (hl c hm))
  rcases stripUnit_cases s with ⟨-, htrim⟩ | ⟨d, hunit, -, htrim⟩
  · -- without a unit there is no letter to read
    rw [htrim] at hnum
    rw [hs'] at hmem
    rcases List.mem_append.1 hmem with hm | hm
    · exact absurd hm (hblank ha)
    · rcases List.mem_append.1 hm with hm | hm
      · exact absurd (hnum c hm) hc
      · exact absurd hm (hblank hb)
  · have hcn : c ∉ (stripUnit s).1 := fun hm => hc (hnum c hm)
    rw [htrim, List.append_assoc, List.singleton_append] at hs'
    have hd : d = c := by
      rw [hs'] at hmem
      rcases List.mem_append.1 hmem with hm | hm
      · exact absurd hm (hblank ha)
      · rcases List.mem_append.1 hm with hm | hm
        · exact absurd hm hcn
        · rcases List.mem_cons.1 hm with hm | hm
          · exact hm.symm
          · exact absurd hm (hblank hb)
    subst hd
    have hsplit : (a ++ (stripUnit s).1) ++ d :: b = (w ++ (token ++ w')) ++ d :: rest := by
      rw [List.append_assoc, ← hs', hs]
      simp
    have hfront : a ++ (stripUnit s).1 = w ++ (token ++ w') :=
      append_cons_unique (by simp [hblank ha, hcn]) (hblank hb) hsplit
    have hplain : ∀ e ∈ token, Plain e := by
      intro e he
      have hm : e ∈ a ++ (stripUnit s).1 := by
        rw [hfront]
        simp [he]
      exact (List.mem_append.1 hm).elim (fun hm => .inr (ha e hm)) (hnum e)
    have hconv' : parseFloat token = some y := by
      have hp : token.contains 'p' = false := by
        by_contra hp
        exact absurd (hplain 'p' (by simpa using hp)) (by decide)
      rw [convertFloat, hp] at hconv
      exact hconv
    obtain ⟨-, e, he, -⟩ := parseFloat_plain hconv' hplain
    have hsolid : ∀ e ∈ token, isWhitespace e = false := fun e hm => numeralChar_blank (takeSign_numeral (decimal_numeral he) e hm)
    have htoken : trimChars (stripUnit s).1 = token :=
      calc trimChars (stripUnit s).1 = trimChars (a ++ (stripUnit s).1) := by rw [trimChars, trimChars, List.dropWhile_append_of_pos ha]
        _ = trimChars (w ++ (token ++ w')) := by rw [hfront]
        _ = token := trimChars_blanks hw hw' hsolid
    have hx' : parseFloatArg token = some x := by
      rw [parseFloatArg, htoken] at hx
      rw [parseFloatArg, trimChars_self hsolid]
      exact hx
    exact ⟨hunit, parseFloatArg_parseFloat hx' hconv'⟩

/-! ## Durations -/

theorem digit_blank {c : Char} (h : c.isDigit = true) : isWhitespace c = false := numeralChar_blank (numeralChar_digit h)

theorem unitMap_solid {u : List Char} {unit : Nat} (h : unitMap u = some unit) : ∀ c ∈ u, isWhitespace c = false := by
  have htable : ∀ e ∈ units, (e.1.toList.all fun c => !isWhitespace c) = true := by decide
  obtain ⟨e, hfind, -⟩ := Option.map_eq_some_iff.1 h
  have he : e.1.toList = u := by simpa using List.find?_some hfind
  rw [← he]
  intro c hc
  have hsolid := List.all_eq_true.1 (htable e (List.mem_of_find?_eq_some hfind)) c hc
  simpa using hsolid

/-- What a term takes holds no blanks. -/
theorem durationTerm_solid {s rest : List Char} {nanos : Nat} (h : durationTerm s = some (nanos, rest))
    (hrest : ∀ c ∈ rest, isWhitespace c = false) : ∀ c ∈ s, isWhitespace c = false := by
  obtain ⟨hsplit, hwhole, hfrac⟩ := mantissa_split Char.isDigit s
  simp only [durationTerm] at h
  split at h
  · cases h
  · split at h
    · cases h
    · split at h
      · cases h
      · rename_i unit hunit
        split at h
        · cases h
        · split at h
          · cases h
          · have hr : (mantissa Char.isDigit s).2.2.dropWhile unitChar = rest := congrArg Prod.snd (Option.some.inj h)
            have htail : ∀ c ∈ (mantissa Char.isDigit s).2.2, isWhitespace c = false := by
              intro c hc
              rw [← List.takeWhile_append_dropWhile (p := unitChar) (l := (mantissa Char.isDigit s).2.2), hr] at hc
              exact (List.mem_append.1 hc).elim (unitMap_solid hunit c) (hrest c)
            intro c hc
            rcases hsplit with ⟨hs, -⟩ | hs
            · rw [hs] at hc
              exact (List.mem_append.1 hc).elim (fun hc => digit_blank (hwhole c hc)) (htail c)
            · rw [hs] at hc
              rcases List.mem_append.1 hc with hc | hc
              · exact digit_blank (hwhole c hc)
              · rcases List.mem_cons.1 hc with rfl | hc
                · rfl
                · exact (List.mem_append.1 hc).elim (fun hc => digit_blank (hfrac c hc)) (htail c)

theorem durationScan_solid {fuel d r : Nat} {s : List Char} (h : durationScan fuel d s = some r) : ∀ c ∈ s, isWhitespace c = false := by
  induction fuel generalizing d s with
  | zero =>
    cases s with
    | nil => exact fun c hc => by cases hc
    | cons c s => cases h
  | succ fuel ih =>
    cases s with
    | nil => exact fun c hc => by cases hc
    | cons c s =>
      simp only [durationScan] at h
      split at h
      · cases h
      · rename_i nanos rest hterm
        split at h
        · cases h
        · exact durationTerm_solid hterm (ih h)

/-- A duration holds no blanks. -/
theorem parseDuration_solid {s : List Char} {d : Int} (h : parseDuration s = some d) : ∀ c ∈ s, isWhitespace c = false := by
  have hbody : ∀ c ∈ (F64.takeSign s).2, isWhitespace c = false := by
    simp only [parseDuration] at h
    split at h
    · rename_i hzero
      intro c hc
      rw [hzero, List.mem_singleton] at hc
      rw [hc]
      rfl
    · split at h
      · cases h
      · split at h
        · cases h
        · rename_i hscan
          exact durationScan_solid hscan
  obtain ⟨hs, -⟩ | ⟨hs, -⟩ | ⟨hs, -⟩ := takeSign_split s
  · rwa [← hs] at hbody
  · rw [hs]
    exact List.forall_mem_cons.2 ⟨by decide, hbody⟩
  · rw [hs]
    exact List.forall_mem_cons.2 ⟨by decide, hbody⟩

/-- Without a minus sign it is not negative. -/
theorem parseDuration_nonneg {s : List Char} {d : Int} (h : parseDuration s = some d) (hs : (trimChars s).head? ≠ some '-') : 0 ≤ d := by
  rw [trimChars_self (parseDuration_solid h)] at hs
  have hneg := takeSign_nonneg hs
  simp only [parseDuration, hneg] at h
  split at h
  · cases h
    decide
  · split at h
    · cases h
    · split at h
      · cases h
      · split at h
        · rename_i hfalse
          exact absurd hfalse Bool.false_ne_true
        · split at h
          · cases h
          · cases h
            exact Int.natCast_nonneg _

/-- A DELAY in seconds: no unit, or s. -/
def InSeconds (arg : List Char) : Prop := (stripUnit arg).2.map Char.toLower = some 's' ∨ (stripUnit arg).2 = none

instance (arg : List Char) : Decidable (InSeconds arg) := inferInstanceAs (Decidable (_ ∨ _))

theorem takeSign_concat {s : List Char} (hs : s ≠ []) (c : Char) : F64.takeSign (s ++ [c]) = ((F64.takeSign s).1, (F64.takeSign s).2 ++ [c]) := by
  cases s with
  | nil => exact absurd rfl hs
  | cons d s =>
    by_cases hm : d = '-'
    · subst hm
      rfl
    · by_cases hp : d = '+'
      · subst hp
        rfl
      · have hplain : ∀ t, F64.takeSign (d :: t) = (false, d :: t) := by
          intro t
          unfold F64.takeSign
          split
          · rename_i heq
            exact absurd (List.cons.inj heq).1 hm
          · rename_i heq
            exact absurd (List.cons.inj heq).1 hp
          · rfl
        rw [List.cons_append, hplain, hplain]
        rfl

/-- Digits and one letter. -/
theorem mantissa_digits {ds : List Char} (hds : ∀ c ∈ ds, c.isDigit = true) (tail : List Char)
    (ht : ∀ c ∈ tail, c.isDigit = false ∧ c ≠ '.') : mantissa Char.isDigit (ds ++ tail) = (ds, [], tail) := by
  have htake : (ds ++ tail).takeWhile Char.isDigit = ds := by
    rw [List.takeWhile_append_of_pos hds]
    cases tail with
    | nil => simp
    | cons c tail => simp [(ht c List.mem_cons_self).1]
  have hdrop : (ds ++ tail).dropWhile Char.isDigit = tail := by
    rw [List.dropWhile_append_of_pos hds]
    cases tail with
    | nil => rfl
    | cons c tail => simp [(ht c List.mem_cons_self).1]
  unfold mantissa
  rw [htake, hdrop]
  cases tail with
  | nil => rfl
  | cons c tail =>
    have hc := (ht c List.mem_cons_self).2
    dsimp only
    split
    · rename_i heq
      exact absurd (List.cons.inj heq).1 hc
    · rfl

/-- Digits without a unit are no duration. -/
theorem durationScan_bare {ds : List Char} (hne : ds ≠ []) (hds : ∀ c ∈ ds, c.isDigit = true) (fuel d : Nat) :
    durationScan fuel d ds = none := by
  have hm := mantissa_digits hds [] (fun c hc => by cases hc)
  rw [List.append_nil] at hm
  have hunit : unitMap (([] : List Char).takeWhile unitChar) = none := by decide
  have hterm : durationTerm ds = none := by
    simp only [durationTerm, hm, hunit]
    split
    · rfl
    · split <;> rfl
  cases ds with
  | nil => exact absurd rfl hne
  | cons c ds =>
    cases fuel with
    | zero => rfl
    | succ fuel => simp only [durationScan, hterm]

theorem durationTerm_seconds {ds : List Char} (hne : ds ≠ []) (hds : ∀ c ∈ ds, c.isDigit = true) (hv : F64.digitsValue ds ≤ 3600) :
    durationTerm (ds ++ ['s']) = some (F64.digitsValue ds * second, []) := by
  have hm := mantissa_digits hds ['s'] (List.forall_mem_singleton.2 (by decide))
  have hunit : unitMap (['s'].takeWhile unitChar) = some second := by decide
  have hrest : ['s'].dropWhile unitChar = [] := by decide
  have hnanos : termNanos (F64.digitsValue ds) second (leadingFraction 0 0 []) = F64.digitsValue ds * second := by
    simp [termNanos, leadingFraction]
  have hmost : 2 ^ 63 / second = 9223372036 := by decide
  have hsum : F64.digitsValue ds * second ≤ 3600 * second := Nat.mul_le_mul_right _ hv
  have hsecond : 3600 * second < 2 ^ 63 := by decide
  simp only [durationTerm, hm, hunit, hrest, hnanos, hmost]
  rw [if_neg (by omega), if_neg (by simp [hne]), if_neg (by omega), if_neg (by omega)]

/-- Digits and an s are so many seconds. -/
theorem durationScan_unit {ds : List Char} {c : Char} (hne : ds ≠ []) (hds : ∀ c ∈ ds, c.isDigit = true)
    (hc : c.toLower = 's') (hv : F64.digitsValue ds ≤ 3600) {fuel r : Nat} (h : durationScan fuel 0 (ds ++ [c]) = some r) :
    r = F64.digitsValue ds * second := by
  obtain ⟨e, rest, hcons⟩ : ∃ e rest, ds ++ [c] = e :: rest := by
    cases ds with
    | nil => exact ⟨c, [], rfl⟩
    | cons e ds => exact ⟨e, ds ++ [c], rfl⟩
  cases fuel with
  | zero =>
    rw [hcons] at h
    cases h
  | succ fuel =>
    simp only [hcons, durationScan] at h
    rw [← hcons] at h
    rcases of_toLower (u := 'S') (by decide) hc with rfl | rfl
    · have hsum : F64.digitsValue ds * second ≤ 3600 * second := Nat.mul_le_mul_right _ hv
      have hsecond : 3600 * second < 2 ^ 63 := by decide
      have hmod : (0 + F64.digitsValue ds * second) % 2 ^ 64 = F64.digitsValue ds * second := by
        rw [Nat.zero_add]
        exact Nat.mod_eq_of_lt (by omega)
      simp only [durationTerm_seconds hne hds hv, hmod] at h
      rw [if_neg (by omega)] at h
      cases fuel <;> exact (Option.some.inj h).symm
    · have hm := mantissa_digits hds ['S'] (List.forall_mem_singleton.2 (by decide))
      have hunit : unitMap (['S'].takeWhile unitChar) = none := by decide
      have hterm : durationTerm (ds ++ ['S']) = none := by
        simp only [durationTerm, hm, hunit]
        split
        · rfl
        · split <;> rfl
      simp only [hterm] at h
      cases h

/-- Unsigned digits read as an integer. -/
theorem parseSigned_unsigned {s : List Char} {n : Int} (h : parseSigned s = some n) (hs : s.head? ≠ some '-') :
    (F64.takeSign s).1 = false ∧ n = F64.digitsValue (F64.takeSign s).2 := by
  have hneg := takeSign_nonneg hs
  have hn := (parseSigned_spec h).2.2
  rw [hneg] at hn
  exact ⟨hneg, hn⟩

theorem parseDuration_scan {s : List Char} {d : Int} (h : parseDuration s = some d) (hneg : (F64.takeSign s).1 = false)
    (hzero : (F64.takeSign s).2 ≠ ['0']) :
    ∃ r, durationScan (F64.takeSign s).2.length 0 (F64.takeSign s).2 = some r ∧ d = r := by
  simp only [parseDuration, if_neg hzero, hneg] at h
  split at h
  · cases h
  · split at h
    · cases h
    · rename_i r hscan
      split at h
      · rename_i hfalse
        exact absurd hfalse Bool.false_ne_true
      · split at h
        · cases h
        · exact ⟨r, hscan, (Option.some.inj h).symm⟩

/-- A DELAY that both sides read in seconds: so many seconds. -/
theorem parseDuration_seconds {s : List Char} {v d : Int} (hs : InSeconds s) (hhead : (trimChars s).head? ≠ some '-')
    (hv : parseIntArg (if (stripUnit s).2.isSome then (stripUnit s).1 else s) = some v) (hr : 0 ≤ v ∧ v ≤ 3600)
    (hd : parseDuration s = some d) : d = v * second := by
  have htrim : trimChars s = s := trimChars_self (parseDuration_solid hd)
  rw [htrim] at hhead
  rcases stripUnit_cases s with ⟨hnone, -⟩ | ⟨c, hsome, -, hcat⟩
  · -- bare digits: only 0 is a duration
    rw [hnone] at hv
    have hsigned : parseSigned s = some v := by
      have hp := parseI64_signed hv
      rwa [if_neg (by simp), htrim] at hp
    obtain ⟨hneg, hval⟩ := parseSigned_unsigned hsigned hhead
    obtain ⟨hne, hds, -⟩ := parseSigned_spec hsigned
    by_cases hzero : (F64.takeSign s).2 = ['0']
    · rw [hzero] at hval
      simp only [parseDuration, if_pos hzero] at hd
      cases hd
      rw [hval]
      decide
    · obtain ⟨r, hscan, -⟩ := parseDuration_scan hd hneg hzero
      rw [durationScan_bare hne hds] at hscan
      cases hscan
  · have hc : c.toLower = 's' := by
      rcases hs with hs | hs
      · rw [hsome] at hs
        exact Option.some.inj hs
      · rw [hsome] at hs
        cases hs
    rw [htrim] at hcat
    have hnum : trimChars (stripUnit s).1 = (stripUnit s).1 := by
      apply trimChars_self
      intro e he
      refine parseDuration_solid hd e ?_
      rw [hcat]
      exact List.mem_append_left _ he
    have hsigned : parseSigned (stripUnit s).1 = some v := by
      rw [hsome] at hv
      have hp := parseI64_signed hv
      rwa [if_pos (by rfl), hnum] at hp
    obtain ⟨hne, hds, -⟩ := parseSigned_spec hsigned
    have hnum_ne : (stripUnit s).1 ≠ [] := by
      intro hnil
      rw [hnil] at hne
      exact hne rfl
    have hnum_head : (stripUnit s).1.head? ≠ some '-' := by
      intro hm
      obtain ⟨t, ht⟩ := List.head?_eq_some_iff.1 hm
      rw [ht] at hcat
      rw [hcat] at hhead
      exact hhead rfl
    obtain ⟨hneg, hval⟩ := parseSigned_unsigned hsigned hnum_head
    have hsign := takeSign_concat hnum_ne c
    rw [← hcat] at hsign
    obtain ⟨r, hscan, hdr⟩ := parseDuration_scan hd (by rw [hsign]; exact hneg) (by
      rw [hsign]
      intro hzero
      have hlen := congrArg List.length hzero
      have hpos := List.length_pos_iff.2 hne
      simp only [List.length_append, List.length_singleton] at hlen
      omega)
    rw [hsign] at hscan
    have hle : F64.digitsValue (F64.takeSign (stripUnit s).1).2 ≤ 3600 := by omega
    rw [hdr, durationScan_unit hne hds hc hle hscan, hval]
    push_cast
    rfl

end ElectricEel.Numbers
