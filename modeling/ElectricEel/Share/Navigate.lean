/-
  ElectricEel.Share.Navigate — from an accepted share to the vehicle call (core.rs
  `share_destination`, navigate.go `dispatchNavigate`, navigation_ee.go).

  The printing of a float in Rust and its reading in Go are parameters. The limit on an
  address counts characters in the parser and runes in `dispatchNavigate`, but bytes in
  `NavigateToDestination`, whose error speaks of characters.

  Proved: every accepted destination passes the checks before the connection
  (`navigateShape_accepts`), a position those of `NavigateToGPS` too; an address passes
  `NavigateToDestination` exactly where its trimmed text has at most 2000 bytes
  (`navigate_iff`).
-/
import ElectricEel.Core.Core
import ElectricEel.Share.Pairs

namespace ElectricEel.Share

open Lib Config

structure Printing where
  /-- `format!("{x}")`. -/
  display : F64 → List Char
  /-- `strconv.ParseFloat(.., 64)`; none is an error. -/
  parseFloat : List Char → Option F64
  /-- Go's %v. -/
  verb : F64 → String

/-- What Rust prints of a finite number has no blanks around it, and Go reads the number back. -/
structure Printing.Exact (P : Printing) : Prop where
  trimmed : ∀ x, x.isFinite = true → trimChars (P.display x) = P.display x
  read : ∀ x, x.isFinite = true → P.parseFloat (P.display x) = some x

variable (P : Printing) (U : UrlCrate)

/-! ## share_destination -/

def sentDestination : Destination → Control.Destination
  | .latLon lat lon => .latLon (String.ofList (P.display lat)) (String.ofList (P.display lon))
  | .address a => .address (String.ofList a)

/-- The parser as `Core` calls it. -/
def shareText (text : String) : Except String Control.Destination :=
  match parseSharedText U text.toList with
  | .ok dest => .ok (sentDestination P dest)
  | .error e => .error e.text

/-- The `navigate` arguments. -/
def shareArgs (dest : Destination) : List String := Control.Core.Destination.args (sentDestination P dest)

/-! ## dispatchNavigate -/

def maxNavigateTextLen : Nat := 2000

inductive VehicleCall where
  | navigateToGPS (lat lon : F64) (order : Int)
  | navigateToDestination (destination : List Char)
  deriving DecidableEq, Repr

/-- A finite number. -/
def readNumber (arg : String) : Option F64 :=
  match P.parseFloat (trimChars arg.toList) with
  | some x => if x.isFinite then some x else none
  | none => none

/-- The shape, range and length checks before the connection. -/
def navigateShape (args : List String) : Except String VehicleCall :=
  match args with
  | [] => .error "missing kind argument"
  | kind :: rest =>
    if kind = "gps" then
      match rest with
      | [a, b] =>
        match readNumber P a with
        | none => .error "invalid lat"
        | some lat =>
          match readNumber P b with
          | none => .error "invalid lon"
          | some lon =>
            if !lat.within 90 || !lon.within 180 then .error "coordinates out of range (lat -90..90, lon -180..180)"
            -- the car replaces the trip
            else .ok (.navigateToGPS lat lon 0)
      | _ => .error "gps needs lat and lon"
    else if kind = "address" then
      match rest with
      | [a] =>
        let text := trimChars a.toList
        if text = [] ∨ maxNavigateTextLen < text.length then .error "invalid address text" else .ok (.navigateToDestination text)
      | _ => .error "address needs text"
    else .error "unknown kind (want gps or address)"

/-! ## The vehicle -/

/-- `len` of a Go string. -/
def byteLen (s : List Char) : Nat := (s.map Char.utf8Size).sum

def navOrderUnknown : Int := 0

def navOrderAppend : Int := 3

/-- The checks of `NavigateToGPS` and `NavigateToDestination`. -/
def vehicleCheck : VehicleCall → Except String Unit
  | .navigateToGPS lat lon order =>
    if !lat.within 90 then .error ("invalid latitude " ++ P.verb lat ++ " (want [-90, 90])")
    else if !lon.within 180 then .error ("invalid longitude " ++ P.verb lon ++ " (want [-180, 180])")
    else if order < navOrderUnknown ∨ navOrderAppend < order then .error ("invalid order " ++ toString order ++ " (want 0..3)")
    else .ok ()
  | .navigateToDestination destination =>
    if byteLen destination = 0 ∨ 2000 < byteLen destination then .error "destination must be 1..2000 characters" else .ok ()

/-- The call that reaches the car, or the error of the first check that fails. -/
def navigate (args : List String) : Except String VehicleCall :=
  match navigateShape P args with
  | .error e => .error e
  | .ok call =>
    match vehicleCheck P call with
    | .error e => .error e
    | .ok () => .ok call

/-! ## What passes -/

/-- What an accepted destination asks of the car. -/
def wantedCall : Destination → VehicleCall
  | .latLon lat lon => .navigateToGPS lat lon 0
  | .address a => .navigateToDestination (trimChars a)

/-- The limit as `NavigateToDestination` counts it. -/
def FitsBytes : Destination → Prop
  | .latLon _ _ => True
  | .address a => byteLen (trimChars a) ≤ 2000

variable {P U}

theorem readNumber_display (hP : P.Exact) {x : F64} (hx : x.isFinite = true) :
    readNumber P (String.ofList (P.display x)) = some x := by
  simp only [readNumber, String.toList_ofList, hP.trimmed x hx, hP.read x hx, hx, if_true]

/-- A sound destination passes the checks before the connection. -/
theorem navigateShape_accepts (hP : P.Exact) {dest : Destination} (h : Sound dest) :
    navigateShape P (shareArgs P dest) = .ok (wantedCall dest) := by
  cases dest with
  | latLon lat lon =>
    obtain ⟨⟨hlat, hlat'⟩, hlon, hlon'⟩ := validLatlon_iff.1 h
    simp [navigateShape, shareArgs, sentDestination, Control.Core.Destination.args, readNumber_display hP hlat, readNumber_display hP hlon,
      hlat', hlon', wantedCall]
  | address a =>
    have hlen : (trimChars a).length ≤ maxNavigateTextLen := Nat.le_trans (length_trimChars a) h.2
    have hcheck : ¬(trimChars a = [] ∨ maxNavigateTextLen < (trimChars a).length) := by
      rintro (he | hl)
      · exact h.1 he
      · omega
    simp [navigateShape, shareArgs, sentDestination, Control.Core.Destination.args, if_neg hcheck, wantedCall]

theorem byteLen_pos {s : List Char} (h : s ≠ []) : 0 < byteLen s := by
  cases s with
  | nil => exact absurd rfl h
  | cons c s =>
    have hc : 0 < c.utf8Size := Char.utf8Size_pos c
    simp only [byteLen, List.map_cons, List.sum_cons]
    omega

theorem vehicleCheck_iff {dest : Destination} (h : Sound dest) :
    vehicleCheck P (wantedCall dest) = .ok () ↔ FitsBytes dest := by
  cases dest with
  | latLon lat lon =>
    obtain ⟨⟨_, hlat⟩, _, hlon⟩ := validLatlon_iff.1 h
    simp [vehicleCheck, wantedCall, hlat, hlon, navOrderUnknown, navOrderAppend, FitsBytes]
  | address a =>
    have hpos := byteLen_pos h.1
    simp only [vehicleCheck, wantedCall, FitsBytes]
    by_cases hbig : 2000 < byteLen (trimChars a)
    · rw [if_pos (.inr hbig)]
      simpa using hbig
    · have hno : ¬(byteLen (trimChars a) = 0 ∨ 2000 < byteLen (trimChars a)) := by omega
      rw [if_neg hno]
      simpa using Nat.not_lt.1 hbig

/-- An accepted share reaches the car as it was parsed, up to trimming, exactly where it is
    a position or its trimmed text has at most 2000 bytes. -/
theorem navigate_iff (hU : U.Bounded) (hP : P.Exact) (input : List Char) (dest : Destination)
    (h : parseSharedText U input = .ok dest) :
    navigate P (shareArgs P dest) = .ok (wantedCall dest) ↔ FitsBytes dest := by
  have hsound := parseSharedText_sound hU h
  rw [← vehicleCheck_iff (P := P) hsound]
  unfold navigate
  rw [navigateShape_accepts hP hsound]
  dsimp only
  cases hv : vehicleCheck P (wantedCall dest) with
  | error e => simp
  | ok u => simp

/-! ## Whole numbers -/

/-- An integer in decimal, and a unit behind it. -/
def integerText (k : Int) (suffix : List Char) : List Char :=
  (if k < 0 then ['-'] else []) ++ (Nat.toDigits 10 k.natAbs ++ suffix)

def readInteger (s : List Char) : Int × List Char :=
  let r := F64.takeSign s
  let n : Int := Nat.ofDigitChars 10 (r.2.takeWhile Char.isDigit) 0
  (if r.1 then -n else n, r.2.dropWhile Char.isDigit)

/-- A printing that is Rust's on whole numbers; other numbers are printed as multiples of
    2^-1074, with a unit behind them. -/
def wholeNumbers : Printing where
  display
    | .fin n => if n % 2 ^ 1074 = 0 then integerText (n / 2 ^ 1074) [] else integerText n ['u']
    | _ => []
  parseFloat s :=
    let r := readInteger s
    if s = [] then none else some (if r.2 = [] then F64.ofInt r.1 else .fin r.1)
  verb _ := ""

theorem isDigit_toDigits {n : Nat} {c : Char} (hc : c ∈ Nat.toDigits 10 n) : c.isDigit = true :=
  Nat.isDigit_of_mem_toDigits (by decide) (by decide) hc

theorem readInteger_text (k : Int) {suffix : List Char} (h : suffix = [] ∨ suffix = ['u']) :
    readInteger (integerText k suffix) = (k, suffix) := by
  have hdigits : ∀ c ∈ Nat.toDigits 10 k.natAbs, c.isDigit = true := fun c hc => isDigit_toDigits hc
  have htail : suffix.takeWhile Char.isDigit = [] ∧ suffix.dropWhile Char.isDigit = suffix := by
    rcases h with rfl | rfl <;> decide
  have htake : (Nat.toDigits 10 k.natAbs ++ suffix).takeWhile Char.isDigit = Nat.toDigits 10 k.natAbs := by
    rw [List.takeWhile_append_of_pos hdigits, htail.1, List.append_nil]
  have hdrop : (Nat.toDigits 10 k.natAbs ++ suffix).dropWhile Char.isDigit = suffix := by
    rw [List.dropWhile_append_of_pos hdigits, htail.2]
  by_cases hk : k < 0
  · have habs : -((k.natAbs : Nat) : Int) = k := by omega
    simp only [readInteger, integerText, hk, if_true, List.cons_append, List.nil_append, F64.takeSign, htake, hdrop,
      Nat.ofDigitChars_ten_toDigits, habs]
  · have habs : ((k.natAbs : Nat) : Int) = k := by omega
    simp only [readInteger, integerText, hk, if_false, List.nil_append, F64.takeSign_digits hdigits Nat.toDigits_ne_nil,
      Bool.false_eq_true, htake, hdrop, Nat.ofDigitChars_ten_toDigits, habs]

theorem integerText_ne_nil (k : Int) (suffix : List Char) : integerText k suffix ≠ [] := by
  intro h
  exact Nat.toDigits_ne_nil (List.append_eq_nil_iff.1 (List.append_eq_nil_iff.1 h).2).1

theorem trimChars_of_bare {s : List Char} (h : ∀ c ∈ s, isWhitespace c = false) : trimChars s = s := by
  cases s with
  | nil => rfl
  | cons c s =>
    have hc : isWhitespace c = false := h c List.mem_cons_self
    rw [trimChars, List.dropWhile_cons_of_neg (by simp [hc]), List.rdropWhile_eq_self_iff]
    intro hne
    simpa using h _ (List.getLast_mem hne)

theorem integerText_bare (k : Int) {suffix : List Char} (h : suffix = [] ∨ suffix = ['u']) :
    ∀ c ∈ integerText k suffix, isWhitespace c = false := by
  intro c hc
  have hdigit : ∀ d : Char, d.isDigit = true → isWhitespace d = false := by
    intro d hd
    simp only [Char.isDigit, Bool.and_eq_true, decide_eq_true_eq] at hd
    have hrange : 48 ≤ d.toNat ∧ d.toNat ≤ 57 := hd
    simp only [isWhitespace, Bool.or_eq_false_iff, Bool.and_eq_false_iff, decide_eq_false_iff_not, beq_eq_false_iff_ne]
    omega
  rcases List.mem_append.1 hc with hc | hc
  · split at hc
    · rw [List.mem_singleton.1 hc]
      decide
    · cases hc
  · rcases List.mem_append.1 hc with hc | hc
    · exact hdigit c (isDigit_toDigits hc)
    · rcases h with rfl | rfl
      · cases hc
      · rw [List.mem_singleton.1 hc]
        decide

theorem wholeNumbers_exact : wholeNumbers.Exact := by
  constructor
  · intro x hx
    cases x with
    | nan => cases hx
    | inf b => cases hx
    | fin n =>
      simp only [wholeNumbers]
      split
      · exact trimChars_of_bare (integerText_bare _ (.inl rfl))
      · exact trimChars_of_bare (integerText_bare _ (.inr rfl))
  · intro x hx
    cases x with
    | nan => cases hx
    | inf b => cases hx
    | fin n =>
      simp only [wholeNumbers]
      split
      · rename_i hwhole
        have hn : n / 2 ^ 1074 * 2 ^ 1074 = n := Int.ediv_mul_cancel (Int.dvd_of_emod_eq_zero hwhole)
        rw [if_neg (integerText_ne_nil _ _), readInteger_text _ (.inl rfl), if_pos rfl, F64.ofInt, hn]
      · rw [if_neg (integerText_ne_nil _ _), readInteger_text _ (.inr rfl), if_neg (by simp)]

theorem navigate_iff_point : navigate wholeNumbers (shareArgs wholeNumbers (.latLon (F64.ofInt 48) (F64.ofInt 2))) =
      .ok (wantedCall (.latLon (F64.ofInt 48) (F64.ofInt 2))) ↔ FitsBytes (.latLon (F64.ofInt 48) (F64.ofInt 2)) :=
  navigate_iff plainUrls_bounded wholeNumbers_exact "48, 2".toList _ (by decide +kernel)

/-- An accepted address over the limit in bytes is refused by the vehicle call. -/
theorem navigate_overlong (hU : U.Bounded) (hP : P.Exact) {input a : List Char} (h : parseSharedText U input = .ok (.address a))
    (hbytes : 2000 < byteLen (trimChars a)) :
    navigate P (shareArgs P (.address a)) = .error "destination must be 1..2000 characters" := by
  unfold navigate
  rw [navigateShape_accepts hP (parseSharedText_sound hU h)]
  simp only [wantedCall, vehicleCheck, if_pos (Or.inr hbytes)]

def longAddress : List Char := List.replicate 501 '🏠'

set_option maxRecDepth 4096 in
theorem longAddress_accepted : parseSharedText plainUrls longAddress = .ok (.address longAddress) := by decide +kernel

theorem longAddress_bytes : 2000 < byteLen (trimChars longAddress) := by decide +kernel

/-- 501 characters of four bytes each are an accepted address that the car never gets. -/
theorem navigate_refused :
    parseSharedText plainUrls longAddress = .ok (.address longAddress) ∧
      navigate wholeNumbers (shareArgs wholeNumbers (.address longAddress)) = .error "destination must be 1..2000 characters" :=
  ⟨longAddress_accepted, navigate_overlong plainUrls_bounded wholeNumbers_exact longAddress_accepted longAddress_bytes⟩

end ElectricEel.Share
