/-
  ElectricEel.Numbers.GoText — how the Go side reads numbers: `strconv.Atoi`,
  `strconv.ParseFloat(s, 32)`, `fmt.Sscanf` with "%f%s", `time.ParseDuration`.

  Every finite float32 is a whole number of 2^-149, and `fin n` is that number; the sign of
  zero is left out. A reader that answers with an error answers none.
-/
import ElectricEel.Lib.Rounding
import ElectricEel.Share.Number
import ElectricEel.Config

namespace ElectricEel.Numbers

open Lib Config Share

/-! ## Integers -/

/-- A sign or none, and digits. -/
def parseSigned (s : List Char) : Option Int :=
  let r := F64.takeSign s
  if r.2 ≠ [] ∧ r.2.all Char.isDigit then some (if r.1 then -F64.digitsValue r.2 else F64.digitsValue r.2) else none

/-- A signed integer of so many bits. -/
def fitsInt (bits : Nat) (n : Int) : Bool := decide (-2 ^ (bits - 1) ≤ n ∧ n < 2 ^ (bits - 1))

/-- `strconv.Atoi`. An int has 32 bits or 64. -/
def atoi (intSize : Nat) (s : List Char) : Option Int := (parseSigned s).filter (fitsInt intSize)

def int32 (n : Int) : Int := n.bmod (2 ^ 32)

def int64 (n : Int) : Int := n.bmod (2 ^ 64)

theorem int32_eq {n : Int} (hlo : -2 ^ 31 ≤ n) (hhi : n < 2 ^ 31) : int32 n = n := by
  rw [int32, Int.bmod_eq_of_le] <;> omega

theorem int64_eq {n : Int} (hlo : -2 ^ 63 ≤ n) (hhi : n < 2 ^ 63) : int64 n = n := by
  rw [int64, Int.bmod_eq_of_le] <;> omega

/-! ## float32 -/

inductive F32 where
  | nan
  | inf (neg : Bool)
  /-- n · 2^-149. -/
  | fin (n : Int)
  deriving DecidableEq, Repr

namespace F32

/-- num / den · 2^-149, rounded. A significand has 24 bits. -/
def round (neg : Bool) (num den : Nat) : F32 :=
  let n := nearest 23 num den
  if 2 ^ 277 ≤ n then .inf neg else .fin (if neg then -n else n)

/-- digits · 10^exp. -/
def ofDecimal (neg : Bool) (digits : Nat) (exp : Int) : F32 := round neg (digits * 10 ^ exp.toNat * 2 ^ 149) (10 ^ (-exp).toNat)

/-- digits · 2^exp. -/
def ofBinary (neg : Bool) (digits : Nat) (exp : Int) : F32 := round neg (digits * 2 ^ exp.toNat * 2 ^ 149) (2 ^ (-exp).toNat)

def ofFraction (num : Int) (den : Nat) : F32 := round (decide (num < 0)) num.natAbs den

/-- `x - c`. -/
def sub (x : F32) (c : Nat) : F32 :=
  match x with
  | fin n => ofFraction (n - c * 2 ^ 149) 1
  | x => x

/-- `x * c`. -/
def mul (x : F32) (c : Nat) : F32 :=
  match x with
  | fin n => ofFraction (n * c) 1
  | x => x

/-- `x / c`. -/
def div (x : F32) (c : Nat) : F32 :=
  match x with
  | fin n => ofFraction n c
  | x => x

/-- `float32(math.Ldexp(float64(x), m))`: rounded to 53 bits, then to 24. -/
def ldexp (x : F32) (m : Int) : F32 :=
  match x with
  | fin n =>
    let wide := nearest 52 (n.natAbs * 2 ^ (m + 925).toNat) (2 ^ (-(m + 925)).toNat)
    if 2 ^ 2098 ≤ wide then .inf (decide (n < 0)) else round (decide (n < 0)) wide (2 ^ 925)
  | x => x

def isFinite : F32 → Bool
  | fin _ => true
  | _ => false

/-- Between two whole numbers. -/
def Between (lo hi : Int) (x : F32) : Prop := ∃ n, x = fin n ∧ lo * 2 ^ 149 ≤ n ∧ n ≤ hi * 2 ^ 149

end F32

/-! ## strconv.ParseFloat -/

/-- The digits before a point, those behind it, and the rest. -/
def mantissa (digit : Char → Bool) (s : List Char) : List Char × List Char × List Char :=
  let rest := s.dropWhile digit
  let frac := match rest with
    | '.' :: t => t.takeWhile digit
    | _ => []
  let tail := match rest with
    | '.' :: t => t.dropWhile digit
    | _ => rest
  (s.takeWhile digit, frac, tail)

/-- A decimal numeral: its digits and its exponent. -/
def decimal (s : List Char) : Option (Nat × Int) :=
  let m := mantissa Char.isDigit s
  if m.1 ++ m.2.1 = [] then none
  else (F64.parseExponent m.2.2).map fun e => (F64.digitsValue (m.1 ++ m.2.1), e - m.2.1.length)

def hexLetter (c : Char) : Bool := decide ('a' ≤ c.toLower ∧ c.toLower ≤ 'f')

def hexDigit (c : Char) : Bool := c.isDigit || hexLetter c

def hexValue (ds : List Char) : Nat :=
  ds.foldl (fun n c => 16 * n + if c.isDigit then c.toNat - '0'.toNat else c.toLower.toNat - 'a'.toNat + 10) 0

/-- A hexadecimal numeral behind its 0x; it has an exponent of two. -/
def hexadecimal (s : List Char) : Option (Nat × Int) :=
  let m := mantissa hexDigit s
  if m.1 ++ m.2.1 = [] then none
  else
    match m.2.2 with
    | [] => none
    | c :: rest =>
      let e := F64.takeSign rest
      if c.toLower = 'p' ∧ e.2 ≠ [] ∧ e.2.all Char.isDigit then
        some (hexValue (m.1 ++ m.2.1), (if e.1 then -(F64.digitsValue e.2 : Int) else F64.digitsValue e.2) - 4 * m.2.1.length)
      else none

/-- The last character seen: a digit or a base prefix, an underscore, or none of these. -/
inductive Saw where
  | start
  | digit
  | underscore
  | other
  deriving DecidableEq

def underscoresFrom (hex : Bool) : Saw → List Char → Bool
  | saw, [] => saw ≠ .underscore
  | saw, c :: s =>
    if c.isDigit || (hex && hexLetter c) then underscoresFrom hex .digit s
    -- Underscore must follow digit.
    else if c = '_' then saw = .digit && underscoresFrom hex .underscore s
    -- Underscore must also be followed by digit.
    else saw ≠ .underscore && underscoresFrom hex .other s

/-- `underscoreOK`, behind the sign. -/
def underscoreOK (s : List Char) : Bool :=
  match s with
  | '0' :: c :: rest =>
    if c.toLower = 'b' ∨ c.toLower = 'o' ∨ c.toLower = 'x' then underscoresFrom (c.toLower = 'x') .digit rest
    else underscoresFrom false .start s
  | _ => underscoresFrom false .start s

/-- A numeral behind its sign, without underscores. -/
def readFloat (neg : Bool) (s : List Char) : Option F32 :=
  match s with
  | '0' :: c :: d :: rest =>
    if c.toLower = 'x' then (hexadecimal (d :: rest)).map fun h => F32.ofBinary neg h.1 h.2
    else (decimal s).map fun d => F32.ofDecimal neg d.1 d.2
  | _ => (decimal s).map fun d => F32.ofDecimal neg d.1 d.2

/-- `strconv.ParseFloat(s, 32)`; a numeral beyond the float32 range is an error. -/
def parseFloat (s : List Char) : Option F32 :=
  let r := F64.takeSign s
  let word := r.2.map Char.toLower
  if word = "inf".toList ∨ word = "infinity".toList then some (.inf r.1)
  else if s.map Char.toLower = "nan".toList then some .nan
  else if r.2.contains '_' && !underscoreOK r.2 then none
  else (readFloat r.1 (r.2.filter (· ≠ '_'))).filter F32.isFinite

/-! ## fmt.Sscanf -/

/-- Blanks are skipped, a newline is an error. -/
def skipSpace (s : List Char) : Option (List Char) :=
  if (s.takeWhile isWhitespace).contains '\n' then none else some (s.dropWhile isWhitespace)

/-- A scan: the token so far, and the text to come. -/
abbrev Scan := List Char × List Char

def accept (p : Char → Bool) (s : Scan) : Bool × Scan :=
  match s.2 with
  | c :: rest => if p c then (true, s.1 ++ [c], rest) else (false, s)
  | [] => (false, s)

/-- `for s.accept(..) {}`. -/
def acceptAll (p : Char → Bool) (s : Scan) : Scan := (s.1 ++ s.2.takeWhile p, s.2.dropWhile p)

/-- `s.accept(..) && s.accept(..)`: what was accepted before the failure stays accepted. -/
def acceptWord : List (Char → Bool) → Scan → Bool × Scan
  | [], s => (true, s)
  | p :: ps, s =>
    match accept p s with
    | (true, s) => acceptWord ps s
    | (false, s) => (false, s)

def oneOf (cs : String) (c : Char) : Bool := cs.toList.contains c

def acceptFraction (digits : Char → Bool) (s : Scan) : Scan :=
  let point := accept (oneOf ".") s
  if point.1 then acceptAll digits point.2 else point.2

def acceptExponent (exp : Char → Bool) (s : Scan) : Scan :=
  let e := accept exp s
  if e.1 then acceptAll (oneOf "0123456789_") (accept (oneOf "+-") e.2).2 else e.2

def floatToken (text : List Char) : Scan :=
  let nan := acceptWord [oneOf "nN", oneOf "aA", oneOf "nN"] ([], text)
  if nan.1 then nan.2
  else
    let inf := acceptWord [oneOf "iI", oneOf "nN", oneOf "fF"] (accept (oneOf "+-") nan.2).2
    if inf.1 then inf.2
    else
      let hex := acceptWord [oneOf "0", oneOf "xX"] inf.2
      let digits := oneOf (if hex.1 then "0123456789aAbBcCdDeEfF_" else "0123456789_")
      let exp := oneOf (if hex.1 then "pP" else "eEpP")
      acceptExponent exp (acceptFraction digits (acceptAll digits hex.2))

/-- `convertFloat(str, 32)`: a decimal mantissa may have an exponent of two. -/
def convertFloat (intSize : Nat) (str : List Char) : Option F32 :=
  if str.contains 'p' && !(str.contains 'x' || str.contains 'X') then
    match parseFloat (str.takeWhile (· ≠ 'p')), atoi intSize ((str.dropWhile (· ≠ 'p')).drop 1) with
    | some f, some m => some (f.ldexp m)
    | _, _ => none
  else parseFloat str

/-- `fmt.Sscanf(s, "%f%s", ..)`: a float32 and a word. What follows the word is not read. -/
def sscanf (intSize : Nat) (s : List Char) : Option (F32 × List Char) :=
  match skipSpace s with
  | none | some [] => none
  | some s =>
    let token := floatToken s
    match convertFloat intSize token.1, skipSpace token.2 with
    | some f, some (c :: rest) => some (f, (c :: rest).takeWhile fun c => !isWhitespace c)
    | _, _ => none

/-! ## time.ParseDuration -/

def second : Nat := 1000000000

/-- In nanoseconds. -/
def units : List (String × Nat) :=
  [("ns", 1), ("us", 1000), ("µs", 1000), ("μs", 1000), ("ms", 1000000), ("s", second), ("m", 60 * second), ("h", 3600 * second)]

def unitMap (u : List Char) : Option Nat := (units.find? fun e => e.1.toList = u).map Prod.snd

/-- `leadingFraction`: the digits' value and their count, those left out that would overflow. -/
def leadingFraction : Nat → Nat → List Char → Nat × Nat
  | x, k, [] => (x, k)
  | x, k, c :: s =>
    if (2 ^ 63 - 1) / 10 < x then (x, k)
    else
      let y := 10 * x + (c.toNat - '0'.toNat)
      if 2 ^ 63 < y then (x, k) else leadingFraction y (k + 1) s

/-- `scale *= 10`, k times. Where the float64 is +Inf the quotient by it is 0, and by this number
    it is too small for a nanosecond. -/
def scale : Nat → Nat
  | 0 => 1
  | k + 1 => nearest 52 (10 * scale k) 1

/-- `uint64(float64(f) * (float64(unit) / scale))`. -/
def fractionNanos (f k unit : Nat) : Nat :=
  nearest 52 (nearest 52 f 1 * nearest 52 (unit * 2 ^ 1074) (scale k)) 1 / 2 ^ 1074

def unitChar (c : Char) : Bool := c ≠ '.' && !c.isDigit

/-- A number and its fraction, in nanoseconds. -/
def termNanos (v unit : Nat) (f : Nat × Nat) : Nat := v * unit + if 0 < f.1 then fractionNanos f.1 f.2 unit else 0

/-- One number with its unit, in nanoseconds, and the rest. -/
def durationTerm (s : List Char) : Option (Nat × List Char) :=
  let m := mantissa Char.isDigit s
  let v := F64.digitsValue m.1
  if 2 ^ 63 < v then none
  else if m.1 = [] ∧ m.2.1 = [] then none
  else
    match unitMap (m.2.2.takeWhile unitChar) with
    | none => none
    | some unit =>
      if 2 ^ 63 / unit < v then none
      else
        let nanos := termNanos v unit (leadingFraction 0 0 m.2.1)
        if 2 ^ 63 < nanos then none else some (nanos, m.2.2.dropWhile unitChar)

/-- The terms' sum, in 64 bits. -/
def durationScan : Nat → Nat → List Char → Option Nat
  | _, d, [] => some d
  | 0, _, _ :: _ => none
  | fuel + 1, d, s =>
    match durationTerm s with
    | none => none
    | some (nanos, rest) =>
      let d := (d + nanos) % 2 ^ 64
      if 2 ^ 63 < d then none else durationScan fuel d rest

/-- `time.ParseDuration`, in nanoseconds. -/
def parseDuration (s : List Char) : Option Int :=
  let r := F64.takeSign s
  if r.2 = ['0'] then some 0
  else if r.2 = [] then none
  else
    match durationScan r.2.length 0 r.2 with
    | none => none
    | some d => if r.1 then some (-d) else if 2 ^ 63 - 1 < d then none else some d

example : parseDuration "1h1.5m".toList = some (3690 * second) := by decide +kernel
example : parseDuration "2 h".toList = none ∧ parseDuration "-1us".toList = some (-1000) := by decide +kernel
example : sscanf 64 " 2.1e1 C!  21".toList = some (.fin (21 * 2 ^ 149), "C!".toList) := by decide +kernel

end ElectricEel.Numbers
