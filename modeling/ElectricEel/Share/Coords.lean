/-
  ElectricEel.Share.Coords — coordinates in a text (helper/src/share.rs: `numeric_pair`,
  `parse_latlon_pair`, `google_3d4d_coords`, `url_path_at_coords`, `slash_run_coords`).

  A text is the list of its characters. The loops that search again behind what they found
  carry fuel; the text's length is enough of it, since every pass shortens the text.

  Proved: what each of them returns is a valid position (`parseLatlonPair_valid`,
  `google3d4dScan_valid`, `urlPathAtScan_valid`, `slashRunCoords_valid`).
-/
import ElectricEel.Lib.Text
import ElectricEel.Config
import ElectricEel.Share.Number

namespace ElectricEel.Share

open Lib Config

/-! ## Pairs -/

def validLatlon (lat lon : F64) : Bool := lat.isFinite && lon.isFinite && lat.within 90 && lon.within 180

/-- `str::trim_matches`. -/
def trimMatches (p : Char → Bool) (s : List Char) : List Char := (s.dropWhile p).rdropWhile p

def splitWhitespace (s : List Char) : List (List Char) := (s.splitOnP isWhitespace).filter (· ≠ [])

/-- The separator of a pair: the first of , ; ~ | that occurs, else blanks. -/
def pairParts (s : List Char) : List (List Char) :=
  if s.contains ',' then s.splitOn ','
  else if s.contains ';' then s.splitOn ';'
  else if s.contains '~' then s.splitOn '~'
  else if s.contains '|' then s.splitOn '|'
  else splitWhitespace s

def numericPair (s : List Char) : Option (F64 × F64) :=
  let s := trimMatches (fun c => c == '(' || c == ')' || c == '[' || c == ']') (trimChars s)
  if s = [] then none
  else
    match pairParts s with
    | [a, b] =>
      match F64.parse (trimChars a), F64.parse (trimChars b) with
      | some lat, some lon => some (lat, lon)
      | _, _ => none
    | _ => none

def parseLatlonPair (s : List Char) : Option (F64 × F64) :=
  match numericPair s with
  | some (lat, lon) => if validLatlon lat lon then some (lat, lon) else none
  | none => none

def looksLikeLatlonPair (s : List Char) : Bool := (numericPair s).isSome

/-- Two numbers that are a position. -/
def readPosition (lat lon : List Char) : Option (F64 × F64) :=
  match F64.parse lat, F64.parse lon with
  | some lat, some lon => if validLatlon lat lon then some (lat, lon) else none
  | _, _ => none

/-! ## !3dLAT!4dLON -/

def google3d4dScan : Nat → List Char → Option (F64 × F64) → Option (F64 × F64)
  | 0, _, result => result
  | fuel + 1, search, result =>
    match cut ['!', '3', 'd'] search with
    | none => result
    | some (_, after) =>
      let lat := after.takeWhile (· ≠ '!')
      match cut ['!', '4', 'd'] (after.dropWhile (· ≠ '!')) with
      | none => result
      | some (_, after) =>
        let lon := after.takeWhile (· ≠ '!')
        google3d4dScan fuel (after.dropWhile (· ≠ '!')) ((readPosition lat lon).or result)

def google3d4dCoords (url : List Char) : Option (F64 × F64) := google3d4dScan url.length url none

/-! ## /@lat,lon -/

/-- The number characters at the front, read as lat,lon and what follows. -/
def atPair (cand : List Char) : Option (F64 × F64) :=
  match (cand.takeWhile fun c => c.isDigit || c == '.' || c == '-' || c == ',' || c == '+').splitOn ',' with
  | lat :: lon :: _ => readPosition lat lon
  | _ => none

def urlPathAtScan (place : Bool) : Nat → List Char → Option (F64 × F64)
  | 0, _ => none
  | fuel + 1, search =>
    match cut (if place then "/place/".toList else "/@".toList) search with
    | none => none
    | some (_, after) =>
      -- For /place/, skip to the next /@.
      match if place then (cut "/@".toList after).map Prod.snd else some after with
      | none => urlPathAtScan place fuel after
      | some cand =>
        match atPair cand with
        | some p => some p
        | none => urlPathAtScan place fuel after

def urlPathAtCoords (url : List Char) : Option (F64 × F64) :=
  (urlPathAtScan false url.length url).or (urlPathAtScan true url.length url)

/-! ## Slash runs -/

/-- `flush`: a run of exactly two is a candidate. -/
def flushRun (run : List F64) (best : Option (F64 × F64)) : Option (F64 × F64) :=
  match run with
  | [lat, lon] => if validLatlon lat lon then some (lat, lon) else best
  | _ => best

def slashRunStep (s : List F64 × Option (F64 × F64)) (seg : List Char) : List F64 × Option (F64 × F64) :=
  -- Strip query/form wrappers: only truly bare segments count.
  if seg.any fun c => c == '?' || c == '&' || c == '=' || c == '@' || c == '!' then ([], flushRun s.1 s.2)
  else
    match F64.parse (trimChars seg) with
    | some v => if v.isFinite then (s.1 ++ [v], s.2) else ([], flushRun s.1 s.2)
    | none => ([], flushRun s.1 s.2)

def slashRunCoords (url : List Char) : Option (F64 × F64) :=
  let path := url.takeWhile fun c => c ≠ '?' ∧ c ≠ '#'
  let frag := ((url.splitOn '#')[1]?).getD []
  let s := ((path ++ '#' :: frag).splitOn '/').foldl slashRunStep ([], none)
  flushRun s.1 s.2

/-! ## Validity -/

/-- What is found is valid. -/
def AllValid (r : Option (F64 × F64)) : Prop := ∀ lat lon, r = some (lat, lon) → validLatlon lat lon = true

theorem AllValid.none : AllValid none := fun _ _ h => by cases h

theorem AllValid.or {r r' : Option (F64 × F64)} (h : AllValid r) (h' : AllValid r') : AllValid (r.or r') := by
  cases r with
  | none => exact h'
  | some p => exact h

theorem parseLatlonPair_valid (s : List Char) : AllValid (parseLatlonPair s) := by
  rintro lat lon h
  unfold parseLatlonPair at h
  split at h
  · split at h
    · cases h
      assumption
    · cases h
  · cases h

theorem readPosition_valid (a b : List Char) : AllValid (readPosition a b) := by
  rintro lat lon h
  unfold readPosition at h
  split at h
  · split at h
    · cases h
      assumption
    · cases h
  · cases h

theorem google3d4dScan_valid (fuel : Nat) (search : List Char) {result : Option (F64 × F64)} (h : AllValid result) :
    AllValid (google3d4dScan fuel search result) := by
  induction fuel generalizing search result with
  | zero => exact h
  | succ fuel ih =>
    rw [google3d4dScan]
    split
    · exact h
    · dsimp only
      split
      · exact h
      · exact ih _ (.or (readPosition_valid _ _) h)

theorem atPair_valid (cand : List Char) : AllValid (atPair cand) := by
  unfold atPair
  split
  · exact readPosition_valid _ _
  · exact .none

theorem urlPathAtScan_valid (place : Bool) (fuel : Nat) (search : List Char) :
    AllValid (urlPathAtScan place fuel search) := by
  induction fuel generalizing search with
  | zero => exact .none
  | succ fuel ih =>
    rw [urlPathAtScan]
    split
    · exact .none
    · split
      · exact ih _
      · split
        · rename_i heq
          rw [← heq]
          exact atPair_valid _
        · exact ih _

theorem flushRun_valid (run : List F64) {best : Option (F64 × F64)} (h : AllValid best) : AllValid (flushRun run best) := by
  unfold flushRun
  split
  · split
    · rintro lat lon hp
      cases hp
      assumption
    · exact h
  · exact h

theorem slashRunStep_valid {s : List F64 × Option (F64 × F64)} (seg : List Char) (h : AllValid s.2) :
    AllValid (slashRunStep s seg).2 := by
  unfold slashRunStep
  split
  · exact flushRun_valid _ h
  · split
    · split
      · exact h
      · exact flushRun_valid _ h
    · exact flushRun_valid _ h

theorem slashRunCoords_valid (url : List Char) : AllValid (slashRunCoords url) := by
  have hrun : ∀ (segs : List (List Char)) (s : List F64 × Option (F64 × F64)), AllValid s.2 →
      AllValid (segs.foldl slashRunStep s).2 := by
    intro segs
    induction segs with
    | nil => exact fun s h => h
    | cons seg segs ih => exact fun s h => ih _ (slashRunStep_valid seg h)
  exact flushRun_valid _ (hrun _ _ .none)

theorem validLatlon_iff {lat lon : F64} : validLatlon lat lon = true ↔
    (lat.isFinite = true ∧ lat.within 90 = true) ∧ (lon.isFinite = true ∧ lon.within 180 = true) := by
  simp only [validLatlon, Bool.and_eq_true]
  exact ⟨fun ⟨⟨⟨a, b⟩, c⟩, d⟩ => ⟨⟨a, c⟩, b, d⟩, fun ⟨⟨a, c⟩, b, d⟩ => ⟨⟨⟨a, b⟩, c⟩, d⟩⟩

/-- A pair is a valid position, or a pair out of range, or no pair. -/
theorem parseLatlonPair_none {s : List Char} (h : numericPair s = none) : parseLatlonPair s = none := by
  simp only [parseLatlonPair, h]

example : google3d4dCoords "/data=!3m1!4b1!8m2!3d48.5!4d2.25".toList = some (F64.fin (97 * 2 ^ 1073), F64.fin (9 * 2 ^ 1072)) := by
  decide +kernel

end ElectricEel.Share
