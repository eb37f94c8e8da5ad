/-
  ElectricEel.Share.Parse — the share parser (helper/src/share.rs: `parse_shared_text`).

  The url crate is a parameter: `Url::parse` and the decoding of an urlencoded query. A
  parsed URL is its path, its query and its fragment.
-/
import ElectricEel.Share.Coords

namespace ElectricEel.Share

open Lib Config

inductive Destination where
  | latLon (lat lon : F64)
  | address (text : List Char)
  deriving DecidableEq, Repr

inductive ShareParseError where
  | empty
  | tooLong
  | outOfRange
  deriving DecidableEq, Repr

def ShareParseError.text : ShareParseError → String
  | empty => "nothing to share: the text is empty"
  | tooLong => "shared text is too long (max 2000 characters)"
  | outOfRange => "coordinates out of range (lat -90..90, lon -180..180)"

def maxShareTextLen : Nat := 2000

/-! ## The url crate -/

structure Url where
  path : List Char
  query : Option (List Char)
  fragment : Option (List Char)
  deriving DecidableEq, Repr

structure UrlCrate where
  /-- `Url::parse(..).ok()`. -/
  parse : List Char → Option Url
  /-- `form_urlencoded::parse`. -/
  formParse : List Char → List (List Char × List Char)

/-- Decoding never lengthens: what `parse` percent-encodes, `formParse` decodes. -/
structure UrlCrate.Bounded (U : UrlCrate) : Prop where
  form : ∀ q, ∀ kv ∈ U.formParse q, kv.2.length ≤ q.length
  query : ∀ u url, U.parse u = some url → ∀ kv ∈ U.formParse (url.query.getD []), kv.2.length ≤ u.length
  fragment : ∀ u url, U.parse u = some url → ∀ kv ∈ U.formParse (url.fragment.getD []), kv.2.length ≤ u.length

variable (U : UrlCrate)

/-! ## Lines and tokens -/

/-- `eq_ignore_ascii_case`. -/
def sameIgnoringCase (a b : List Char) : Bool := a.map Char.toLower == b.map Char.toLower

/-- `str::lines`: a line ends at \n or \r\n, the last one also at the end. -/
def lines (s : List Char) : List (List Char) :=
  let ls := s.splitOn '\n'
  (ls.dropLast.map fun l => if l.getLast? = some '\r' then l.dropLast else l) ++ ls.getLast?.toList.filter (· ≠ [])

def firstNonEmptyLine (s : List Char) : Option (List Char) := ((lines s).map trimChars).find? (· ≠ [])

def urlPunctuation (c : Char) : Bool :=
  c == '(' || c == ')' || c == '<' || c == '>' || c == '"' || c == '\'' || c == '.' || c == ',' || c == ';' || c == '!' ||
    c == '?' || c == ':'

def isWebUrl (t : List Char) : Bool :=
  let lower := t.map Char.toLower
  "http://".toList.isPrefixOf lower || "https://".toList.isPrefixOf lower

/-- First `http(s)://` token in the text (trailing punctuation trimmed). -/
def firstUrlToken (s : List Char) : Option (List Char) := ((splitWhitespace s).map (trimMatches urlPunctuation)).find? isWebUrl

def stripPrefixCaseInsensitive (s p : List Char) : Option (List Char) :=
  if sameIgnoringCase (s.take p.length) p then some (s.drop p.length) else none

/-! ## Parameters -/

def findParam (params : List (List Char × List Char)) (key : String) : Option (List Char) :=
  (params.find? fun kv => sameIgnoringCase kv.1 key.toList).map Prod.snd

def isBlank (s : List Char) : Bool := trimChars s == []

def queryParam (query : List Char) (key : String) : Option (List Char) := findParam (U.formParse query) key

def destinationValue (value : List Char) : Destination :=
  match parseLatlonPair value with
  | some (lat, lon) => .latLon lat lon
  | none => .address (trimChars value)

/-- An explicit destination, coordinates or text. -/
def destinationParam (params : List (List Char × List Char)) : Option (List Char) :=
  ["pll", "destination", "daddr"].findSome? fun key => (findParam params key).filter fun v => !isBlank v

/-- `lat` and `lon` split across two params. -/
def splitParams (params : List (List Char × List Char)) : Option (F64 × F64) :=
  match ["lat", "latitude", "mlat"].findSome? (findParam params), ["lon", "lng", "long", "longitude", "mlon"].findSome? (findParam params) with
  | some lat, some lon => readPosition (trimChars lat) (trimChars lon)
  | _, _ => none

def pairParam (params : List (List Char × List Char)) (keys : List String) : Option (F64 × F64) :=
  keys.findSome? fun key => (findParam params key).bind parseLatlonPair

/-- The coordinates of a URL without an explicit destination. -/
def urlCoords (url : List Char) (parsed : Url) (params : List (List Char × List Char)) : Option (F64 × F64) :=
  (pairParam params ["q", "query"]).or <| (google3d4dCoords parsed.path).or <| (splitParams params).or <|
    (pairParam params ["ll", "cp"]).or <| (urlPathAtCoords parsed.path).or (slashRunCoords url)

/-- A named text param. -/
def searchText (params : List (List Char × List Char)) : Option (List Char) :=
  ["q", "query"].findSome? fun key => ((findParam params key).map trimChars).filter (· ≠ [])

def urlParams (parsed : Url) : List (List Char × List Char) :=
  U.formParse (parsed.query.getD []) ++ U.formParse (parsed.fragment.getD [])

def parseMapUrl (url : List Char) : Option Destination :=
  match U.parse url with
  | none => none
  | some parsed =>
    let params := urlParams U parsed
    match destinationParam params with
    | some value => some (destinationValue value)
    | none =>
      match urlCoords url parsed params with
      | some (lat, lon) => some (.latLon lat lon)
      | none => (searchText params).map .address

/-! ## geo: -/

/-- `geo:` without its query and its parameters. -/
def geoCoordsPart (rest : List Char) : List Char := (rest.takeWhile (· ≠ '?')).takeWhile (· ≠ ';')

/-- The text behind the first ? as parameters. -/
def geoQueryAddr (rest : List Char) : Option (List Char) :=
  match rest.dropWhile (· ≠ '?') with
  | [] => none
  | _ :: q => (queryParam U q "q").filter fun s => !isBlank s

/-- `ok none`: no coordinates but 0,0, and no query. -/
def parseGeoUri (rest : List Char) : Except ShareParseError (Option Destination) :=
  let coords := trimChars (geoCoordsPart rest)
  match parseLatlonPair coords with
  | some (lat, lon) =>
    if lat = .fin 0 ∧ lon = .fin 0 then
      -- `geo:0,0?q=...` is an address search, not a point in the Gulf of Guinea.
      .ok ((geoQueryAddr U rest).map .address)
    else .ok (some (.latLon lat lon))
  | none =>
    if looksLikeLatlonPair coords then .error .outOfRange else .ok ((geoQueryAddr U rest).map .address)

/-! ## parse_shared_text -/

/-- What the first URL of the text gives, if anything. -/
def urlDestination (trimmed : List Char) : Option Destination :=
  match firstUrlToken trimmed with
  | none => none
  | some url =>
    match parseMapUrl U url with
    | some dest => some dest
    -- Opaque URL: only a lone one is a share of its own.
    | none => if firstNonEmptyLine trimmed = some url then some (.address url) else none

/-- A line that is no geo: URI with a destination. -/
def lineDestination (line : List Char) : Except ShareParseError Destination :=
  match parseLatlonPair line with
  | some (lat, lon) => .ok (.latLon lat lon)
  | none => if looksLikeLatlonPair line then .error .outOfRange else .ok (.address line)

def parseSharedText (input : List Char) : Except ShareParseError Destination :=
  if maxShareTextLen < input.length then .error .tooLong
  else
    let trimmed := trimChars input
    if trimmed = [] then .error .empty
    else
      match urlDestination U trimmed with
      | some dest => .ok dest
      | none =>
        let firstLine := (firstNonEmptyLine trimmed).getD trimmed
        match stripPrefixCaseInsensitive firstLine "geo:".toList with
        | none => lineDestination firstLine
        | some rest =>
          match parseGeoUri U rest with
          | .error e => .error e
          | .ok (some dest) => .ok dest
          | .ok none => lineDestination firstLine

/-! ## A crate for texts without escapes -/

/-- key=value, split at the first =. -/
def plainField (f : List Char) : List Char × List Char := (f.takeWhile (· ≠ '='), (f.dropWhile (· ≠ '=')).drop 1)

def plainForm (q : List Char) : List (List Char × List Char) := ((q.splitOn '&').filter (· ≠ [])).map plainField

/-- The part behind the first c, if there is a c. -/
def behind (c : Char) (s : List Char) : Option (List Char) :=
  match s.dropWhile (· ≠ c) with
  | [] => none
  | _ :: rest => some rest

def plainUrl (u : List Char) : Option Url :=
  (cut "://".toList u).map fun r =>
    let rest := r.2.dropWhile fun c => c ≠ '/' ∧ c ≠ '?' ∧ c ≠ '#'
    { path := rest.takeWhile fun c => c ≠ '?' ∧ c ≠ '#', query := behind '?' (rest.takeWhile (· ≠ '#')), fragment := behind '#' rest }

def plainUrls : UrlCrate where
  parse := plainUrl
  formParse := plainForm

theorem behind_length (c : Char) (s : List Char) : ((behind c s).getD []).length ≤ s.length := by
  have hd : (s.dropWhile (· ≠ c)).length ≤ s.length := (List.dropWhile_suffix _).length_le
  unfold behind
  split
  · exact Nat.zero_le _
  · rename_i heq
    rw [heq, List.length_cons] at hd
    simp only [Option.getD_some]
    omega

theorem plainForm_length (q : List Char) : ∀ kv ∈ plainForm q, kv.2.length ≤ q.length := by
  intro kv hkv
  obtain ⟨f, hf, rfl⟩ := List.mem_map.1 hkv
  have hfq : f.length ≤ q.length := length_of_mem_splitOn (List.mem_of_mem_filter hf)
  have hd : (f.dropWhile (· ≠ '=')).length ≤ f.length := (List.dropWhile_suffix _).length_le
  simp only [plainField, List.length_drop]
  omega

theorem plainUrls_bounded : plainUrls.Bounded := by
  have hpart : ∀ u url, plainUrl u = some url →
      (url.query.getD []).length ≤ u.length ∧ (url.fragment.getD []).length ≤ u.length := by
    intro u url h
    obtain ⟨⟨a, b⟩, hc, rfl⟩ := Option.map_eq_some_iff.1 h
    have hb : b.length < u.length := cut_shorter (by decide) hc
    let rest := b.dropWhile fun c => c ≠ '/' ∧ c ≠ '?' ∧ c ≠ '#'
    have hrest : rest.length ≤ b.length := (List.dropWhile_suffix _).length_le
    have htake : (rest.takeWhile (· ≠ '#')).length ≤ rest.length := (List.takeWhile_prefix _).length_le
    have hq := behind_length '?' (rest.takeWhile (· ≠ '#'))
    have hf := behind_length '#' rest
    have hparts : ((behind '?' (rest.takeWhile (· ≠ '#'))).getD []).length ≤ u.length ∧
        ((behind '#' rest).getD []).length ≤ u.length := ⟨by omega, by omega⟩
    exact hparts
  exact
    { form := plainForm_length
      query := fun u url h kv hkv => Nat.le_trans (plainForm_length _ kv hkv) (hpart u url h).1
      fragment := fun u url h kv hkv => Nat.le_trans (plainForm_length _ kv hkv) (hpart u url h).2 }

end ElectricEel.Share
