/-
  ElectricEel.Share.Geo — geo: URIs (helper/src/share.rs: `parse_geo_uri`,
  docs/navigation-share.md).

  A URI is its scheme, two decimal numbers, an altitude or none, parameters behind their
  semicolons and a query or none. `parse_geo_uri` takes the text before the first ? and ;
  for a pair of numbers; with an altitude that text has three of them, is no pair, and the
  URI is taken for address text.

  Proved: what becomes of the texts whose first line is such a URI, with and without an
  altitude (`geo_plain`, `geo_altitude`), and that they are handled as RFC 5870 has it
  exactly when there is no altitude or nothing but 0,0 to lose (`geo_iff`).
-/
import Mathlib.Data.Bool.AllAny
import ElectricEel.Share.Pairs

namespace ElectricEel.Share

open Lib Config

variable (U : UrlCrate)

/-! ## URIs -/

def decimalChar (c : Char) : Bool := c.isDigit || c == '.' || c == '-' || c == '+'

/-- A decimal number with the f64 it reads as. -/
structure Decimal where
  text : List Char
  value : F64
  chars : ∀ c ∈ text, decimalChar c = true
  read : F64.parse text = some value

structure GeoUri where
  scheme : List Char
  lat : Decimal
  lon : Decimal
  alt : Option (List Char)
  params : List (List Char)
  query : Option (List Char)
  scheme_geo : sameIgnoringCase scheme "geo:".toList = true
  alt_plain : ∀ a ∈ alt, ';' ∉ a ∧ '?' ∉ a
  params_plain : ∀ p ∈ params, '?' ∉ p

namespace GeoUri

variable (g : GeoUri)

/-- LAT,LON with the altitude. -/
def coords : List Char := g.lat.text ++ ',' :: (g.lon.text ++ g.alt.elim [] (',' :: ·))

/-- What follows the scheme. -/
def rest : List Char := g.coords ++ (joined ';' g.params ++ g.query.elim [] ('?' :: ·))

def text : List Char := g.scheme ++ g.rest

/-- Coordinates 0,0: an address search. -/
def Zero : Prop := g.lat.value = .fin 0 ∧ g.lon.value = .fin 0

instance : Decidable g.Zero := inferInstanceAs (Decidable (_ ∧ _))

def Valid : Prop := validLatlon g.lat.value g.lon.value = true

instance : Decidable g.Valid := inferInstanceAs (Decidable (_ = true))

/-- A q to search for: decoded, not blank, no pair. -/
def Asks (a : List Char) : Prop :=
  ∃ q, g.query = some q ∧ queryParam U q "q" = some a ∧ isBlank a = false ∧ numericPair a = none

/-- What is to become of the URI. -/
structure Handled (r : Except ShareParseError Destination) : Prop where
  position : g.Valid → ¬ g.Zero → r = .ok (.latLon g.lat.value g.lon.value)
  refused : ¬ g.Valid → r = .error .outOfRange
  search : g.Zero → ∀ a, g.Asks U a → r = .ok (.address a)
  unsent : g.Valid → ¬ g.Zero → r ≠ .ok (.address g.text)

end GeoUri

/-! ## Characters -/

theorem decimalChar_plain {c : Char} (h : decimalChar c = true) :
    isWhitespace c = false ∧ (c == '(' || c == ')' || c == '[' || c == ']') = false ∧ c ≠ ',' ∧ c ≠ ';' ∧ c ≠ '?' := by
  have hd : c.isDigit = true ∨ c = '.' ∨ c = '-' ∨ c = '+' := by simpa [decimalChar, or_assoc] using h
  rcases hd with hd | rfl | rfl | rfl
  · have hb : 48 ≤ c.toNat ∧ c.toNat ≤ 57 := by simpa [Char.isDigit, UInt32.le_iff_toNat_le] using hd
    have hne : ∀ d : Char, d.toNat < 48 ∨ 57 < d.toNat → c ≠ d := by
      rintro d hd rfl
      omega
    have hbr : (c == '(' || c == ')' || c == '[' || c == ']') = false := by
      simp [hne '(' (by decide), hne ')' (by decide), hne '[' (by decide), hne ']' (by decide)]
    refine ⟨?_, hbr, hne _ (by decide), hne _ (by decide), hne _ (by decide)⟩
    simp only [isWhitespace, Bool.or_eq_false_iff, Bool.and_eq_false_iff, decide_eq_false_iff_not, beq_eq_false_iff_ne]
    omega
  · decide
  · decide
  · decide

theorem trimMatches_self {p : Char → Bool} {s : List Char} (h : ∀ c ∈ s, p c = false) : trimMatches p s = s := by
  have hd : s.dropWhile p = s := by
    rw [List.dropWhile_eq_self_iff]
    intro hl
    simp [h s[0] (List.getElem_mem hl)]
  rw [trimMatches, hd, List.rdropWhile_eq_self_iff]
  intro hl
  simp [h _ (List.getLast_mem hl)]

/-! ## Pairs -/

/-- Two commas are one too many. -/
theorem numericPair_commas {s : List Char} (h : 2 ≤ s.count ',') : numericPair s = none := by
  have hcount : (trimMatches (fun c => c == '(' || c == ')' || c == '[' || c == ']') (trimChars s)).count ',' = s.count ',' := by
    rw [trimMatches, count_rdropWhile (by decide), count_dropWhile (by decide), trimChars, count_rdropWhile (by decide),
      count_dropWhile (by decide)]
  unfold numericPair
  dsimp only
  generalize trimMatches (fun c => c == '(' || c == ')' || c == '[' || c == ']') (trimChars s) = t at hcount ⊢
  have hmem : ',' ∈ t := List.count_pos_iff.1 (by omega)
  have hlen : (pairParts t).length = t.count ',' + 1 := by
    rw [pairParts, if_pos (by simpa using hmem), length_splitOn]
  split
  · rfl
  · split
    · rename_i heq
      rw [heq, List.length_cons, List.length_cons, List.length_nil] at hlen
      omega
    · rfl

/-- Two decimals with a comma between them are the pair of their numbers. -/
theorem numericPair_decimals (a b : Decimal) : numericPair (a.text ++ ',' :: b.text) = some (a.value, b.value) := by
  have hall : ∀ {p : Char → Bool}, p ',' = false → (∀ c, decimalChar c = true → p c = false) → ∀ c ∈ a.text ++ ',' :: b.text, p c = false := by
    intro p hcomma hp c hc
    simp only [List.mem_append, List.mem_cons] at hc
    rcases hc with hc | rfl | hc
    · exact hp c (a.chars c hc)
    · exact hcomma
    · exact hp c (b.chars c hc)
  have hwhite : trimChars (a.text ++ ',' :: b.text) = a.text ++ ',' :: b.text :=
    trimMatches_self (hall (by decide) fun c h => (decimalChar_plain h).1)
  have hbracket := trimMatches_self (hall (p := fun c => c == '(' || c == ')' || c == '[' || c == ']') (by decide)
    fun c h => (decimalChar_plain h).2.1)
  have hpart : ∀ d : Decimal, trimChars d.text = d.text :=
    fun d => trimMatches_self fun c hc => (decimalChar_plain (d.chars c hc)).1
  have hno : ∀ d : Decimal, ',' ∉ d.text := fun d hm => (decimalChar_plain (d.chars ',' hm)).2.2.1 rfl
  have hparts : pairParts (a.text ++ ',' :: b.text) = [a.text, b.text] := by
    rw [pairParts, if_pos (by simp), List.splitOn_append_cons_self_of_not_mem (hno a), List.splitOn_eq_singleton (hno b)]
  unfold numericPair
  dsimp only
  rw [hwhite, hbracket, if_neg (by simp), hparts]
  simp only [hpart, a.read, b.read]

/-! ## The parts of a URI -/

namespace GeoUri

variable {U} (g : GeoUri)

theorem coords_plain : ∀ c ∈ g.coords, c ≠ ';' ∧ c ≠ '?' := by
  have hd : ∀ d : Decimal, ∀ c ∈ d.text, c ≠ ';' ∧ c ≠ '?' := fun d c hc => (decimalChar_plain (d.chars c hc)).2.2.2
  intro c hc
  simp only [coords, List.mem_append, List.mem_cons] at hc
  rcases hc with hc | rfl | hc | hc
  · exact hd _ c hc
  · decide
  · exact hd _ c hc
  · cases ha : g.alt with
    | none => simp [ha] at hc
    | some a =>
      have hp := g.alt_plain a (by simp [ha])
      simp only [ha, Option.elim_some, List.mem_cons] at hc
      rcases hc with rfl | hc
      · decide
      · exact ⟨fun h => hp.1 (h ▸ hc), fun h => hp.2 (h ▸ hc)⟩

theorem before_query : ∀ c ∈ g.coords ++ joined ';' g.params, (decide (c ≠ '?')) = true := by
  intro c hc
  rw [decide_eq_true_iff]
  rcases List.mem_append.1 hc with hc | hc
  · exact (g.coords_plain c hc).2
  · obtain ⟨p, hp, hc⟩ := List.mem_flatMap.1 hc
    rcases List.mem_cons.1 hc with rfl | hc
    · decide
    · exact fun h => g.params_plain p hp (h ▸ hc)

theorem geoCoordsPart_rest : geoCoordsPart g.rest = g.coords := by
  have hq : (g.query.elim [] ('?' :: ·)).takeWhile (fun c => decide (c ≠ '?')) = [] := by cases g.query <;> simp
  have hp : (joined ';' g.params).takeWhile (fun c => decide (c ≠ ';')) = [] := by cases g.params <;> simp
  have hc : ∀ c ∈ g.coords, (decide (c ≠ ';')) = true := fun c hc => decide_eq_true (g.coords_plain c hc).1
  unfold geoCoordsPart rest
  rw [← List.append_assoc, List.takeWhile_append_of_pos g.before_query, hq, List.append_nil, List.takeWhile_append_of_pos hc, hp,
    List.append_nil]

theorem geoQueryAddr_rest : geoQueryAddr U g.rest = g.query.bind fun q => (queryParam U q "q").filter fun s => !isBlank s := by
  unfold geoQueryAddr rest
  rw [← List.append_assoc, List.dropWhile_append_of_pos g.before_query]
  cases g.query <;> simp

theorem strip_text : stripPrefixCaseInsensitive g.text "geo:".toList = some g.rest := by
  have hlen : g.scheme.length = "geo:".toList.length := by
    have h := congrArg List.length (beq_iff_eq.1 g.scheme_geo)
    rwa [List.length_map, List.length_map] at h
  unfold stripPrefixCaseInsensitive text
  rw [List.take_append_of_le_length (by omega), ← hlen, List.take_length, if_pos g.scheme_geo, List.drop_append_of_le_length (by omega),
    List.drop_length, List.nil_append]

/-- The URI as a line of its own is address text. -/
theorem lineDestination_text : lineDestination g.text = .ok (.address g.text) := by
  have hnone : numericPair g.text = none := by
    have hs := beq_iff_eq.1 g.scheme_geo
    unfold text
    cases hc : g.scheme with
    | nil => simp [hc] at hs
    | cons c t =>
      rw [hc, List.map_cons] at hs
      have hg : c.toLower = 'g' := (List.cons.inj hs).1
      rcases of_toLower (u := 'G') (by decide) hg with rfl | rfl
      · exact numericPair_head (by decide) _
      · exact numericPair_head (by decide) _
  unfold lineDestination
  rw [parseLatlonPair_none hnone, looksLikeLatlonPair, hnone]
  rfl

/-! ## The parser on a URI -/

theorem numericPair_coords : numericPair g.coords = if g.alt = none then some (g.lat.value, g.lon.value) else none := by
  unfold coords
  cases ha : g.alt with
  | none =>
    rw [Option.elim_none, List.append_nil, numericPair_decimals]
    rfl
  | some a =>
    rw [if_neg nofun]
    refine numericPair_commas ?_
    simp only [Option.elim_some, List.count_append, List.count_cons_self]
    omega

/-- Without an altitude the coordinates are read. -/
theorem geo_plain (ha : g.alt = none) :
    parseGeoUri U g.rest =
      if ¬ g.Valid then .error .outOfRange
      else if g.Zero then .ok ((geoQueryAddr U g.rest).map .address)
      else .ok (some (.latLon g.lat.value g.lon.value)) := by
  have hpair : numericPair g.coords = some (g.lat.value, g.lon.value) := by rw [numericPair_coords, if_pos ha]
  unfold parseGeoUri
  dsimp only
  rw [geoCoordsPart_rest, parseLatlonPair_trimChars]
  unfold parseLatlonPair looksLikeLatlonPair Valid Zero
  rw [numericPair_trimChars, hpair]
  by_cases hv : validLatlon g.lat.value g.lon.value = true
  · simp only [hv, if_true, not_true_eq_false, if_false]
    congr
  · simp only [hv, if_false, Bool.false_eq_true, Option.isSome_some, if_true, not_false_eq_true]

/-- With one they are not: only the query is. -/
theorem geo_altitude (ha : g.alt ≠ none) : parseGeoUri U g.rest = .ok ((geoQueryAddr U g.rest).map .address) := by
  have hpair : numericPair g.coords = none := by rw [numericPair_coords, if_neg ha]
  unfold parseGeoUri
  dsimp only
  rw [geoCoordsPart_rest, parseLatlonPair_trimChars, parseLatlonPair_none hpair, looksLikeLatlonPair, numericPair_trimChars, hpair]
  rfl

/-- What a search asks for is what the query gives. -/
theorem geoQueryAddr_asks {a : List Char} (h : g.Asks U a) : geoQueryAddr U g.rest = some a := by
  obtain ⟨q, hq, ha, hb, -⟩ := h
  rw [geoQueryAddr_rest, hq, Option.bind_some, ha]
  simp [hb]

end GeoUri

/-! ## Shared texts -/

theorem parseSharedText_uri {g : GeoUri} {input : List Char} (hlen : input.length ≤ maxShareTextLen)
    (hline : firstNonEmptyLine (trimChars input) = some g.text) (hurl : firstUrlToken (trimChars input) = none) :
    parseSharedText U input =
      match parseGeoUri U g.rest with
      | .error e => .error e
      | .ok (some dest) => .ok dest
      | .ok none => .ok (.address g.text) := by
  have hne : trimChars input ≠ [] := by
    intro h
    rw [h] at hline
    exact absurd hline (by simp [firstNonEmptyLine, lines])
  have hdest : urlDestination U (trimChars input) = none := by
    unfold urlDestination
    rw [hurl]
  unfold parseSharedText
  rw [if_neg (Nat.not_lt.2 hlen)]
  dsimp only
  rw [if_neg hne, hdest]
  dsimp only
  rw [hline, Option.getD_some, g.strip_text]
  dsimp only
  rewrite [g.lineDestination_text]
  rcases parseGeoUri U g.rest with _ | _ | _ <;> rfl

/-- A text whose first line is a geo: URI, without a URL, is handled as it should be
    exactly when it is within the limit and the URI has no altitude or says 0,0, or when it
    says 0,0 and asks for nothing. -/
theorem geo_iff (g : GeoUri) (input : List Char) (hline : firstNonEmptyLine (trimChars input) = some g.text)
    (hurl : firstUrlToken (trimChars input) = none) :
    g.Handled U (parseSharedText U input) ↔
      input.length ≤ maxShareTextLen ∧ (g.alt = none ∨ g.Zero) ∨ g.Zero ∧ ∀ a, ¬ g.Asks U a := by
  have hzv : g.Zero → g.Valid := by
    intro hz
    unfold GeoUri.Valid
    rw [hz.1, hz.2]
    decide +kernel
  by_cases hlen : input.length ≤ maxShareTextLen
  · have hparse := parseSharedText_uri U hlen hline hurl
    have hsearch : (g.alt = none ∨ g.Zero) → g.Zero → ∀ a, g.Asks U a → parseSharedText U input = .ok (.address a) := by
      intro _ hz a ha
      rw [hparse]
      by_cases halt : g.alt = none
      · rw [g.geo_plain halt, if_neg (not_not_intro (hzv hz)), if_pos hz, g.geoQueryAddr_asks ha]
        rfl
      · rw [g.geo_altitude halt, g.geoQueryAddr_asks ha]
        rfl
    constructor
    · intro h
      by_cases hok : g.alt = none ∨ g.Zero
      · exact .inl ⟨hlen, hok⟩
      · -- an altitude, and coordinates to lose: neither a position nor a refusal
        obtain ⟨halt, hz⟩ := not_or.1 hok
        rw [g.geo_altitude halt] at hparse
        have hres : ∃ a, parseSharedText U input = .ok (.address a) := by
          rw [hparse]
          cases geoQueryAddr U g.rest with
          | none => exact ⟨_, rfl⟩
          | some a => exact ⟨a, rfl⟩
        obtain ⟨a, ha⟩ := hres
        by_cases hv : g.Valid
        · exact absurd (ha.symm.trans (h.position hv hz)) (by simp)
        · exact absurd (ha.symm.trans (h.refused hv)) (by simp)
    · intro h
      have hok : g.alt = none ∨ g.Zero := by
        rcases h with h | h
        · exact h.2
        · exact .inr h.1
      have hplain : ¬ g.Zero → g.alt = none := fun hz => hok.resolve_right hz
      have hposition : g.Valid → ¬ g.Zero → parseSharedText U input = .ok (.latLon g.lat.value g.lon.value) := by
        intro hv hz
        rw [hparse, g.geo_plain (hplain hz), if_neg (not_not_intro hv), if_neg hz]
      refine ⟨hposition, fun hv => ?_, hsearch hok, fun hv hz => ?_⟩
      · rw [hparse, g.geo_plain (hplain fun hz => hv (hzv hz)), if_pos hv]
      · rw [hposition hv hz]
        simp
  · have hparse : parseSharedText U input = .error .tooLong := by
      unfold parseSharedText
      rw [if_pos (Nat.lt_of_not_le hlen)]
    rw [hparse]
    constructor
    · intro h
      have hv : g.Valid := by
        by_contra hv
        exact absurd (h.refused hv) (by simp)
      have hz : g.Zero := by
        by_contra hz
        exact absurd (h.position hv hz) (by simp)
      exact .inr ⟨hz, fun a ha => absurd (h.search hz a ha) (by simp)⟩
    · intro h
      obtain ⟨hz, hno⟩ := h.resolve_left fun h => hlen h.1
      exact ⟨fun _ h => absurd hz h, fun h => absurd (hzv hz) h, fun _ a ha => absurd ha (hno a), fun _ h => absurd hz h⟩

/-! ## The defect -/

theorem latitude_chars : ∀ c ∈ "48.25".toList, decimalChar c = true := List.all_iff_forall_prop.1 (by decide)

theorem latitude_read : F64.parse "48.25".toList = some (.fin (193 * 2 ^ 1072)) := by decide +kernel

def vienna : GeoUri :=
  { scheme := "geo:".toList
    lat := ⟨"48.25".toList, .fin (193 * 2 ^ 1072), latitude_chars, latitude_read⟩
    lon := ⟨"16.5".toList, .fin (33 * 2 ^ 1073), List.all_iff_forall_prop.1 (by decide), by decide +kernel⟩
    alt := some "183".toList
    params := []
    query := none
    scheme_geo := by decide
    alt_plain := by decide
    params_plain := by decide }

/-- A point with its altitude goes to the geocoder, as text. -/
theorem geo_altitude_sent :
    vienna.text = "geo:48.25,16.5,183".toList ∧
      parseSharedText plainUrls "geo:48.25,16.5,183".toList = .ok (.address "geo:48.25,16.5,183".toList) ∧
      ¬ vienna.Handled plainUrls (parseSharedText plainUrls "geo:48.25,16.5,183".toList) := by
  have hsent : parseSharedText plainUrls "geo:48.25,16.5,183".toList = .ok (.address "geo:48.25,16.5,183".toList) := by decide +kernel
  refine ⟨by decide, hsent, fun h => h.unsent (by decide +kernel) (by decide +kernel) ?_⟩
  rw [hsent]
  rfl

/-- Without the altitude it is a point. -/
theorem geo_iff_plain :
    { vienna with alt := none, alt_plain := nofun }.Handled plainUrls (parseSharedText plainUrls "geo:48.25,16.5".toList) :=
  (geo_iff plainUrls { vienna with alt := none, alt_plain := nofun } "geo:48.25,16.5".toList (by decide +kernel) (by decide +kernel)).2
    (.inl ⟨by decide, .inl rfl⟩)

end ElectricEel.Share
