/-
  ElectricEel.Share.Pairs — what the share parser accepts (helper/src/share.rs).

  Proved: a position is valid and an address is not blank and within the limit, on every
  path (`parseSharedText_sound`).
-/
import ElectricEel.Share.Parse

namespace ElectricEel.Share

open Lib Config

variable {U : UrlCrate}

/-! ## Trimming -/

theorem length_trimChars (s : List Char) : (trimChars s).length ≤ s.length :=
  Nat.le_trans (List.rdropWhile_prefix _ _).length_le (List.dropWhile_suffix _).length_le

@[simp] theorem numericPair_trimChars (s : List Char) : numericPair (trimChars s) = numericPair s := by
  simp only [numericPair, trimChars_trimChars]

@[simp] theorem parseLatlonPair_trimChars (s : List Char) : parseLatlonPair (trimChars s) = parseLatlonPair s := by
  simp only [parseLatlonPair, numericPair_trimChars]

/-- The first character stays where it is neither of what is trimmed. -/
theorem rdropWhile_head {p : Char → Bool} {c : Char} (h : p c = false) (s : List Char) :
    ∃ t, (c :: s).rdropWhile p = c :: t := by
  obtain ⟨u, hu⟩ := List.rdropWhile_prefix p (c :: s)
  cases hr : (c :: s).rdropWhile p with
  | nil =>
    rw [List.rdropWhile_eq_nil_iff] at hr
    exact absurd (hr c List.mem_cons_self) (by simp [h])
  | cons d t =>
    rw [hr, List.cons_append] at hu
    exact ⟨t, by rw [(List.cons.inj hu).1]⟩

theorem trimMatches_head {p : Char → Bool} {c : Char} (h : p c = false) (s : List Char) :
    ∃ t, trimMatches p (c :: s) = c :: t := by
  rw [trimMatches, List.dropWhile_cons_of_neg (by simp [h])]
  exact rdropWhile_head h s

theorem trimChars_head {c : Char} (h : isWhitespace c = false) (s : List Char) : ∃ t, trimChars (c :: s) = c :: t :=
  trimMatches_head h s

theorem splitOnP_head {p : Char → Bool} {c : Char} (h : p c = false) (s : List Char) :
    ∃ t ts, (c :: s).splitOnP p = (c :: t) :: ts := by
  rw [List.splitOnP_cons_eq_if_modifyHead, if_neg (by simp [h])]
  cases hs : s.splitOnP p with
  | nil => exact absurd hs (List.splitOnP_ne_nil p s)
  | cons t ts => exact ⟨t, ts, rfl⟩

/-! ## URLs are no pairs -/

/-- A first letter h. -/
def StartsH (s : List Char) : Prop := ∃ c t, s = c :: t ∧ (c = 'h' ∨ c = 'H')

/-- A letter is what it is lowered to, or that letter's capital. -/
theorem of_toLower {c d u : Char} (hu : u.val + 32 = d.val) (h : c.toLower = d) : c = d ∨ c = u := by
  unfold Char.toLower at h
  split at h
  · right
    have hv : c.val + 32 = u.val + 32 := (congrArg Char.val h).trans hu.symm
    have hc : c.val + 32 - 32 = u.val + 32 - 32 := by rw [hv]
    rw [UInt32.add_sub_cancel, UInt32.add_sub_cancel] at hc
    exact Char.ext hc
  · exact .inl h

theorem isWebUrl_startsH {s : List Char} (h : isWebUrl s = true) : StartsH s := by
  cases s with
  | nil => exact absurd h (by decide)
  | cons c t =>
    simp only [isWebUrl, List.map_cons, Bool.or_eq_true] at h
    have hc : c.toLower = 'h' := by
      rcases h with h | h
      · exact (List.cons.inj (List.isPrefixOf_iff_prefix.1 h).choose_spec).1.symm
      · exact (List.cons.inj (List.isPrefixOf_iff_prefix.1 h).choose_spec).1.symm
    exact ⟨c, t, rfl, of_toLower (by decide) hc⟩

/-- No number, bracket, blank or separator begins with it. -/
def NoNumber (c : Char) : Prop :=
  (c ≠ '-' ∧ c ≠ '+') ∧ c ≠ '.' ∧ c.isDigit = false ∧ (c.toLower ≠ 'i' ∧ c.toLower ≠ 'n') ∧ isWhitespace c = false ∧
    (c == '(' || c == ')' || c == '[' || c == ']') = false ∧ (c == ',') = false ∧ (c == ';') = false ∧ (c == '~') = false ∧
    (c == '|') = false

instance (c : Char) : Decidable (NoNumber c) := inferInstanceAs (Decidable (_ ∧ _))

theorem pairParts_head {c : Char} (h : NoNumber c) (s : List Char) : ∃ t ts, pairParts (c :: s) = (c :: t) :: ts := by
  obtain ⟨-, -, -, -, hw, -, hcomma, hsemi, htilde, hbar⟩ := h
  have hsplit : ∀ sep : Char, (c == sep) = false → ∃ t ts, (c :: s).splitOn sep = (c :: t) :: ts := by
    intro sep hsep
    rw [List.splitOn_eq_splitOnP]
    exact splitOnP_head (p := (· == sep)) hsep s
  unfold pairParts
  split
  · exact hsplit _ hcomma
  · split
    · exact hsplit _ hsemi
    · split
      · exact hsplit _ htilde
      · split
        · exact hsplit _ hbar
        · obtain ⟨t, ts, heq⟩ := splitOnP_head hw s
          exact ⟨t, ts.filter (· ≠ []), by rw [splitWhitespace, heq]; simp⟩

theorem numericPair_head {c : Char} (h : NoNumber c) (s : List Char) : numericPair (c :: s) = none := by
  obtain ⟨t, ht⟩ := trimChars_head h.2.2.2.2.1 s
  obtain ⟨u, hu⟩ := trimMatches_head (p := fun c => c == '(' || c == ')' || c == '[' || c == ']') h.2.2.2.2.2.1 t
  obtain ⟨a, as, hparts⟩ := pairParts_head h u
  obtain ⟨v, hv⟩ := trimChars_head h.2.2.2.2.1 a
  unfold numericPair
  dsimp only
  rw [ht, hu, if_neg (List.cons_ne_nil _ _), hparts]
  split
  · rename_i heq
    rw [← (List.cons.inj heq).1, hv, F64.parse_head h.1 h.2.1 h.2.2.1 h.2.2.2.1]
  · rfl

theorem numericPair_startsH {s : List Char} (h : StartsH s) : numericPair s = none := by
  obtain ⟨c, s, rfl, hc⟩ := h
  exact numericPair_head (by rcases hc with rfl | rfl <;> decide) s

/-! ## Lines -/

theorem firstNonEmptyLine_spec {s line : List Char} (h : firstNonEmptyLine s = some line) :
    trimChars line ≠ [] ∧ line.length ≤ s.length := by
  obtain ⟨l, hl, rfl⟩ := List.mem_map.1 (List.mem_of_find?_eq_some h)
  have hne : trimChars l ≠ [] := by simpa using List.find?_some h
  refine ⟨by rw [trimChars_trimChars]; exact hne, Nat.le_trans (length_trimChars l) ?_⟩
  rcases List.mem_append.1 hl with hl | hl
  · obtain ⟨u, hu, rfl⟩ := List.mem_map.1 hl
    have hus : u.length ≤ s.length := length_of_mem_splitOn (List.dropLast_subset _ hu)
    split
    · rw [List.length_dropLast]
      omega
    · exact hus
  · exact length_of_mem_splitOn (List.mem_of_getLast? (Option.mem_toList.1 (List.mem_of_mem_filter hl)))

theorem firstUrlToken_spec {s url : List Char} (h : firstUrlToken s = some url) :
    isWebUrl url = true ∧ url.length ≤ s.length := by
  obtain ⟨t, ht, rfl⟩ := List.mem_map.1 (List.mem_of_find?_eq_some h)
  have hlen : t.length ≤ s.length := length_of_mem_splitOnP (List.mem_of_mem_filter ht)
  have htrim : (trimMatches urlPunctuation t).length ≤ t.length :=
    Nat.le_trans (List.rdropWhile_prefix _ _).length_le (List.dropWhile_suffix _).length_le
  exact ⟨by simpa using List.find?_some h, Nat.le_trans htrim hlen⟩

/-! ## What is accepted -/

/-- Not blank, and within the limit. -/
def Sendable (a : List Char) : Prop := trimChars a ≠ [] ∧ a.length ≤ maxShareTextLen

def Sound : Destination → Prop
  | .latLon lat lon => validLatlon lat lon = true
  | .address a => Sendable a

theorem findParam_mem {params : List (List Char × List Char)} {key : String} {v : List Char}
    (h : findParam params key = some v) : ∃ k, (k, v) ∈ params := by
  obtain ⟨⟨k, w⟩, hkv, rfl⟩ := Option.map_eq_some_iff.1 h
  exact ⟨k, List.mem_of_find?_eq_some hkv⟩

theorem destinationParam_spec {params : List (List Char × List Char)} {v : List Char}
    (h : destinationParam params = some v) : trimChars v ≠ [] ∧ ∃ k, (k, v) ∈ params := by
  obtain ⟨key, _, hkey⟩ := List.exists_of_findSome?_eq_some h
  obtain ⟨hparam, hblank⟩ := Option.filter_eq_some_iff.1 hkey
  exact ⟨by simpa [isBlank] using hblank, findParam_mem hparam⟩

theorem searchText_spec {params : List (List Char × List Char)} {a : List Char} (h : searchText params = some a) :
    trimChars a ≠ [] ∧ ∃ k v, (k, v) ∈ params ∧ a = trimChars v := by
  obtain ⟨key, _, hkey⟩ := List.exists_of_findSome?_eq_some h
  obtain ⟨hparam, hblank⟩ := Option.filter_eq_some_iff.1 hkey
  obtain ⟨v, hv, rfl⟩ := Option.map_eq_some_iff.1 hparam
  obtain ⟨k, hk⟩ := findParam_mem hv
  exact ⟨by rw [trimChars_trimChars]; simpa using hblank, k, v, hk, rfl⟩

theorem urlParams_length (hU : U.Bounded) {url : List Char} {parsed : Url} (hp : U.parse url = some parsed) :
    ∀ k v, (k, v) ∈ urlParams U parsed → v.length ≤ url.length := by
  rintro k v hkv
  rcases List.mem_append.1 hkv with h | h
  · exact hU.query url parsed hp (k, v) h
  · exact hU.fragment url parsed hp (k, v) h

theorem pairParam_valid (params : List (List Char × List Char)) (keys : List String) : AllValid (pairParam params keys) := by
  rintro lat lon h
  obtain ⟨key, _, hkey⟩ := List.exists_of_findSome?_eq_some h
  obtain ⟨v, _, hv⟩ := Option.bind_eq_some_iff.1 hkey
  exact parseLatlonPair_valid v lat lon hv

theorem splitParams_valid (params : List (List Char × List Char)) : AllValid (splitParams params) := by
  unfold splitParams
  split
  · exact readPosition_valid _ _
  · exact .none

theorem urlCoords_valid (url : List Char) (parsed : Url) (params : List (List Char × List Char)) :
    AllValid (urlCoords url parsed params) := by
  have hat : AllValid (urlPathAtCoords parsed.path) := .or (urlPathAtScan_valid _ _ _) (urlPathAtScan_valid _ _ _)
  exact .or (pairParam_valid _ _) <| .or (google3d4dScan_valid _ _ .none) <| .or (splitParams_valid _) <|
    .or (pairParam_valid _ _) <| .or hat (slashRunCoords_valid _)

theorem destinationValue_sound {v : List Char} (hv : Sendable v) : Sound (destinationValue v) := by
  unfold destinationValue
  split
  · rename_i lat lon heq
    exact parseLatlonPair_valid v lat lon heq
  · exact ⟨by rw [trimChars_trimChars]; exact hv.1, Nat.le_trans (length_trimChars v) hv.2⟩

theorem parseMapUrl_sound (hU : U.Bounded) {url : List Char} (hlen : url.length ≤ maxShareTextLen) {dest : Destination}
    (h : parseMapUrl U url = some dest) : Sound dest := by
  unfold parseMapUrl at h
  split at h
  · cases h
  · rename_i parsed hp
    have hparam := urlParams_length hU hp
    dsimp only at h
    split at h
    · rename_i v hv
      cases h
      obtain ⟨hne, k, hk⟩ := destinationParam_spec hv
      exact destinationValue_sound ⟨hne, Nat.le_trans (hparam k v hk) hlen⟩
    · split at h
      · rename_i lat lon hc
        cases h
        exact urlCoords_valid _ _ _ lat lon hc
      · obtain ⟨a, ha, rfl⟩ := Option.map_eq_some_iff.1 h
        obtain ⟨hne, k, v, hk, rfl⟩ := searchText_spec ha
        exact ⟨hne, Nat.le_trans (length_trimChars v) (Nat.le_trans (hparam k v hk) hlen)⟩

theorem urlDestination_sound (hU : U.Bounded) {trimmed : List Char} (hlen : trimmed.length ≤ maxShareTextLen)
    {dest : Destination} (h : urlDestination U trimmed = some dest) : Sound dest := by
  unfold urlDestination at h
  split at h
  · cases h
  · rename_i url hurl
    have hul := (firstUrlToken_spec hurl).2
    split at h
    · rename_i heq
      cases h
      exact parseMapUrl_sound hU (Nat.le_trans hul hlen) heq
    · split at h
      · rename_i hline
        cases h
        exact ⟨(firstNonEmptyLine_spec hline).1, Nat.le_trans hul hlen⟩
      · cases h

theorem lineDestination_sound {line : List Char} (hl : Sendable line) {dest : Destination}
    (h : lineDestination line = .ok dest) : Sound dest := by
  unfold lineDestination at h
  split at h
  · rename_i lat lon heq
    cases h
    exact parseLatlonPair_valid line lat lon heq
  · split at h
    · cases h
    · cases h
      exact hl

theorem geoQueryAddr_spec (hU : U.Bounded) {rest a : List Char} (h : geoQueryAddr U rest = some a) :
    trimChars a ≠ [] ∧ a.length ≤ rest.length := by
  have hd : (rest.dropWhile (· ≠ '?')).length ≤ rest.length := (List.dropWhile_suffix _).length_le
  unfold geoQueryAddr at h
  split at h
  · cases h
  · rename_i c q heq
    obtain ⟨hparam, hblank⟩ := Option.filter_eq_some_iff.1 h
    obtain ⟨k, hk⟩ := findParam_mem hparam
    have hq : a.length ≤ q.length := hU.form q (k, a) hk
    rw [heq, List.length_cons] at hd
    exact ⟨by simpa [isBlank] using hblank, by omega⟩

theorem parseGeoUri_sound (hU : U.Bounded) {rest : List Char} (hlen : rest.length ≤ maxShareTextLen) {dest : Destination}
    (h : parseGeoUri U rest = .ok (some dest)) : Sound dest := by
  have haddr : ∀ d, (geoQueryAddr U rest).map Destination.address = some d → Sound d := by
    intro d hd
    obtain ⟨a, ha, rfl⟩ := Option.map_eq_some_iff.1 hd
    have hspec := geoQueryAddr_spec hU ha
    exact ⟨hspec.1, Nat.le_trans hspec.2 hlen⟩
  unfold parseGeoUri at h
  dsimp only at h
  split at h
  · rename_i lat lon heq
    split at h
    · exact haddr dest (Except.ok.inj h)
    · cases h
      exact parseLatlonPair_valid _ lat lon heq
  · split at h
    · cases h
    · exact haddr dest (Except.ok.inj h)

/-- The line the geo: test and the address fallback read. -/
def shareLine (trimmed : List Char) : List Char := (firstNonEmptyLine trimmed).getD trimmed

theorem shareLine_sendable {trimmed : List Char} (ht : Sendable trimmed) : Sendable (shareLine trimmed) := by
  unfold shareLine
  cases hl : firstNonEmptyLine trimmed with
  | none => exact ht
  | some line =>
    have hspec := firstNonEmptyLine_spec hl
    exact ⟨hspec.1, Nat.le_trans hspec.2 ht.2⟩

theorem stripPrefix_length {s p rest : List Char} (h : stripPrefixCaseInsensitive s p = some rest) :
    rest.length ≤ s.length := by
  unfold stripPrefixCaseInsensitive at h
  split at h
  · cases h
    rw [List.length_drop]
    omega
  · cases h

/-- The paths behind an accepted text. -/
theorem parseSharedText_ok {input : List Char} {dest : Destination} (h : parseSharedText U input = .ok dest) :
    Sendable (trimChars input) ∧
      (urlDestination U (trimChars input) = some dest ∨
        urlDestination U (trimChars input) = none ∧
          ((∃ rest, stripPrefixCaseInsensitive (shareLine (trimChars input)) "geo:".toList = some rest ∧
              parseGeoUri U rest = .ok (some dest)) ∨
            lineDestination (shareLine (trimChars input)) = .ok dest)) := by
  unfold parseSharedText at h
  split at h
  · cases h
  · rename_i hlen
    dsimp only at h
    split at h
    · cases h
    · rename_i hne
      refine ⟨⟨by rw [trimChars_trimChars]; exact hne, Nat.le_trans (length_trimChars input) (Nat.not_lt.1 hlen)⟩, ?_⟩
      split at h
      · rename_i heq
        cases h
        exact .inl heq
      · rename_i hurl
        refine .inr ⟨hurl, ?_⟩
        split at h
        · exact .inr h
        · rename_i rest hstrip
          split at h
          · cases h
          · rename_i heq
            cases h
            exact .inl ⟨rest, hstrip, heq⟩
          · exact .inr h

/-- Whatever is accepted is a valid position, or text that is not blank and within the limit. -/
theorem parseSharedText_sound (hU : U.Bounded) {input : List Char} {dest : Destination}
    (h : parseSharedText U input = .ok dest) : Sound dest := by
  obtain ⟨hs, hurl | ⟨_, ⟨rest, hstrip, hgeo⟩ | hline⟩⟩ := parseSharedText_ok h
  · exact urlDestination_sound hU hs.2 hurl
  · have hl := shareLine_sendable hs
    exact parseGeoUri_sound hU (Nat.le_trans (stripPrefix_length hstrip) hl.2) hgeo
  · exact lineDestination_sound (shareLine_sendable hs) hline

end ElectricEel.Share
