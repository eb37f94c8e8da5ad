/-
  ElectricEel.Share.Fragment — OpenStreetMap links, #map=ZOOM/LAT/LON
  (helper/src/share.rs: `slash_run_coords`).

  The scan cuts path and fragment at the slashes; a segment with a mark of a query or a
  form ends the run. LAT and LON stand in segments of their own as long as nothing follows
  them: with an item behind it, LON shares its segment with the item's & and the run ends
  at LAT.

  Proved: the scan answers with the last run of two bare numbers in range
  (`slashRunCoords_runs`); a link without other coordinates gives LAT and LON exactly when
  it is within the limit and has no items, or writes LAT/LON once more between slashes,
  with no such run behind it (`osm_iff`).
-/
import ElectricEel.Share.Geo
import ElectricEel.Share.Influence

namespace ElectricEel.Share

open Lib Config

variable {U : UrlCrate}

/-! ## Links -/

/-- base#map=ZOOM/LAT/LON and the items behind their ampersands. -/
structure OsmUrl where
  base : List Char
  zoom : List Char
  lat : Decimal
  lon : Decimal
  items : List (List Char)
  web : isWebUrl base = true
  base_plain : '#' ∉ base
  zoom_plain : '/' ∉ zoom ∧ '#' ∉ zoom
  valid : validLatlon lat.value lon.value = true
  /-- LON does not end in a point. -/
  lon_digit : ∀ c, lon.text.getLast? = some c → c.isDigit = true
  one_word : ∀ c ∈ base ++ zoom ++ joined '&' items, isWhitespace c = false

namespace OsmUrl

variable (g : OsmUrl)

def withTail (t : List Char) : List Char :=
  g.base ++ '#' :: ("map=".toList ++ g.zoom ++ '/' :: (g.lat.text ++ '/' :: (g.lon.text ++ t)))

def text : List Char := g.withTail (joined '&' g.items)

/-- The items without the punctuation at the end of the link. -/
def tail : List Char := (joined '&' g.items).rdropWhile urlPunctuation

/-- The token the parser takes for the URL. -/
def token : List Char := g.withTail g.tail

end OsmUrl

/-- A segment that is a number and nothing else. -/
def bareNumber (seg : List Char) : Option F64 :=
  if seg.any fun c => c == '?' || c == '&' || c == '=' || c == '@' || c == '!' then none
  else (F64.parse (trimChars seg)).filter F64.isFinite

/-- The runs of bare numbers, the first one begun. -/
def numberRuns : List F64 → List (List Char) → List (List F64)
  | run, [] => [run]
  | run, seg :: segs =>
    match bareNumber seg with
    | some v => numberRuns (run ++ [v]) segs
    | none => run :: numberRuns [] segs

namespace OsmUrl

variable (g : OsmUrl)

/-- The runs of the path's segments before the last one, and of the items' behind their first slash. -/
def otherRuns : List (List F64) :=
  numberRuns [] ((beforeQuery g.base).splitOn '/').dropLast ++ numberRuns [] ((g.tail.takeWhile (· ≠ '#')).splitOn '/').tail

/-- LAT and LON stand there as well, and no position behind them. -/
def Repeated : Prop :=
  ∃ before after, g.otherRuns = before ++ [g.lat.value, g.lon.value] :: after ∧
    ∀ lat lon, [lat, lon] ∈ after → validLatlon lat lon = false

end OsmUrl

/-! ## Splitting -/

theorem rdropWhile_append_cons {p : Char → Bool} {c : Char} (h : p c = false) (a b : List Char) :
    (a ++ c :: b).rdropWhile p = a ++ c :: b.rdropWhile p := by
  induction b using List.reverseRecOn with
  | nil => rw [List.rdropWhile_nil, List.rdropWhile_concat_neg _ _ _ (by simp [h])]
  | append_singleton b d ih =>
    rw [← List.cons_append, ← List.append_assoc, List.rdropWhile_concat, List.rdropWhile_concat]
    split
    · exact ih
    · simp

theorem splitOn_first (sep : Char) (s : List Char) : (s.splitOn sep)[0]? = some (s.takeWhile (· ≠ sep)) := by
  obtain ⟨t, ts, hsplit, hs, ht, -⟩ := splitOn_joined sep s
  rw [hsplit]
  conv => rhs; rw [hs]
  rw [(takeWhile_joined ht ts).1]
  rfl

/-- Text without a separator joins the last piece. -/
theorem splitOn_append {sep : Char} {t : List Char} (ht : sep ∉ t) (s : List Char) :
    ∃ u, (s ++ t).splitOn sep = (s.splitOn sep).dropLast ++ [u ++ t] := by
  induction s with
  | nil => exact ⟨[], by simp [List.splitOn_eq_singleton ht]⟩
  | cons c s ih =>
    obtain ⟨u, hu⟩ := ih
    obtain ⟨a, as, ha⟩ := List.exists_cons_of_ne_nil (List.splitOn_ne_nil sep s)
    rw [List.cons_append, List.splitOn_cons_eq_if_modifyHead, List.splitOn_cons_eq_if_modifyHead, hu, ha]
    split
    · exact ⟨u, by simp⟩
    · cases as with
      | nil => exact ⟨c :: u, by simp⟩
      | cons b bs => exact ⟨u, by simp⟩

/-! ## Runs -/

/-- A run of two that is a position. -/
def readRun (run : List F64) : Option (F64 × F64) := flushRun run none

theorem readRun_iff {run : List F64} {lat lon : F64} : readRun run = some (lat, lon) ↔ run = [lat, lon] ∧ validLatlon lat lon = true := by
  unfold readRun flushRun
  split
  · rename_i a b
    split
    · rename_i hv
      constructor
      · intro h
        cases h
        exact ⟨rfl, hv⟩
      · rintro ⟨h, -⟩
        cases h
        rfl
    · rename_i hv
      constructor
      · nofun
      · rintro ⟨h, hv'⟩
        cases h
        exact (hv hv').elim
  · rename_i hno
    constructor
    · nofun
    · rintro ⟨rfl, -⟩
      exact (hno lat lon rfl).elim

theorem readRun_eq_none {run : List F64} : readRun run = none ↔ ∀ lat lon, run = [lat, lon] → validLatlon lat lon = false := by
  constructor
  · rintro h lat lon rfl
    rw [Bool.eq_false_iff]
    exact fun hv => nomatch h.symm.trans (readRun_iff.2 ⟨rfl, hv⟩)
  · intro h
    cases hr : readRun run with
    | none => rfl
    | some p =>
      obtain ⟨hrun, hv⟩ := readRun_iff.1 hr
      rw [h p.1 p.2 hrun] at hv
      cases hv

theorem flushRun_or (run : List F64) (best : Option (F64 × F64)) : flushRun run best = (readRun run).or best := by
  unfold readRun flushRun
  split
  · split <;> rfl
  · rfl

theorem slashRunStep_eq (s : List F64 × Option (F64 × F64)) (seg : List Char) :
    slashRunStep s seg =
      match bareNumber seg with
      | some v => (s.1 ++ [v], s.2)
      | none => ([], (readRun s.1).or s.2) := by
  unfold slashRunStep bareNumber
  rw [flushRun_or]
  split
  · rfl
  · cases F64.parse (trimChars seg) with
    | none => rfl
    | some v =>
      rw [Option.filter_some]
      dsimp only
      split <;> rfl

/-- The run reader answers with the last run that is a position. -/
theorem flushRun_foldl (segs : List (List Char)) (s : List F64 × Option (F64 × F64)) :
    flushRun (segs.foldl slashRunStep s).1 (segs.foldl slashRunStep s).2 = ((numberRuns s.1 segs).filterMap readRun).getLast?.or s.2 := by
  induction segs generalizing s with
  | nil =>
    rw [List.foldl_nil, flushRun_or, numberRuns]
    cases hr : readRun s.1 with
    | none => rw [List.filterMap_cons_none hr]; rfl
    | some p => rw [List.filterMap_cons_some hr]; rfl
  | cons seg segs ih =>
    rw [List.foldl_cons, ih, slashRunStep_eq, numberRuns]
    cases bareNumber seg with
    | some v => rfl
    | none =>
      dsimp only
      cases hr : readRun s.1 with
      | none => rw [List.filterMap_cons_none hr, Option.none_or]
      | some p =>
        rw [List.filterMap_cons_some hr, List.getLast?_cons, Option.some_or]
        cases ((numberRuns [] segs).filterMap readRun).getLast? <;> rfl

/-- `path_and_frag`. -/
def pathAndFrag (url : List Char) : List Char :=
  (url.takeWhile fun c => c ≠ '?' ∧ c ≠ '#') ++ '#' :: ((url.splitOn '#')[1]?).getD []

/-- The last run of two bare numbers in range is the scan's answer. -/
theorem slashRunCoords_runs (url : List Char) :
    slashRunCoords url = ((numberRuns [] ((pathAndFrag url).splitOn '/')).filterMap readRun).getLast? := by
  unfold slashRunCoords
  dsimp only
  rw [flushRun_foldl, Option.or_none]
  rfl

/-- A segment that is no number ends the run. -/
theorem numberRuns_append {seg : List Char} (h : bareNumber seg = none) (run : List F64) (segs segs' : List (List Char)) :
    numberRuns run (segs ++ seg :: segs') = numberRuns run segs ++ numberRuns [] segs' := by
  induction segs generalizing run with
  | nil => simp only [List.nil_append, numberRuns, h, List.cons_append]
  | cons s segs ih =>
    rw [List.cons_append, numberRuns, numberRuns]
    cases bareNumber s with
    | some v => exact ih _
    | none => rw [ih, List.cons_append]

theorem bareNumber_mark {seg : List Char}
    (h : seg.any (fun c => c == '?' || c == '&' || c == '=' || c == '@' || c == '!') = true) : bareNumber seg = none := if_pos h

theorem decimalChar_unmarked {c : Char} (h : decimalChar c = true) :
    (c == '?' || c == '&' || c == '=' || c == '@' || c == '!') = false ∧ c ≠ '/' ∧ c ≠ '#' := by
  have hne : ∀ d : Char, decimalChar d = false → c ≠ d := by
    rintro d hd rfl
    rw [h] at hd
    exact absurd hd (by simp)
  refine ⟨?_, hne _ (by decide), hne _ (by decide)⟩
  simp [hne '?' (by decide), hne '&' (by decide), hne '=' (by decide), hne '@' (by decide), hne '!' (by decide)]

theorem bareNumber_decimal (d : Decimal) (hf : d.value.isFinite = true) : bareNumber d.text = some d.value := by
  have hmark : d.text.any (fun c => c == '?' || c == '&' || c == '=' || c == '@' || c == '!') = false := by
    rw [List.any_eq_false]
    intro c hc
    rw [(decimalChar_unmarked (d.chars c hc)).1]
    simp
  have htrim : trimChars d.text = d.text := trimMatches_self fun c hc => (decimalChar_plain (d.chars c hc)).1
  unfold bareNumber
  rw [hmark, htrim, d.read, Option.filter_some, hf]
  rfl

namespace OsmUrl

variable (g : OsmUrl)

theorem finite : g.lat.value.isFinite = true ∧ g.lon.value.isFinite = true :=
  ⟨(validLatlon_iff.1 g.valid).1.1, (validLatlon_iff.1 g.valid).2.1⟩

theorem decimal_plain (d : Decimal) : '/' ∉ d.text ∧ '#' ∉ d.text :=
  ⟨fun h => (decimalChar_unmarked (d.chars _ h)).2.1 rfl, fun h => (decimalChar_unmarked (d.chars _ h)).2.2 rfl⟩

/-! ## The token -/

theorem lon_ne_nil : g.lon.text ≠ [] := by
  intro h
  have hr := g.lon.read
  rw [h] at hr
  exact absurd hr (by simp [F64.parse, F64.takeSign, F64.parseNumber])

theorem token_eq : trimMatches urlPunctuation g.text = g.token := by
  have hhead : g.text.dropWhile urlPunctuation = g.text := by
    obtain ⟨c, t, hc, hch⟩ := isWebUrl_startsH g.web
    have hp : urlPunctuation c = false := by rcases hch with rfl | rfl <;> decide
    unfold text withTail
    rw [hc, List.cons_append, List.dropWhile_cons_of_neg (by simp [hp])]
  rw [trimMatches, hhead]
  unfold text token tail withTail
  cases hi : g.items with
  | nil =>
    -- LON's last digit is no punctuation
    rw [joined_nil, List.rdropWhile_nil, List.append_nil, List.rdropWhile_eq_self_iff]
    intro hne
    have hlast : ∀ (hl : (g.base ++ '#' :: ("map=".toList ++ g.zoom ++ '/' :: (g.lat.text ++ '/' :: g.lon.text))) ≠ []),
        List.getLast _ hl = g.lon.text.getLast g.lon_ne_nil := by
      intro hl
      simp [g.lon_ne_nil]
    rw [hlast hne]
    have hd := g.lon_digit _ (List.getLast?_eq_some_getLast g.lon_ne_nil)
    generalize g.lon.text.getLast g.lon_ne_nil = c at hd
    have hne' : ∀ d : Char, d.isDigit = false → c ≠ d := by
      rintro d hd' rfl
      rw [hd] at hd'
      exact absurd hd' (by simp)
    simp [urlPunctuation, hne' '(' (by decide), hne' ')' (by decide), hne' '<' (by decide), hne' '>' (by decide),
      hne' '"' (by decide), hne' '\'' (by decide), hne' '.' (by decide), hne' ',' (by decide), hne' ';' (by decide),
      hne' '!' (by decide), hne' '?' (by decide), hne' ':' (by decide)]
  | cons i is =>
    have hamp : urlPunctuation '&' = false := by decide
    have hassoc : ∀ t : List Char, g.base ++ '#' :: ("map=".toList ++ g.zoom ++ '/' :: (g.lat.text ++ '/' :: (g.lon.text ++ '&' :: t))) =
        (g.base ++ '#' :: ("map=".toList ++ g.zoom ++ '/' :: (g.lat.text ++ '/' :: g.lon.text))) ++ '&' :: t := by
      intro t
      simp
    have htail : ('&' :: (i ++ joined '&' is)).rdropWhile urlPunctuation = '&' :: (i ++ joined '&' is).rdropWhile urlPunctuation :=
      rdropWhile_append_cons hamp [] _
    rw [joined_cons, hassoc, rdropWhile_append_cons hamp, htail, hassoc]

/-- The tail is empty or begins with the first item's &. -/
theorem tail_cases : g.items = [] ∧ g.tail = [] ∨ g.items ≠ [] ∧ ∃ t, g.tail = '&' :: t := by
  unfold tail
  cases hi : g.items with
  | nil => exact .inl ⟨rfl, rfl⟩
  | cons i is =>
    rw [joined_cons]
    exact .inr ⟨nofun, _, rdropWhile_append_cons (by decide) [] _⟩

/-! ## The scan on the token -/

theorem path_token : g.token.takeWhile (fun c => c ≠ '?' ∧ c ≠ '#') = beforeQuery g.base := by
  unfold token withTail beforeQuery
  rw [List.takeWhile_append]
  split
  · rename_i hlen
    have hself : g.base.takeWhile (fun c => decide (c ≠ '?' ∧ c ≠ '#')) = g.base :=
      (List.takeWhile_prefix _).eq_of_length hlen
    rw [hself]
    simp
  · rfl

theorem fragment_token :
    (g.token.splitOn '#')[1]? =
      some ("map=".toList ++ g.zoom ++ '/' :: (g.lat.text ++ '/' :: (g.lon.text ++ g.tail.takeWhile (· ≠ '#')))) := by
  have hbase : ∀ c ∈ g.base, (decide (c ≠ '#')) = true := fun c hc => decide_eq_true fun h => g.base_plain (h ▸ hc)
  have hfront : ∀ c ∈ "map=".toList ++ g.zoom ++ '/' :: (g.lat.text ++ '/' :: g.lon.text), (decide (c ≠ '#')) = true := by
    intro c hc
    rw [decide_eq_true_iff]
    rintro rfl
    simp only [List.mem_append, List.mem_cons] at hc
    rcases hc with (hc | hc) | hc | hc | hc | hc
    · exact absurd hc (by decide)
    · exact g.zoom_plain.2 hc
    · exact absurd hc (by decide)
    · exact (decimal_plain g.lat).2 hc
    · exact absurd hc (by decide)
    · exact (decimal_plain g.lon).2 hc
  have hassoc : ∀ t : List Char, "map=".toList ++ g.zoom ++ '/' :: (g.lat.text ++ '/' :: (g.lon.text ++ t)) =
      ("map=".toList ++ g.zoom ++ '/' :: (g.lat.text ++ '/' :: g.lon.text)) ++ t := by
    intro t
    simp
  rw [splitOn_second]
  unfold token withTail
  rw [List.dropWhile_append_of_pos hbase, List.dropWhile_cons_of_neg (by simp)]
  dsimp only
  rw [splitOn_first, hassoc, List.takeWhile_append_of_pos hfront, ← hassoc]

/-- The segments the scan reads, and what it makes of them. -/
theorem slashRunCoords_token :
    slashRunCoords g.token =
      if g.items = [] then some (g.lat.value, g.lon.value) else (g.otherRuns.filterMap readRun).getLast? := by
  have hmap : '/' ∉ '#' :: ("map=".toList ++ g.zoom) := by
    simp only [List.mem_cons, List.mem_append]
    rintro (h | h | h)
    · exact absurd h (by decide)
    · exact absurd h (by decide)
    · exact g.zoom_plain.1 h
  obtain ⟨u, hu⟩ := splitOn_append hmap (beforeQuery g.base)
  have hsegs : (beforeQuery g.base ++ '#' :: ("map=".toList ++ g.zoom ++ '/' :: (g.lat.text ++ '/' ::
        (g.lon.text ++ g.tail.takeWhile (· ≠ '#'))))).splitOn '/' =
      ((beforeQuery g.base).splitOn '/').dropLast ++ (u ++ '#' :: ("map=".toList ++ g.zoom)) :: g.lat.text ::
        (g.lon.text ++ g.tail.takeWhile (· ≠ '#')).splitOn '/' := by
    have hassoc : ∀ t : List Char, beforeQuery g.base ++ '#' :: ("map=".toList ++ g.zoom ++ '/' :: t) =
        (beforeQuery g.base ++ '#' :: ("map=".toList ++ g.zoom)) ++ '/' :: t := by
      intro t
      simp
    rw [hassoc, List.splitOn_append_cons_self, hu, List.splitOn_append_cons_self_of_not_mem (decimal_plain g.lat).1]
    simp
  have hmark : bareNumber (u ++ '#' :: ("map=".toList ++ g.zoom)) = none := bareNumber_mark (by simp)
  have hruns : ∀ segs : List (List Char),
      numberRuns [] (((beforeQuery g.base).splitOn '/').dropLast ++ (u ++ '#' :: ("map=".toList ++ g.zoom)) :: g.lat.text :: segs) =
        numberRuns [] ((beforeQuery g.base).splitOn '/').dropLast ++ numberRuns [g.lat.value] segs := by
    intro segs
    rw [numberRuns_append hmark, numberRuns, bareNumber_decimal _ g.finite.1]
    rfl
  rw [slashRunCoords_runs, pathAndFrag, path_token, fragment_token, Option.getD_some, hsegs, hruns]
  rcases g.tail_cases with ⟨hi, ht⟩ | ⟨hi, t, ht⟩
  · have hrun : numberRuns [g.lat.value] [g.lon.text] = [[g.lat.value, g.lon.value]] := by
      rw [numberRuns, bareNumber_decimal _ g.finite.2]
      rfl
    rw [if_pos hi, ht, List.takeWhile_nil, List.append_nil, List.splitOn_eq_singleton (decimal_plain g.lon).1, hrun]
    exact getLast?_read (readRun_iff.2 ⟨rfl, g.valid⟩) nofun
  · -- LON shares its segment with the first item
    obtain ⟨a, as, hsplit, hs, ha, has⟩ := splitOn_joined '/' (g.tail.takeWhile (· ≠ '#'))
    have hlon : (g.lon.text ++ g.tail.takeWhile (· ≠ '#')).splitOn '/' = (g.lon.text ++ a) :: as := by
      rw [hs, ← List.append_assoc]
      cases as with
      | nil =>
        rw [joined_nil, List.append_nil, List.splitOn_eq_singleton]
        simpa using ⟨(decimal_plain g.lon).1, ha⟩
      | cons b bs =>
        have hrest : (b ++ joined '/' bs).splitOn '/' = b :: bs := by
          rw [hs, joined_cons, List.splitOn_append_cons_self_of_not_mem ha] at hsplit
          exact (List.cons.inj hsplit).2
        rw [joined_cons, List.splitOn_append_cons_self_of_not_mem, hrest]
        simpa using ⟨(decimal_plain g.lon).1, ha⟩
    have hamp : '&' ∈ a := by
      have htake : g.tail.takeWhile (· ≠ '#') = '&' :: t.takeWhile (· ≠ '#') := by
        rw [ht, List.takeWhile_cons_of_pos (by decide)]
      have hfirst := splitOn_first '/' (g.tail.takeWhile (· ≠ '#'))
      rw [hsplit, htake, List.takeWhile_cons_of_pos (by decide)] at hfirst
      simp only [List.getElem?_cons_zero, Option.some.injEq] at hfirst
      rw [hfirst]
      exact List.mem_cons_self
    have hmarked : bareNumber (g.lon.text ++ a) = none :=
      bareNumber_mark (by rw [List.any_append, Bool.or_eq_true]; exact .inr (List.any_eq_true.2 ⟨'&', hamp, by decide⟩))
    have hrun : numberRuns [g.lat.value] ((g.lon.text ++ a) :: as) = [g.lat.value] :: numberRuns [] as := by rw [numberRuns, hmarked]
    have hother : g.otherRuns = numberRuns [] ((beforeQuery g.base).splitOn '/').dropLast ++ numberRuns [] as := by
      unfold otherRuns
      rw [hsplit]
      rfl
    -- LAT alone is no run of two
    have halone : readRun [g.lat.value] = none := rfl
    rw [if_neg hi, hlon, hrun, hother, List.filterMap_append, List.filterMap_append, List.filterMap_cons_none halone]

theorem repeated_iff : (g.otherRuns.filterMap readRun).getLast? = some (g.lat.value, g.lon.value) ↔ g.Repeated := by
  rw [getLast?_iff]
  constructor
  · rintro ⟨before, run, after, hsplit, hrun, hafter⟩
    obtain ⟨rfl, -⟩ := readRun_iff.1 hrun
    exact ⟨before, after, hsplit, fun lat lon hm => readRun_eq_none.1 (hafter _ hm) lat lon rfl⟩
  · rintro ⟨before, after, hsplit, hafter⟩
    refine ⟨before, _, after, hsplit, readRun_iff.2 ⟨rfl, g.valid⟩, fun run hm => readRun_eq_none.2 ?_⟩
    rintro lat lon rfl
    exact hafter lat lon hm

/-! ## The parser on a link -/

theorem startsH (t : List Char) : StartsH (g.withTail t) := by
  obtain ⟨c, u, hc, hch⟩ := isWebUrl_startsH g.web
  exact ⟨c, _, by unfold withTail; rw [hc, List.cons_append], hch⟩

theorem web_token : isWebUrl g.token = true := by
  have hpre : ∀ p : List Char, p.isPrefixOf (g.base.map Char.toLower) = true → p.isPrefixOf (g.token.map Char.toLower) = true := by
    intro p hp
    rw [List.isPrefixOf_iff_prefix] at hp ⊢
    unfold token withTail
    rw [List.map_append]
    exact hp.trans (List.prefix_append _ _)
  have hweb := g.web
  simp only [isWebUrl, Bool.or_eq_true] at hweb ⊢
  exact hweb.imp (hpre _) (hpre _)

theorem text_unbroken : ∀ c ∈ g.text, isWhitespace c = false := by
  have hd : ∀ d : Decimal, ∀ c ∈ d.text, isWhitespace c = false := fun d c hc => (decimalChar_plain (d.chars c hc)).1
  have hmarks : ∀ c ∈ "#map=/".toList, isWhitespace c = false := List.all_iff_forall_prop.1 (by decide)
  intro c hc
  simp only [text, withTail, List.mem_append, List.mem_cons] at hc
  rcases hc with hc | rfl | (hc | hc) | rfl | hc | rfl | hc | hc
  · exact g.one_word c (by simp [hc])
  · decide
  · exact hmarks c (by revert hc; simp; rintro (rfl | rfl | rfl | rfl) <;> simp)
  · exact g.one_word c (by simp [hc])
  · decide
  · exact hd _ c hc
  · decide
  · exact hd _ c hc
  · exact g.one_word c (by simp [hc])

theorem trimChars_text : trimChars g.text = g.text := trimMatches_self g.text_unbroken

theorem text_ne_nil : g.text ≠ [] := by
  obtain ⟨c, t, h, -⟩ := g.startsH (joined '&' g.items)
  rw [text, h]
  exact List.cons_ne_nil c t

theorem firstUrlToken_text : firstUrlToken g.text = some g.token := by
  unfold firstUrlToken splitWhitespace
  rw [List.splitOnP_eq_singleton g.text_unbroken, List.filter_cons_of_pos (by simpa using g.text_ne_nil), List.filter_nil,
    List.map_cons, List.map_nil, token_eq, List.find?_cons_of_pos g.web_token]

theorem firstNonEmptyLine_text : firstNonEmptyLine g.text = some g.text := by
  have hline : '\n' ∉ g.text := fun h => absurd (g.text_unbroken _ h) (by decide)
  have hlines : lines g.text = [g.text] := by
    unfold lines
    rw [List.splitOn_eq_singleton hline]
    simp [g.text_ne_nil]
  unfold firstNonEmptyLine
  rw [hlines, List.map_cons, List.map_nil, trimChars_text, List.find?_cons_of_pos (by simpa using g.text_ne_nil)]

/-- Without parameters and path coordinates the URL is what its slash runs say. -/
theorem parseMapUrl_token {p : Url} (hp : U.parse g.token = some p)
    (hparams : ∀ key ∈ recognisedKeys, findParam (urlParams U p) key = none)
    (hpath : google3d4dCoords p.path = none ∧ urlPathAtCoords p.path = none) :
    parseMapUrl U g.token = (slashRunCoords g.token).map fun c => .latLon c.1 c.2 := by
  have hempty : ∀ key ∈ recognisedKeys, findParam (urlParams U p) key = findParam [] key := hparams
  obtain ⟨hd, hs, hq, hl, ht⟩ := rules_congr hempty
  have hnone : destinationParam [] = none ∧ splitParams [] = none ∧ pairParam [] ["q", "query"] = none ∧
      pairParam [] ["ll", "cp"] = none ∧ searchText [] = none := ⟨rfl, rfl, rfl, rfl, rfl⟩
  unfold parseMapUrl
  rw [hp]
  dsimp only
  rw [hd, hnone.1]
  dsimp only
  unfold urlCoords
  rw [hq, hs, hl, ht, hnone.2.1, hnone.2.2.1, hnone.2.2.2.1, hnone.2.2.2.2, hpath.1, hpath.2]
  simp only [Option.none_or, Option.map_none]
  cases slashRunCoords g.token <;> rfl

/-- A link the scan finds nothing in is no position. -/
theorem no_position (hmap : parseMapUrl U g.token = none) (lat lon : F64) :
    parseSharedText U g.text ≠ .ok (.latLon lat lon) := by
  intro h
  have hH := g.startsH (joined '&' g.items)
  have hok := parseSharedText_ok h
  rw [trimChars_text] at hok
  have hline : shareLine g.text = g.text := by rw [shareLine, firstNonEmptyLine_text, Option.getD_some]
  rw [hline] at hok
  rcases hok.2 with hu | ⟨-, ⟨rest, hstrip, -⟩ | hl⟩
  · unfold urlDestination at hu
    rw [firstUrlToken_text] at hu
    dsimp only at hu
    rw [hmap] at hu
    dsimp only at hu
    split at hu <;> cases hu
  · -- no geo: URI begins with an h
    obtain ⟨c, t, hc, hch⟩ := hH
    unfold stripPrefixCaseInsensitive text at hstrip
    rw [hc] at hstrip
    split at hstrip
    · rename_i hsame
      have hg : c.toLower = 'g' := (List.cons.inj (beq_iff_eq.1 hsame)).1
      rcases hch with rfl | rfl
      · exact absurd hg (by decide)
      · exact absurd hg (by decide)
    · cases hstrip
  · have hnone := numericPair_startsH hH
    unfold lineDestination text at hl
    rw [parseLatlonPair_none hnone] at hl
    dsimp only at hl
    split at hl <;> cases hl

end OsmUrl

/-! ## Shared links -/

/-- A link without parameters the parser knows and without coordinates in its path gives
    its LAT and LON exactly when it is within the limit and has no items, or repeats them. -/
theorem osm_iff (g : OsmUrl) (p : Url) (hp : U.parse g.token = some p)
    (hparams : ∀ key ∈ recognisedKeys, findParam (urlParams U p) key = none)
    (hpath : google3d4dCoords p.path = none ∧ urlPathAtCoords p.path = none) :
    parseSharedText U g.text = .ok (.latLon g.lat.value g.lon.value) ↔
      g.text.length ≤ maxShareTextLen ∧ (g.items = [] ∨ g.Repeated) := by
  have hmap := g.parseMapUrl_token hp hparams hpath
  by_cases hlen : g.text.length ≤ maxShareTextLen
  · have hscan : parseSharedText U g.text = .ok (.latLon g.lat.value g.lon.value) ↔
        slashRunCoords g.token = some (g.lat.value, g.lon.value) := by
      cases hs : slashRunCoords g.token with
      | none =>
        rw [hs, Option.map_none] at hmap
        exact ⟨fun h => absurd h (g.no_position hmap _ _), nofun⟩
      | some c =>
        have hdest : urlDestination U g.text = some (.latLon c.1 c.2) := by
          unfold urlDestination
          rw [g.firstUrlToken_text]
          dsimp only
          rw [hmap, hs]
          rfl
        have hparse : parseSharedText U g.text = .ok (.latLon c.1 c.2) := by
          unfold parseSharedText
          rw [if_neg (Nat.not_lt.2 hlen)]
          dsimp only
          rw [g.trimChars_text, if_neg g.text_ne_nil, hdest]
        rw [hparse]
        simp [Prod.ext_iff]
    rw [hscan, g.slashRunCoords_token]
    by_cases hi : g.items = []
    · simp [hi, hlen]
    · rw [if_neg hi, g.repeated_iff]
      simp [hi, hlen]
  · have hparse : parseSharedText U g.text = .error .tooLong := by
      unfold parseSharedText
      rw [if_pos (Nat.lt_of_not_le hlen)]
    rw [hparse]
    exact ⟨nofun, fun h => absurd h.1 hlen⟩

/-! ## The defect -/

def osmLink : OsmUrl :=
  { base := "https://www.openstreetmap.org/".toList
    zoom := "17".toList
    lat := ⟨"48.25".toList, .fin (193 * 2 ^ 1072), latitude_chars, latitude_read⟩
    lon := ⟨"2.5".toList, .fin (5 * 2 ^ 1073), List.all_iff_forall_prop.1 (by decide), by decide +kernel⟩
    items := []
    web := by decide
    base_plain := by decide
    zoom_plain := by decide
    valid := by decide +kernel
    lon_digit := fun c hc => by
      have hlast : "2.5".toList.getLast? = some '5' := by decide
      cases hlast.symm.trans hc
      decide
    one_word := List.all_iff_forall_prop.1 (by decide) }

/-- The same with a layer. -/
def layerLink : OsmUrl := { osmLink with items := ["layers=N".toList], one_word := List.all_iff_forall_prop.1 (by decide) }

/-- A link with a layer goes to the geocoder, as text. -/
theorem osm_items_sent :
    layerLink.text = "https://www.openstreetmap.org/#map=17/48.25/2.5&layers=N".toList ∧
      parseSharedText markedUrls layerLink.text = .ok (.address layerLink.text) ∧
      parseSharedText markedUrls layerLink.text ≠ .ok (.latLon layerLink.lat.value layerLink.lon.value) :=
  ⟨by decide, by decide +kernel, by decide +kernel⟩

/-- The bare link is a point. -/
theorem osm_iff_bare : parseSharedText markedUrls osmLink.text = .ok (.latLon osmLink.lat.value osmLink.lon.value) :=
  (osm_iff osmLink ⟨"/".toList, none, some "map=17/48.25/2.5".toList⟩ (by decide +kernel) (by decide +kernel)
    ⟨by decide +kernel, by decide +kernel⟩).2 ⟨by decide, .inl rfl⟩

end ElectricEel.Share
