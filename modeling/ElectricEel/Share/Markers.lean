/-
  ElectricEel.Share.Markers — `google_3d4d_coords` on a path of tokens.

  A path is a prefix and the tokens behind its '!' marks. A position is a 3d token and the
  4d token right behind it. The scan takes the first 3d token it meets and pairs it with
  the next 4d token, whatever stands between them, so a 3d token without a 4d of its own
  lends its latitude to a later 4d, and hides the 3d token that belongs there.

  Proved: the length of the text is enough fuel, as every pass shortens it
  (`google3d4dScan_eq`); the scan reads each 4d token with the first 3d token since the 4d
  token before it (`google3d4dScan_stretches`), a reader of adjacent tokens with the token
  right before (`adjacent_eq`); the two agree exactly where the stretches are `Unmixed`
  (`google3d4d_iff`).
-/
import ElectricEel.Share.Coords

namespace ElectricEel.Share

open Lib

/-- What stands behind each '!'. -/
def markTokens (url : List Char) : List (List Char) := (url.splitOn '!').tail

theorem markTokens_spec (url : List Char) :
    ∃ pre, url = pre ++ joined '!' (markTokens url) ∧ '!' ∉ pre ∧ ∀ t ∈ markTokens url, '!' ∉ t := by
  obtain ⟨pre, ts, hsplit, hurl, hpre, hts⟩ := splitOn_joined '!' url
  exact ⟨pre, by rw [markTokens, hsplit]; exact hurl, hpre, by rw [markTokens, hsplit]; exact hts⟩

/-! ## Positions -/

def is3d (t : List Char) : Bool := ['3', 'd'].isPrefixOf t

def is4d (t : List Char) : Bool := ['4', 'd'].isPrefixOf t

theorem is3d_not_is4d {t : List Char} (h : is4d t = true) : is3d t = false := by
  cases t with
  | nil => rfl
  | cons c t =>
    simp only [is4d, is3d, List.isPrefixOf, Bool.and_eq_true, beq_iff_eq] at h ⊢
    rw [← h.1]
    rfl

def readAdjacent (a b : List Char) : Option (F64 × F64) :=
  if is3d a && is4d b then readPosition (a.drop 2) (b.drop 2) else none

/-- The valid positions of adjacent tokens 3dLAT, 4dLON. -/
def adjacent : List (List Char) → List (F64 × F64)
  | a :: b :: ts => (readAdjacent a b).toList ++ adjacent (b :: ts)
  | _ => []

/-! ## The scan, token by token -/

/-- The loop over tokens: the latitude it holds, and the last valid position. -/
def tokenScan : Option (List Char) → List (List Char) → Option (F64 × F64) → Option (F64 × F64)
  | _, [], result => result
  | none, t :: ts, result => tokenScan (if is3d t then some (t.drop 2) else none) ts result
  | some lat, t :: ts, result =>
    if is4d t then tokenScan none ts ((readPosition lat (t.drop 2)).or result) else tokenScan (some lat) ts result

theorem tokenScan_none (ts : List (List Char)) (result : Option (F64 × F64)) :
    tokenScan none ts result =
      match cutPiece ['3', 'd'] ts with
      | none => result
      | some (lat, ts) => tokenScan (some lat) ts result := by
  induction ts with
  | nil => rfl
  | cons t ts ih =>
    rw [tokenScan, cutPiece]
    by_cases h : is3d t = true
    · have hp : ['3', 'd'].isPrefixOf t = true := h
      rw [if_pos h, if_pos hp]
      rfl
    · have hp : ¬['3', 'd'].isPrefixOf t = true := h
      rw [if_neg h, if_neg hp]
      exact ih

theorem tokenScan_some (lat : List Char) (ts : List (List Char)) (result : Option (F64 × F64)) :
    tokenScan (some lat) ts result =
      match cutPiece ['4', 'd'] ts with
      | none => result
      | some (lon, ts) => tokenScan none ts ((readPosition lat lon).or result) := by
  induction ts with
  | nil => rfl
  | cons t ts ih =>
    rw [tokenScan, cutPiece]
    by_cases h : is4d t = true
    · have hp : ['4', 'd'].isPrefixOf t = true := h
      rw [if_pos h, if_pos hp]
      rfl
    · have hp : ¬['4', 'd'].isPrefixOf t = true := h
      rw [if_neg h, if_neg hp]
      exact ih

theorem cutPiece_tokens {w : List Char} {ts rest : List (List Char)} {t : List Char} (hts : ∀ t ∈ ts, '!' ∉ t)
    (h : cutPiece w ts = some (t, rest)) : '!' ∉ t ∧ ∀ u ∈ rest, '!' ∉ u := by
  induction ts with
  | nil => cases h
  | cons u ts ih =>
    rw [cutPiece] at h
    split at h
    · cases h
      exact ⟨fun hm => hts u List.mem_cons_self (List.mem_of_mem_drop hm), fun v hv => hts v (List.mem_cons_of_mem _ hv)⟩
    · exact ih (fun v hv => hts v (List.mem_cons_of_mem _ hv)) h

/-- A search for a mark, its text and what the loop goes on with. -/
theorem cut_tokens {w a : List Char} (hw : '!' ∉ w) (ha : '!' ∉ a) {ts : List (List Char)} (hts : ∀ t ∈ ts, '!' ∉ t) :
    match cutPiece w ts with
    | none => cut ('!' :: w) (a ++ joined '!' ts) = none
    | some (t, rest) => ∃ before after, cut ('!' :: w) (a ++ joined '!' ts) = some (before, after) ∧
        after.takeWhile (· ≠ '!') = t ∧ after.dropWhile (· ≠ '!') = joined '!' rest := by
  have hcut := cut_joined hw hts
  split
  · rename_i hp
    rw [hp] at hcut
    rw [cut_skip w _ ha, Option.map_eq_none_iff]
    exact Option.map_eq_none_iff.1 hcut
  · rename_i t rest hp
    rw [hp] at hcut
    obtain ⟨⟨before, after⟩, hc, hafter⟩ := Option.map_eq_some_iff.1 hcut
    have ht := (cutPiece_tokens hts hp).1
    refine ⟨a ++ before, after, by rw [cut_skip w _ ha, hc]; rfl, ?_⟩
    rw [show after = t ++ joined '!' rest from hafter]
    exact takeWhile_joined ht rest

/-- Every pass shortens the text, so its length is enough fuel. -/
theorem google3d4dScan_eq {fuel : Nat} {a : List Char} {ts : List (List Char)} (ha : '!' ∉ a) (hts : ∀ t ∈ ts, '!' ∉ t)
    (hf : (a ++ joined '!' ts).length ≤ fuel) (result : Option (F64 × F64)) :
    google3d4dScan fuel (a ++ joined '!' ts) result = tokenScan none ts result := by
  induction fuel generalizing a ts result with
  | zero =>
    have hnil : a ++ joined '!' ts = [] := List.length_eq_zero_iff.1 (Nat.le_zero.1 hf)
    cases ts with
    | nil => rfl
    | cons t ts => simp at hnil
  | succ fuel ih =>
    have h3 := cut_tokens (w := ['3', 'd']) (by decide) ha hts
    rw [google3d4dScan, tokenScan_none]
    cases hp : cutPiece ['3', 'd'] ts with
    | none =>
      rw [hp] at h3
      simp only [h3]
    | some r =>
      obtain ⟨lat, ts'⟩ := r
      rw [hp] at h3
      obtain ⟨before, after, hc, hlat, hrest⟩ := h3
      have hts' := (cutPiece_tokens hts hp).2
      have h4 := cut_tokens (w := ['4', 'd']) (a := []) (by decide) (by simp) hts'
      simp only [hc, hlat, hrest, tokenScan_some]
      cases hp' : cutPiece ['4', 'd'] ts' with
      | none =>
        rw [hp'] at h4
        simp only [List.nil_append] at h4
        simp only [h4]
      | some r =>
        obtain ⟨lon, ts''⟩ := r
        rw [hp'] at h4
        obtain ⟨before', after', hc', hlon, hrest'⟩ := h4
        rw [List.nil_append] at hc'
        simp only [hc', hlon, hrest']
        refine ih (a := []) (by simp) (cutPiece_tokens hts' hp').2 ?_ _
        have hone : after.length < (a ++ joined '!' ts).length := cut_shorter (by simp) hc
        have htwo : after'.length < (joined '!' ts').length := cut_shorter (by simp) hc'
        have hdrop : (after.dropWhile (· ≠ '!')).length ≤ after.length := (List.dropWhile_suffix _).length_le
        have hdrop' : (after'.dropWhile (· ≠ '!')).length ≤ after'.length := (List.dropWhile_suffix _).length_le
        rw [hrest] at hdrop
        rw [hrest'] at hdrop'
        rw [List.nil_append]
        omega

/-! ## Stretches -/

/-- For each 4d token, the tokens since the 4d token before it, and its text. -/
def stretches : List (List Char) → List (List Char) → List (List (List Char) × List Char)
  | _, [] => []
  | acc, t :: ts => if is4d t then (acc, t.drop 2) :: stretches [] ts else stretches (acc ++ [t]) ts

/-- The 4d token with the first 3d token of its stretch. -/
def readFirst (g : List (List Char) × List Char) : Option (F64 × F64) :=
  (g.1.find? is3d).bind fun t => readPosition (t.drop 2) g.2

/-- The 4d token with the token right before it. -/
def readNearest (g : List (List Char) × List Char) : Option (F64 × F64) :=
  (g.1.getLast?.filter is3d).bind fun t => readPosition (t.drop 2) g.2

theorem tokenScan_eq (acc ts : List (List Char)) (result : Option (F64 × F64)) :
    tokenScan ((acc.find? is3d).map (·.drop 2)) ts result =
      ((stretches acc ts).filterMap readFirst).getLast?.or result := by
  induction ts generalizing acc result with
  | nil => cases (acc.find? is3d) <;> rfl
  | cons t ts ih =>
    rw [stretches]
    cases hheld : acc.find? is3d with
    | none =>
      simp only [Option.map_none, tokenScan]
      by_cases h4 : is4d t = true
      · have hfirst : readFirst (acc, t.drop 2) = none := by simp [readFirst, hheld]
        rw [if_pos h4, is3d_not_is4d h4, List.filterMap_cons_none hfirst]
        exact ih [] result
      · have hone : (acc ++ [t]).find? is3d = if is3d t then some t else none := by
          rw [List.find?_append, hheld, Option.none_or, List.find?_singleton]
        have hnext := ih (acc ++ [t]) result
        rw [hone] at hnext
        rw [if_neg h4, ← hnext]
        by_cases h3 : is3d t = true
        · rw [if_pos h3, if_pos h3]
          rfl
        · rw [if_neg h3, if_neg h3]
          rfl
    | some lat =>
      simp only [Option.map_some, tokenScan]
      by_cases h4 : is4d t = true
      · have hfirst : readFirst (acc, t.drop 2) = readPosition (lat.drop 2) (t.drop 2) := by simp [readFirst, hheld]
        have hnext := ih [] ((readPosition (lat.drop 2) (t.drop 2)).or result)
        rw [if_pos h4, if_pos h4, List.filterMap_cons, hfirst]
        rw [List.find?_nil, Option.map_none] at hnext
        rw [hnext]
        cases readPosition (lat.drop 2) (t.drop 2) with
        | none => rfl
        | some p => rw [List.getLast?_cons, Option.some_or]; cases (List.filterMap readFirst (stretches [] ts)).getLast? <;> rfl
      · have hone : (acc ++ [t]).find? is3d = some lat := by rw [List.find?_append, hheld, Option.some_or]
        have hnext := ih (acc ++ [t]) result
        rw [hone] at hnext
        rw [if_neg h4, if_neg h4, ← hnext]
        rfl

/-- The scan pairs each 4d token with the first 3d token of its stretch. -/
theorem google3d4dScan_stretches {fuel : Nat} {url : List Char} (hf : url.length ≤ fuel) :
    google3d4dScan fuel url none = ((stretches [] (markTokens url)).filterMap readFirst).getLast? := by
  obtain ⟨pre, hurl, hpre, hts⟩ := markTokens_spec url
  have hscan : google3d4dScan fuel (pre ++ joined '!' (markTokens url)) none = tokenScan none (markTokens url) none :=
    google3d4dScan_eq hpre hts (by rw [← hurl]; exact hf) none
  rw [← hurl] at hscan
  rw [hscan]
  have htok := tokenScan_eq [] (markTokens url) none
  rw [Option.or_none] at htok
  exact htok

theorem adjacent_stretches (acc ts : List (List Char)) :
    adjacent (acc.getLast?.toList ++ ts) = (stretches acc ts).filterMap readNearest := by
  induction ts generalizing acc with
  | nil => cases acc.getLast? <;> rfl
  | cons t ts ih =>
    have hstep : adjacent (acc.getLast?.toList ++ t :: ts) =
        (acc.getLast?.bind fun a => readAdjacent a t).toList ++ adjacent (t :: ts) := by
      cases acc.getLast? <;> rfl
    rw [hstep, stretches]
    by_cases h4 : is4d t = true
    · -- a 4d token begins no position
      have hnext : adjacent (t :: ts) = adjacent ts := by
        cases ts with
        | nil => rfl
        | cons u ts => simp [adjacent, readAdjacent, is3d_not_is4d h4]
      have hread : (acc.getLast?.bind fun a => readAdjacent a t) = readNearest (acc, t.drop 2) := by
        cases hl : acc.getLast? with
        | none => simp [readNearest, hl]
        | some a => by_cases h3 : is3d a = true <;> simp [readNearest, readAdjacent, hl, h3, h4, Option.filter]
      have hrest : adjacent ts = (stretches [] ts).filterMap readNearest := ih []
      rw [if_pos h4, hread, hnext, hrest]
      cases hn : readNearest (acc, t.drop 2) with
      | none => rw [List.filterMap_cons_none hn]; rfl
      | some p => rw [List.filterMap_cons_some hn]; rfl
    · have hread : (acc.getLast?.bind fun a => readAdjacent a t) = none := by
        cases acc.getLast? <;> simp [readAdjacent, h4]
      have hrest := ih (acc ++ [t])
      rw [List.getLast?_concat] at hrest
      rw [if_neg h4, hread, ← hrest]
      rfl

/-- The last adjacent pair pairs a 4d token with the token right before it. -/
theorem adjacent_eq (url : List Char) :
    (adjacent (markTokens url)).getLast? = ((stretches [] (markTokens url)).filterMap readNearest).getLast? :=
  congrArg List.getLast? (adjacent_stretches [] (markTokens url))

/-! ## Where the two agree -/

/-- A valid position with the first 3d token or with the token right before. -/
def Reads (g : List (List Char) × List Char) : Prop := readFirst g ≠ none ∨ readNearest g ≠ none

/-- No 3d token before the last token. -/
def Unmixed (g : List (List Char) × List Char) : Prop := ∀ t ∈ g.1.dropLast, is3d t = false

/-- The last stretch with a position has its first 3d token, if any, right before its 4d token. -/
def LastUnmixed (tokens : List (List Char)) : Prop :=
  ∀ before g after, stretches [] tokens = before ++ g :: after → Reads g → (∀ h ∈ after, ¬ Reads h) → Unmixed g

/-- The answer is read off other tokens than the last valid pair. -/
inductive Strays (url : List Char) : Prop
  /-- It has the latitude of a 3d token that other tokens part from the 4d token. -/
  | mixed {before after : List (List (List Char) × List Char)} {pre mid : List (List Char)} {t lon : List Char} {pos : F64 × F64} :
      stretches [] (markTokens url) = before ++ (pre ++ t :: mid, lon) :: after → (∀ u ∈ pre, is3d u = false) → is3d t = true →
      mid ≠ [] → readPosition (t.drop 2) lon = some pos → google3d4dCoords url = some pos →
      (∀ h ∈ after, readFirst h = none) → Strays url
  /-- An earlier 3d token hides the pair, and what stands before it answers. -/
  | hidden {before after : List (List (List Char) × List Char)} {pre mid : List (List Char)} {t u lon : List Char} {pos : F64 × F64} :
      stretches [] (markTokens url) = before ++ (pre ++ t :: mid ++ [u], lon) :: after → is3d t = true → is3d u = true →
      readPosition (u.drop 2) lon = some pos → (adjacent (markTokens url)).getLast? = some pos →
      google3d4dCoords url = (before.filterMap readFirst).getLast? → (∀ h ∈ after, readNearest h = none) → Strays url

theorem unmixed_reads {g : List (List Char) × List Char} (h : Unmixed g) : readFirst g = readNearest g := by
  obtain ⟨acc, lon⟩ := g
  rcases List.eq_nil_or_concat' acc with rfl | ⟨init, t, rfl⟩
  · rfl
  · have hno : ∀ u ∈ (init ++ [t]).dropLast, is3d u = false := h
    rw [List.dropLast_concat] at hno
    have hinit : init.find? is3d = none := List.find?_eq_none.2 fun u hu => by simp [hno u hu]
    have hheld : (init ++ [t]).find? is3d = (some t).filter is3d := by
      rw [List.find?_append, hinit, Option.none_or, List.find?_singleton]
      by_cases h3 : is3d t = true <;> simp [h3, Option.filter]
    rw [readFirst, readNearest, hheld, List.getLast?_concat]

theorem not_reads_iff {g : List (List Char) × List Char} : ¬ Reads g ↔ readFirst g = none ∧ readNearest g = none := by
  rw [Reads, not_or, not_not, not_not]

/-- A stretch with a position is unmixed when none behind it that is unmixed has one. -/
theorem LastUnmixed.of_after {tokens : List (List Char)} (h : LastUnmixed tokens)
    {before after : List (List (List Char) × List Char)} {g : List (List Char) × List Char}
    (hsplit : stretches [] tokens = before ++ g :: after) (hg : Reads g) (hafter : ∀ h ∈ after, Unmixed h → ¬ Reads h) : Unmixed g := by
  rcases exists_last Reads after with hno | ⟨b, x, a, rfl, hx, ha⟩
  · exact h before g after hsplit hg hno
  · have hlast : Unmixed x := h (before ++ g :: b) x a (by rw [hsplit]; simp) hx ha
    exact (hafter x (by simp) hlast hx).elim

theorem coords_stretches (url : List Char) :
    google3d4dCoords url = ((stretches [] (markTokens url)).filterMap readFirst).getLast? :=
  google3d4dScan_stretches (Nat.le_refl _)

theorem LastUnmixed.adjacent {url : List Char} (h : LastUnmixed (markTokens url)) :
    google3d4dCoords url = (adjacent (markTokens url)).getLast? := by
  rw [coords_stretches, adjacent_eq]
  rcases exists_last Reads (stretches [] (markTokens url)) with hno | ⟨before, g, after, hsplit, hg, hafter⟩
  · rw [List.filterMap_eq_nil_iff.2 fun g hg => (not_reads_iff.1 (hno g hg)).1,
      List.filterMap_eq_nil_iff.2 fun g hg => (not_reads_iff.1 (hno g hg)).2]
  · have heq := unmixed_reads (h before g after hsplit hg hafter)
    cases hn : readNearest g with
    | none => exact (hg.elim (fun hf => hf (heq.trans hn)) (fun hf => hf hn)).elim
    | some pos =>
      rw [hsplit, getLast?_read (heq.trans hn) fun h hh => (not_reads_iff.1 (hafter h hh)).1,
        getLast?_read hn fun h hh => (not_reads_iff.1 (hafter h hh)).2]

theorem LastUnmixed.not_strays {url : List Char} (h : LastUnmixed (markTokens url)) : ¬ Strays url := by
  have hunread : ∀ {g}, Unmixed g → readFirst g = none ∨ readNearest g = none → ¬ Reads g := by
    rintro g hg (hn | hn)
    · exact not_reads_iff.2 ⟨hn, (unmixed_reads hg).symm.trans hn⟩
    · exact not_reads_iff.2 ⟨(unmixed_reads hg).trans hn, hn⟩
  intro hs
  cases hs with
  | @mixed before after pre mid t lon pos hsplit hpre h3 hmid hpos _ hafter =>
    have hread : readFirst (pre ++ t :: mid, lon) = some pos := by
      have hheld : (pre ++ t :: mid).find? is3d = some t :=
        List.find?_eq_some_iff_append.2 ⟨h3, pre, mid, rfl, fun u hu => by simp [hpre u hu]⟩
      rw [readFirst, hheld]
      exact hpos
    have hun := h.of_after hsplit (.inl (by rw [hread]; nofun)) fun g hg hu => hunread hu (.inl (hafter g hg))
    have hmem : t ∈ (pre ++ t :: mid).dropLast := by
      rw [List.dropLast_append_of_ne_nil (List.cons_ne_nil _ _), List.dropLast_cons_of_ne_nil hmid]
      simp
    exact absurd h3 (by rw [hun t hmem]; nofun)
  | @hidden before after pre mid t u lon pos hsplit h3 h3' hpos _ _ hafter =>
    have hread : readNearest (pre ++ t :: mid ++ [u], lon) = some pos := by
      rw [readNearest, List.getLast?_concat, Option.filter_some, if_pos h3']
      exact hpos
    have hun := h.of_after hsplit (.inr (by rw [hread]; nofun)) fun g hg hu => hunread hu (.inr (hafter g hg))
    have hmem : t ∈ (pre ++ t :: mid ++ [u]).dropLast := by
      rw [List.dropLast_concat]
      simp
    exact absurd h3 (by rw [hun t hmem]; nofun)

/-- The last stretch with a position is where the scan strays, if it is mixed. -/
theorem lastUnmixed_of_not_strays {url : List Char} (h : ¬ Strays url) : LastUnmixed (markTokens url) := by
  rintro before ⟨acc, lon⟩ after hsplit hg hafter
  by_contra hmixed
  simp only [Unmixed, not_forall, Bool.not_eq_false] at hmixed
  obtain ⟨v, hv, hv3⟩ := hmixed
  have hfirst : ∀ h ∈ after, readFirst h = none := fun h hh => (not_reads_iff.1 (hafter h hh)).1
  have hnearest : ∀ h ∈ after, readNearest h = none := fun h hh => (not_reads_iff.1 (hafter h hh)).2
  cases hheld : acc.find? is3d with
  | none => exact absurd hv3 (List.find?_eq_none.1 hheld v (List.dropLast_subset _ hv))
  | some t =>
    obtain ⟨h3, pre, mid, rfl, hpre⟩ := List.find?_eq_some_iff_append.1 hheld
    have hpre' : ∀ u ∈ pre, is3d u = false := fun u hu => by simpa using hpre u hu
    have hmid : mid ≠ [] := by
      rintro rfl
      rw [List.dropLast_concat] at hv
      rw [hpre' v hv] at hv3
      cases hv3
    have hread : readFirst (pre ++ t :: mid, lon) = readPosition (t.drop 2) lon := by rw [readFirst, hheld]; rfl
    have hcoords := coords_stretches url
    rw [hsplit] at hcoords
    cases hpos : readPosition (t.drop 2) lon with
    | some pos => exact h (.mixed hsplit hpre' h3 hmid hpos (hcoords.trans (getLast?_read (hread.trans hpos) hfirst)) hfirst)
    | none =>
      -- only the pair at the 4d token is left
      have hn : readNearest (pre ++ t :: mid, lon) ≠ none := hg.resolve_left fun hf => hf (hread.trans hpos)
      obtain ⟨pos, hpos'⟩ := Option.ne_none_iff_exists'.1 hn
      obtain ⟨init, u, rfl⟩ := (List.eq_nil_or_concat' mid).resolve_left hmid
      have hlast : pre ++ t :: (init ++ [u]) = pre ++ t :: init ++ [u] := by simp
      have hadj : (adjacent (markTokens url)).getLast? = some pos := by rw [adjacent_eq, hsplit, getLast?_read hpos' hnearest]
      rw [hlast] at hsplit hpos'
      rw [readNearest, List.getLast?_concat, Option.filter_some] at hpos'
      split at hpos'
      · rename_i h3'
        exact h (.hidden hsplit h3 h3' hpos' hadj (hcoords.trans (getLast?_unread (hread.trans hpos) hfirst)) hnearest)
      · cases hpos'

/-- Always: the scan ends with its text's length as fuel. It returns the last valid pair of adjacent tokens, and
    reads no others, exactly where the last stretch with a position is unmixed. -/
theorem google3d4d_iff (url : List Char) :
    (∀ fuel, url.length ≤ fuel → google3d4dScan fuel url none = google3d4dCoords url) ∧
      (google3d4dCoords url = (adjacent (markTokens url)).getLast? ∧ ¬ Strays url ↔ LastUnmixed (markTokens url)) := by
  refine ⟨fun fuel hf => by rw [coords_stretches, google3d4dScan_stretches hf], fun h => lastUnmixed_of_not_strays h.2, fun h => ?_⟩
  exact ⟨h.adjacent, h.not_strays⟩

/-- A lone 3d marker takes the 4d value of the pair behind it: 48.0 is not the latitude. -/
theorem google3d4d_mixed :
    ¬∀ url, google3d4dCoords url = (adjacent (markTokens url)).getLast? := by
  intro h
  exact absurd (h "/maps/place/X/data=!3d48.0!5m1!3d48.5!4d2.25".toList) (by decide +kernel)

end ElectricEel.Share
