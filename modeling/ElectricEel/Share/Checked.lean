/-
  ElectricEel.Share.Checked — the share parser with its byte offsets (helper/src/share.rs).

  `Share` reads a text by its characters. The source reads it by byte offsets: a slice off a
  character boundary or beyond the end panics, and so does an index beyond a vector. Here
  each function of `Share` that slices, indexes or loops is written with the offsets of the
  source, and what would panic is a `Fault`. A loop gets as much fuel as its text has
  characters, and one pass more; one that still goes on is a fault too.

  Proved: none of them faults, and each computes what `Share` computes (`numericPair_eq`,
  `atPass_cases`, `google3d4dPass_cases`, `flushRun_eq`, `parseGeoUri_eq`,
  `stripPrefixCaseInsensitive_eq`), on every text and whatever the url crate answers; a pass
  of a loop that goes on does so with a shorter text (`share_total`).
-/
import ElectricEel.Lib.Utf8
import ElectricEel.Share.Parse

namespace ElectricEel.Share.Checked

open Lib Config

inductive Fault where
  /-- A byte offset inside a character or beyond the end. -/
  | slice
  /-- An index beyond a vector. -/
  | index
  /-- A loop that outlasts its text. -/
  | endless
  deriving DecidableEq, Repr

/-- A slice in brackets. -/
def sliced : Option (List Char) → Except Fault (List Char)
  | some s => .ok s
  | none => .error .slice

/-- `xs[i]`. -/
def index {α : Type} (xs : List α) (i : Nat) : Except Fault α :=
  match xs[i]? with
  | some a => .ok a
  | none => .error .index

/-! ## Loops -/

/-- One pass of a loop. -/
inductive Pass (σ ρ : Type) where
  | done (r : ρ)
  | again (s : σ)
  deriving DecidableEq

def passes {σ ρ : Type} (pass : σ → Except Fault (Pass σ ρ)) : Nat → σ → Except Fault ρ
  | 0, _ => .error .endless
  | fuel + 1, s => do
    match ← pass s with
    | .done r => .ok r
    | .again s => passes pass fuel s

/-- A loop whose passes shrink what they go on with ends within that size and one pass. -/
theorem passes_eq {σ ρ : Type} {pass : σ → Except Fault (Pass σ ρ)} (size : σ → Nat) (f : Nat → σ → ρ)
    (hzero : ∀ s, size s = 0 → pass s = .ok (.done (f 0 s)))
    (hstep : ∀ s, (∃ r, pass s = .ok (.done r) ∧ ∀ n, f (n + 1) s = r) ∨
      ∃ s', pass s = .ok (.again s') ∧ size s' < size s ∧ ∀ n, f (n + 1) s = f n s')
    {fuel : Nat} {s : σ} (h : size s ≤ fuel) : passes pass (fuel + 1) s = .ok (f fuel s) := by
  induction fuel generalizing s with
  | zero =>
    rw [passes, hzero s (Nat.le_zero.1 h)]
    rfl
  | succ fuel ih =>
    rw [passes]
    obtain ⟨r, hpass, hf⟩ | ⟨s', hpass, hshrink, hf⟩ := hstep s
    · rw [hpass, hf]
      rfl
    · rw [hpass, hf]
      exact ih (by omega)

/-! ## Pairs -/

def numericPair (s : List Char) : Except Fault (Option (F64 × F64)) :=
  let s := trimMatches (fun c => c == '(' || c == ')' || c == '[' || c == ']') (trimChars s)
  if s = [] then .ok none
  else
    let parts := pairParts s
    if parts.length ≠ 2 then .ok none
    else do
      match F64.parse (trimChars (← index parts 0)) with
      | none => .ok none
      | some lat =>
        match F64.parse (trimChars (← index parts 1)) with
        | none => .ok none
        | some lon => .ok (some (lat, lon))

def parseLatlonPair (s : List Char) : Except Fault (Option (F64 × F64)) := do
  match ← numericPair s with
  | some (lat, lon) => .ok (if validLatlon lat lon then some (lat, lon) else none)
  | none => .ok none

def looksLikeLatlonPair (s : List Char) : Except Fault Bool := do
  .ok (← numericPair s).isSome

theorem numericPair_eq (s : List Char) : numericPair s = .ok (Share.numericPair s) := by
  simp only [numericPair, Share.numericPair]
  split
  · rfl
  · rcases pairParts _ with _ | ⟨a, _ | ⟨b, _ | ⟨c, ps⟩⟩⟩
    · rfl
    · rfl
    · simp only [index, List.length_cons, List.length_nil, ne_eq, not_true_eq_false, if_false, List.getElem?_cons_zero,
        List.getElem?_cons_succ, bind, Except.bind]
      cases F64.parse (trimChars a) <;> cases F64.parse (trimChars b) <;> rfl
    · simp

theorem parseLatlonPair_eq (s : List Char) : parseLatlonPair s = .ok (Share.parseLatlonPair s) := by
  rw [parseLatlonPair, numericPair_eq, Share.parseLatlonPair]
  cases Share.numericPair s <;> rfl

theorem looksLikeLatlonPair_eq (s : List Char) : looksLikeLatlonPair s = .ok (Share.looksLikeLatlonPair s) := by
  rw [looksLikeLatlonPair, numericPair_eq]
  rfl

/-! ## /@lat,lon -/

def numberChar (c : Char) : Bool := c.isDigit || c == '.' || c == '-' || c == ',' || c == '+'

def atPair (cand : List Char) : Except Fault (Option (F64 × F64)) := do
  let stop := (findChar (fun c => !numberChar c) cand).getD (byteLen cand)
  let nums := (← sliced (sliceTo cand stop)).splitOn ','
  if 2 ≤ nums.length then .ok (readPosition (← index nums 0) (← index nums 1)) else .ok none

/-- For /place/, skip to the next /@. -/
def candidate (place : Bool) (after : List Char) : Except Fault (Option (List Char)) :=
  if place then
    match find "/@".toList after with
    | some j => some <$> sliced (sliceFrom after (j + 2))
    | none => .ok none
  else .ok (some after)

def atPass (place : Bool) (search : List Char) : Except Fault (Pass (List Char) (Option (F64 × F64))) :=
  let marker := if place then "/place/".toList else "/@".toList
  match find marker search with
  | none => .ok (.done none)
  | some i => do
    let after ← sliced (sliceFrom search (i + byteLen marker))
    match ← candidate place after with
    | none => .ok (.again after)
    | some cand =>
      match ← atPair cand with
      | some p => .ok (.done (some p))
      | none => .ok (.again after)

def urlPathAtCoords (url : List Char) : Except Fault (Option (F64 × F64)) := do
  match ← passes (atPass false) (url.length + 1) url with
  | some p => .ok (some p)
  | none => passes (atPass true) (url.length + 1) url

theorem atPair_eq (cand : List Char) : atPair cand = .ok (Share.atPair cand) := by
  have hstop := findChar_eq (fun c => !numberChar c) cand
  have hcand : cand.takeWhile (fun c => !!numberChar c) ++ cand.dropWhile (fun c => !!numberChar c) = cand :=
    List.takeWhile_append_dropWhile
  have hslice : sliceTo cand (byteLen (cand.takeWhile fun c => !!numberChar c)) = some (cand.takeWhile fun c => !!numberChar c) := by
    have happend := sliceTo_append (cand.takeWhile fun c => !!numberChar c) (cand.dropWhile fun c => !!numberChar c)
    rw [hcand] at happend
    exact happend
  rw [atPair, hstop, hslice, Share.atPair]
  simp only [Bool.not_not, sliced, bind, Except.bind, numberChar]
  generalize List.splitOn ',' _ = nums
  rcases nums with _ | ⟨a, _ | ⟨b, rest⟩⟩
  · rfl
  · rfl
  · simp [index]

/-- What a search finds: the offset behind it splits the text. -/
theorem find_slice {pat s : List Char} {i : Nat} (h : find pat s = some i) :
    ∃ before after, cut pat s = some (before, after) ∧ i = byteLen before ∧ sliced (sliceFrom s (i + byteLen pat)) = .ok after := by
  obtain ⟨hnone, -⟩ | ⟨a, b, hsome, hcut, hs⟩ := find_eq pat s
  · rw [hnone] at h
    cases h
  · rw [hsome] at h
    cases h
    refine ⟨a, b, hcut, rfl, ?_⟩
    rw [hs, ← byteLen_append, sliceFrom_append]
    rfl

theorem find_none {pat s : List Char} (h : find pat s = none) : cut pat s = none := Option.map_eq_none_iff.1 h

theorem candidate_eq (place : Bool) (after : List Char) :
    candidate place after = .ok (if place then (cut "/@".toList after).map Prod.snd else some after) := by
  cases place with
  | false => rfl
  | true =>
    simp only [candidate, if_true]
    cases hj : find "/@".toList after with
    | none =>
      rw [find_none hj]
      rfl
    | some j =>
      obtain ⟨_, cand, hcut, -, hslice⟩ := find_slice hj
      have hwidth : byteLen "/@".toList = 2 := by decide
      rw [hwidth] at hslice
      simp only [hcut, hslice]
      rfl

theorem atPass_cases (place : Bool) (search : List Char) :
    (∃ r, atPass place search = .ok (.done r) ∧ ∀ n, urlPathAtScan place (n + 1) search = r) ∨
      ∃ after, atPass place search = .ok (.again after) ∧ after.length < search.length ∧
        ∀ n, urlPathAtScan place (n + 1) search = urlPathAtScan place n after := by
  simp only [atPass, urlPathAtScan]
  cases hi : find (if place then "/place/".toList else "/@".toList) search with
  | none => exact .inl ⟨none, rfl, fun n => by rw [find_none hi]⟩
  | some i =>
    obtain ⟨before, after, hcut, -, hslice⟩ := find_slice hi
    have hshorter : after.length < search.length := cut_shorter (by cases place <;> decide) hcut
    simp only [hslice, hcut, bind, Except.bind, candidate_eq]
    cases (if place then (cut "/@".toList after).map Prod.snd else some after) with
    | none => exact .inr ⟨after, rfl, hshorter, fun n => rfl⟩
    | some cand =>
      simp only [atPair_eq]
      cases Share.atPair cand with
      | none => exact .inr ⟨after, rfl, hshorter, fun n => rfl⟩
      | some p => exact .inl ⟨some p, rfl, fun n => rfl⟩

theorem urlPathAtScan_passes (place : Bool) (url : List Char) :
    passes (atPass place) (url.length + 1) url = .ok (urlPathAtScan place url.length url) := by
  refine passes_eq List.length (urlPathAtScan place) ?_ (atPass_cases place) (Nat.le_refl _)
  intro s hs
  rw [List.length_eq_zero_iff.1 hs]
  cases place <;> rfl

theorem urlPathAtCoords_eq (url : List Char) : urlPathAtCoords url = .ok (Share.urlPathAtCoords url) := by
  rw [urlPathAtCoords, urlPathAtScan_passes, urlPathAtScan_passes, Share.urlPathAtCoords]
  cases urlPathAtScan false url.length url <;> rfl

/-! ## !3dLAT!4dLON -/

/-- The offset of the next ! from byte `start` on, where `rest` is the text from there. -/
def markEnd (search rest : List Char) (start : Nat) : Nat :=
  (findChar (· == '!') rest).elim (byteLen search) fun j => start + j

def google3d4dPass (s : List Char × Option (F64 × F64)) :
    Except Fault (Pass (List Char × Option (F64 × F64)) (Option (F64 × F64))) :=
  let (search, result) := s
  match find "!3d".toList search with
  | none => .ok (.done result)
  | some i => do
    let latStart := i + 3
    let latEnd := markEnd search (← sliced (sliceFrom search latStart)) latStart
    match find "!4d".toList (← sliced (sliceFrom search latEnd)) with
    | none => .ok (.done result)
    | some j =>
      let lonStart := latEnd + j + 3
      let lonEnd := markEnd search (← sliced (sliceFrom search lonStart)) lonStart
      let lat ← sliced (slice search latStart latEnd)
      let lon ← sliced (slice search lonStart lonEnd)
      .ok (.again (← sliced (sliceFrom search lonEnd), (readPosition lat lon).or result))

def google3d4dCoords (url : List Char) : Except Fault (Option (F64 × F64)) :=
  passes google3d4dPass (url.length + 1) (url, none)

theorem markEnd_eq {search front rest : List Char} {start : Nat} (h : search = front ++ rest) (hs : start = byteLen front) :
    markEnd search rest start = byteLen (front ++ rest.takeWhile (· ≠ '!')) := by
  have hnot : rest.takeWhile (!· == '!') = rest.takeWhile (· ≠ '!') := by
    congr 1
    funext c
    by_cases hc : c = '!' <;> simp [hc]
  rw [markEnd, h, hs, findChar_behind, hnot]

/-- Behind a word of three bytes: what stands up to the next !, and what stands from there. -/
theorem mark_offsets (front : List Char) {search before word after : List Char} (h : search = front ++ ((before ++ word) ++ after))
    (hw : byteLen word = 3) :
    let start := byteLen front + byteLen before + 3
    let stop := markEnd search after start
    sliceFrom search start = some after ∧ slice search start stop = some (after.takeWhile (· ≠ '!')) ∧
      sliceFrom search stop = some (after.dropWhile (· ≠ '!')) ∧
      stop = byteLen (front ++ (before ++ word) ++ after.takeWhile (· ≠ '!')) := by
  intro start stop
  let value := after.takeWhile (· ≠ '!')
  let rest := after.dropWhile (· ≠ '!')
  let head := front ++ (before ++ word)
  have hafter : after = value ++ rest := List.takeWhile_append_dropWhile.symm
  have hsearch : search = head ++ after := by rw [h, ← List.append_assoc]
  have hstart : start = byteLen head := by
    show byteLen front + byteLen before + 3 = byteLen (front ++ (before ++ word))
    rw [byteLen_append, byteLen_append, hw]
    omega
  have hstop : stop = byteLen (head ++ value) := markEnd_eq hsearch hstart
  have hparts : search = head ++ (value ++ rest) := by rw [hsearch, hafter]
  refine ⟨?_, ?_, ?_, hstop⟩
  · rw [hstart, hsearch]
    exact sliceFrom_append head after
  · rw [hstop, hstart, hparts]
    exact slice_append head value rest
  · rw [hstop, hparts, ← List.append_assoc]
    exact sliceFrom_append (head ++ value) rest

theorem google3d4dPass_cases (s : List Char × Option (F64 × F64)) :
    (∃ r, google3d4dPass s = .ok (.done r) ∧ ∀ n, google3d4dScan (n + 1) s.1 s.2 = r) ∨
      ∃ s', google3d4dPass s = .ok (.again s') ∧ s'.1.length < s.1.length ∧
        ∀ n, google3d4dScan (n + 1) s.1 s.2 = google3d4dScan n s'.1 s'.2 := by
  obtain ⟨search, result⟩ := s
  simp only [google3d4dPass, google3d4dScan]
  obtain ⟨hnone, hcut⟩ | ⟨a, after, hsome, hcut, hsearch⟩ := find_eq ['!', '3', 'd'] search
  · have hfind : find "!3d".toList search = none := hnone
    rw [hfind]
    exact .inl ⟨result, rfl, fun n => by rw [hcut]⟩
  · have hfind : find "!3d".toList search = some (byteLen a) := hsome
    obtain ⟨hfrom, hlat, hrest, hlatEnd⟩ := mark_offsets [] hsearch rfl
    rw [byteLen_nil, Nat.zero_add] at hfrom hlat hrest hlatEnd
    rw [hfind]
    simp only [hfrom, sliced, bind, Except.bind, hrest, hcut]
    let lat := after.takeWhile (· ≠ '!')
    let rest := after.dropWhile (· ≠ '!')
    obtain ⟨hnone', hcut'⟩ | ⟨b, after', hsome', hcut', hsearch'⟩ := find_eq ['!', '4', 'd'] rest
    · have hfind' : find "!4d".toList rest = none := hnone'
      refine .inl ⟨result, ?_, fun n => ?_⟩
      · rw [hfind']
      · rw [hcut']
    · have hfind' : find "!4d".toList rest = some (byteLen b) := hsome'
      have hwhole : search = ([] ++ (a ++ ['!', '3', 'd']) ++ lat) ++ ((b ++ ['!', '4', 'd']) ++ after') := by
        rw [← hsearch', hsearch, List.nil_append, List.append_assoc _ lat rest]
        rw [show lat ++ rest = after from List.takeWhile_append_dropWhile]
      obtain ⟨hfrom', hlon, hrest', -⟩ := mark_offsets _ hwhole rfl
      rw [← hlatEnd] at hfrom' hlon hrest'
      refine .inr ⟨(after'.dropWhile (· ≠ '!'), (readPosition lat (after'.takeWhile (· ≠ '!'))).or result), ?_, ?_, fun n => ?_⟩
      · rw [hfind']
        simp only [hfrom', hlat, hlon, hrest']
        rfl
      · have hone : after.length < search.length := cut_shorter (by simp) hcut
        have htwo : after'.length < rest.length := cut_shorter (by simp) hcut'
        have hdrop : rest.length ≤ after.length := (List.dropWhile_suffix _).length_le
        have hdrop' : (after'.dropWhile (· ≠ '!')).length ≤ after'.length := (List.dropWhile_suffix _).length_le
        show (after'.dropWhile (· ≠ '!')).length < search.length
        omega
      · rw [hcut']

theorem google3d4dCoords_eq (url : List Char) : google3d4dCoords url = .ok (Share.google3d4dCoords url) := by
  refine passes_eq (fun s : List Char × Option (F64 × F64) => s.1.length) (fun n s => google3d4dScan n s.1 s.2) ?_ google3d4dPass_cases (Nat.le_refl _)
  rintro ⟨search, result⟩ hs
  have hnil : search = [] := List.length_eq_zero_iff.1 hs
  rw [hnil]
  rfl

/-! ## Slash runs -/

def flushRun (run : List F64) (best : Option (F64 × F64)) : Except Fault (Option (F64 × F64)) :=
  if run.length = 2 then do
    let lat ← index run 0
    let lon ← index run 1
    .ok (if validLatlon lat lon then some (lat, lon) else best)
  else .ok best

def slashRunStep (s : List F64 × Option (F64 × F64)) (seg : List Char) : Except Fault (List F64 × Option (F64 × F64)) :=
  let flush := do .ok ([], ← flushRun s.1 s.2)
  if seg.any fun c => c == '?' || c == '&' || c == '=' || c == '@' || c == '!' then flush
  else
    match F64.parse (trimChars seg) with
    | some v => if v.isFinite then .ok (s.1 ++ [v], s.2) else flush
    | none => flush

def slashRunCoords (url : List Char) : Except Fault (Option (F64 × F64)) := do
  let path := url.takeWhile fun c => c ≠ '?' ∧ c ≠ '#'
  let frag := ((url.splitOn '#')[1]?).getD []
  let s ← ((path ++ '#' :: frag).splitOn '/').foldlM slashRunStep ([], none)
  flushRun s.1 s.2

theorem flushRun_eq (run : List F64) (best : Option (F64 × F64)) : flushRun run best = .ok (Share.flushRun run best) := by
  rcases run with _ | ⟨a, _ | ⟨b, _ | ⟨c, rest⟩⟩⟩
  · rfl
  · rfl
  · rfl
  · simp [flushRun, Share.flushRun]

theorem slashRunStep_eq (s : List F64 × Option (F64 × F64)) (seg : List Char) :
    slashRunStep s seg = .ok (Share.slashRunStep s seg) := by
  simp only [slashRunStep, Share.slashRunStep, flushRun_eq]
  split
  · rfl
  · cases F64.parse (trimChars seg) with
    | none => rfl
    | some v => by_cases hv : v.isFinite = true <;> simp only [hv] <;> rfl

theorem slashRunCoords_eq (url : List Char) : slashRunCoords url = .ok (Share.slashRunCoords url) := by
  have hrun : ∀ (segs : List (List Char)) (s : List F64 × Option (F64 × F64)),
      segs.foldlM slashRunStep s = .ok (segs.foldl Share.slashRunStep s) := by
    intro segs
    induction segs with
    | nil => exact fun s => rfl
    | cons seg segs ih =>
      intro s
      rw [List.foldlM_cons, slashRunStep_eq]
      exact ih _
  simp only [slashRunCoords, hrun]
  exact flushRun_eq _ _

/-! ## URLs -/

variable (U : UrlCrate)

/-- `if let Some(..) = a { return .. }`, then b. -/
def orElse {α : Type} (a b : Except Fault (Option α)) : Except Fault (Option α) := do
  match ← a with
  | some p => .ok (some p)
  | none => b

@[simp] theorem orElse_ok {α : Type} (a b : Option α) : orElse (.ok a) (.ok b) = .ok (a.or b) := by
  cases a <;> rfl

def destinationValue (value : List Char) : Except Fault Destination := do
  match ← parseLatlonPair value with
  | some (lat, lon) => .ok (.latLon lat lon)
  | none => .ok (.address (trimChars value))

def pairParam (params : List (List Char × List Char)) : List String → Except Fault (Option (F64 × F64))
  | [] => .ok none
  | key :: keys =>
    match findParam params key with
    | none => pairParam params keys
    | some value => orElse (parseLatlonPair value) (pairParam params keys)

def urlCoords (url : List Char) (parsed : Url) (params : List (List Char × List Char)) : Except Fault (Option (F64 × F64)) :=
  orElse (pairParam params ["q", "query"]) <| orElse (google3d4dCoords parsed.path) <| orElse (.ok (splitParams params)) <|
    orElse (pairParam params ["ll", "cp"]) <| orElse (urlPathAtCoords parsed.path) (slashRunCoords url)

def parseMapUrl (url : List Char) : Except Fault (Option Destination) :=
  match U.parse url with
  | none => .ok none
  | some parsed => do
    let params := urlParams U parsed
    match destinationParam params with
    | some value => some <$> destinationValue value
    | none =>
      match ← urlCoords url parsed params with
      | some (lat, lon) => .ok (some (.latLon lat lon))
      | none => .ok ((searchText params).map .address)

theorem destinationValue_eq (value : List Char) : destinationValue value = .ok (Share.destinationValue value) := by
  rw [destinationValue, parseLatlonPair_eq, Share.destinationValue]
  cases Share.parseLatlonPair value <;> rfl

theorem pairParam_eq (params : List (List Char × List Char)) (keys : List String) :
    pairParam params keys = .ok (Share.pairParam params keys) := by
  induction keys with
  | nil => rfl
  | cons key keys ih =>
    have hcons : Share.pairParam params (key :: keys) =
        ((findParam params key).bind Share.parseLatlonPair).or (Share.pairParam params keys) := by
      rw [Share.pairParam, List.findSome?_cons]
      cases (findParam params key).bind Share.parseLatlonPair <;> rfl
    rw [pairParam, ih, hcons]
    cases findParam params key with
    | none => rfl
    | some value =>
      rw [Option.bind_some, ← orElse_ok, ← parseLatlonPair_eq]

theorem urlCoords_eq (url : List Char) (parsed : Url) (params : List (List Char × List Char)) :
    urlCoords url parsed params = .ok (Share.urlCoords url parsed params) := by
  simp only [urlCoords, pairParam_eq, google3d4dCoords_eq, urlPathAtCoords_eq, slashRunCoords_eq, orElse_ok]
  rfl

theorem parseMapUrl_eq (url : List Char) : parseMapUrl U url = .ok (Share.parseMapUrl U url) := by
  rw [parseMapUrl, Share.parseMapUrl]
  cases U.parse url with
  | none => rfl
  | some parsed =>
    dsimp only
    cases destinationParam (urlParams U parsed) with
    | some value =>
      simp only [destinationValue_eq]
      rfl
    | none =>
      simp only [urlCoords_eq, bind, Except.bind]
      cases Share.urlCoords url parsed (urlParams U parsed) <;> rfl

/-! ## geo: -/

/-- `s.get(..prefix.len())`, then the slice behind it. -/
def stripPrefixCaseInsensitive (s p : List Char) : Except Fault (Option (List Char)) :=
  if (sliceTo s (byteLen p)).any (sameIgnoringCase · p) then some <$> sliced (sliceFrom s (byteLen p)) else .ok none

def splitQuery (rest : List Char) : Except Fault (List Char × Option (List Char)) :=
  match findChar (· == '?') rest with
  | some i => do .ok (← sliced (sliceTo rest i), some (← sliced (sliceFrom rest (i + 1))))
  | none => .ok (rest, none)

/-- Strip an optional trailing `;u=` uncertainty parameter. -/
def stripParameters (coordsPart : List Char) : Except Fault (List Char) :=
  match findChar (· == ';') coordsPart with
  | some i => sliced (sliceTo coordsPart i)
  | none => .ok coordsPart

def parseGeoUri (rest : List Char) : Except Fault (Except ShareParseError (Option Destination)) := do
  let parts ← splitQuery rest
  let coords := trimChars (← stripParameters parts.1)
  let queryAddr := (parts.2.bind fun q => queryParam U q "q").filter fun s => !isBlank s
  match ← parseLatlonPair coords with
  | some (lat, lon) =>
    if lat = .fin 0 ∧ lon = .fin 0 then
      -- `geo:0,0?q=...` is an address search, not a point in the Gulf of Guinea.
      .ok (.ok (queryAddr.map .address))
    else .ok (.ok (some (.latLon lat lon)))
  | none =>
    if ← looksLikeLatlonPair coords then .ok (.error .outOfRange) else .ok (.ok (queryAddr.map .address))

theorem splitQuery_eq (rest : List Char) :
    splitQuery rest = .ok (rest.takeWhile (· ≠ '?'), behind '?' rest) := by
  have hrest : rest.takeWhile (· ≠ '?') ++ rest.dropWhile (· ≠ '?') = rest := List.takeWhile_append_dropWhile
  rw [splitQuery]
  obtain ⟨hnone, hall, hnil⟩ | ⟨query, hsome, hdrop⟩ := findChar_char '?' rest
  · rw [hnone, behind, hnil, hall]
  · rw [hdrop] at hrest
    have hto : sliceTo rest (byteLen (rest.takeWhile (· ≠ '?'))) = some (rest.takeWhile (· ≠ '?')) := by
      have happend := sliceTo_append (rest.takeWhile (· ≠ '?')) ('?' :: query)
      rw [hrest] at happend
      exact happend
    have hfrom : sliceFrom rest (byteLen (rest.takeWhile (· ≠ '?')) + 1) = some query := by
      have happend := sliceFrom_append (rest.takeWhile (· ≠ '?') ++ ['?']) query
      rw [List.append_assoc, List.singleton_append, hrest, byteLen_append] at happend
      exact happend
    rw [hsome, behind, hdrop]
    simp only [hto, hfrom]
    rfl

theorem stripParameters_eq (coordsPart : List Char) : stripParameters coordsPart = .ok (coordsPart.takeWhile (· ≠ ';')) := by
  have hcoords : coordsPart.takeWhile (· ≠ ';') ++ coordsPart.dropWhile (· ≠ ';') = coordsPart := List.takeWhile_append_dropWhile
  rw [stripParameters]
  obtain ⟨hnone, hall, -⟩ | ⟨rest, hsome, hdrop⟩ := findChar_char ';' coordsPart
  · rw [hnone, hall]
  · have hto : sliceTo coordsPart (byteLen (coordsPart.takeWhile (· ≠ ';'))) = some (coordsPart.takeWhile (· ≠ ';')) := by
      have happend := sliceTo_append (coordsPart.takeWhile (· ≠ ';')) (coordsPart.dropWhile (· ≠ ';'))
      rw [hcoords] at happend
      exact happend
    rw [hsome]
    simp only [hto]
    rfl

theorem parseGeoUri_eq (rest : List Char) : parseGeoUri U rest = .ok (Share.parseGeoUri U rest) := by
  have hquery : ((behind '?' rest).bind fun q => queryParam U q "q").filter (fun s => !isBlank s) = geoQueryAddr U rest := by
    rw [behind, geoQueryAddr]
    cases rest.dropWhile (· ≠ '?') <;> rfl
  have hcoords : (rest.takeWhile (· ≠ '?')).takeWhile (· ≠ ';') = geoCoordsPart rest := rfl
  simp only [parseGeoUri, Share.parseGeoUri, splitQuery_eq, stripParameters_eq, bind, Except.bind, hquery, hcoords, parseLatlonPair_eq,
    looksLikeLatlonPair_eq]
  cases Share.parseLatlonPair _ with
  | some p =>
    obtain ⟨lat, lon⟩ := p
    by_cases hzero : lat = .fin 0 ∧ lon = .fin 0
    · simp only [if_pos hzero]
    · simp only [if_neg hzero]
  | none =>
    dsimp only
    cases Share.looksLikeLatlonPair _ <;> rfl

theorem utf8Size_toLower (c : Char) : c.toLower.utf8Size = c.utf8Size := by
  unfold Char.toLower
  split
  · rename_i h
    obtain ⟨-, hZ⟩ := h
    have hupper : c.val ≤ 127 := UInt32.le_trans hZ (by decide)
    have hlower : c.val + ('a'.val - 'A'.val) ≤ 127 := by
      rw [UInt32.le_iff_toNat_le] at hZ ⊢
      have hz : c.val.toNat ≤ 90 := hZ
      have h32 : ('a'.val - 'A'.val).toNat = 32 := by decide
      rw [UInt32.toNat_add, h32]
      change (c.val.toNat + 32) % 2 ^ 32 ≤ 127
      omega
    show (if c.val + ('a'.val - 'A'.val) ≤ 127 then 1 else _) = if c.val ≤ 127 then 1 else _
    rw [if_pos hupper, if_pos hlower]
  · rfl

theorem byteLen_toLower (s : List Char) : byteLen (s.map Char.toLower) = byteLen s := by
  induction s with
  | nil => rfl
  | cons c s ih =>
    rw [List.map_cons, byteLen_cons, byteLen_cons, utf8Size_toLower, ih]

/-- Texts equal but for case are equally wide. -/
theorem byteLen_sameIgnoringCase {a b : List Char} (h : sameIgnoringCase a b = true) : byteLen a = byteLen b ∧ a.length = b.length := by
  have heq : a.map Char.toLower = b.map Char.toLower := eq_of_beq h
  refine ⟨?_, ?_⟩
  · rw [← byteLen_toLower a, heq, byteLen_toLower]
  · rw [← List.length_map Char.toLower, heq, List.length_map]

theorem stripPrefixCaseInsensitive_eq (s p : List Char) :
    stripPrefixCaseInsensitive s p = .ok (Share.stripPrefixCaseInsensitive s p) := by
  rw [stripPrefixCaseInsensitive, Share.stripPrefixCaseInsensitive]
  by_cases h : sameIgnoringCase (s.take p.length) p = true
  · have hto := sliceTo_append (s.take p.length) (s.drop p.length)
    have hfrom := sliceFrom_append (s.take p.length) (s.drop p.length)
    rw [List.take_append_drop, (byteLen_sameIgnoringCase h).1] at hto hfrom
    rw [if_pos h, hto, hfrom, if_pos (by exact h)]
    rfl
  · rw [if_neg h, if_neg]
    intro hany
    obtain ⟨start, hto, hsame⟩ := (Option.any_eq_true _ _).1 hany
    obtain ⟨⟨start', rest⟩, hsplit, heq⟩ := Option.map_eq_some_iff.1 hto
    cases heq
    apply h
    rw [(splitAtByte_eq hsplit).1, ← (byteLen_sameIgnoringCase hsame).2, List.take_left]
    exact hsame

/-! ## parse_shared_text -/

/-- What the first URL of the text gives, if anything. -/
def urlDestination (trimmed : List Char) : Except Fault (Option Destination) :=
  match firstUrlToken trimmed with
  | none => .ok none
  | some url => do
    match ← parseMapUrl U url with
    | some dest => .ok (some dest)
    -- Opaque URL: only a lone one is a share of its own.
    | none => .ok (if firstNonEmptyLine trimmed = some url then some (.address url) else none)

def lineDestination (line : List Char) : Except Fault (Except ShareParseError Destination) := do
  match ← parseLatlonPair line with
  | some (lat, lon) => .ok (.ok (.latLon lat lon))
  | none => if ← looksLikeLatlonPair line then .ok (.error .outOfRange) else .ok (.ok (.address line))

def parseSharedText (input : List Char) : Except Fault (Except ShareParseError Destination) :=
  if maxShareTextLen < input.length then .ok (.error .tooLong)
  else
    let trimmed := trimChars input
    if trimmed = [] then .ok (.error .empty)
    else do
      match ← urlDestination U trimmed with
      | some dest => .ok (.ok dest)
      | none =>
        let firstLine := (firstNonEmptyLine trimmed).getD trimmed
        match ← stripPrefixCaseInsensitive firstLine "geo:".toList with
        | none => lineDestination firstLine
        | some rest =>
          match ← parseGeoUri U rest with
          | .error e => .ok (.error e)
          | .ok (some dest) => .ok (.ok dest)
          | .ok none => lineDestination firstLine

theorem urlDestination_eq (trimmed : List Char) : urlDestination U trimmed = .ok (Share.urlDestination U trimmed) := by
  rw [urlDestination, Share.urlDestination]
  cases firstUrlToken trimmed with
  | none => rfl
  | some url =>
    simp only [parseMapUrl_eq, bind, Except.bind]
    cases Share.parseMapUrl U url <;> rfl

theorem lineDestination_eq (line : List Char) : lineDestination line = .ok (Share.lineDestination line) := by
  simp only [lineDestination, Share.lineDestination, parseLatlonPair_eq, looksLikeLatlonPair_eq, bind, Except.bind]
  cases Share.parseLatlonPair line with
  | some p => rfl
  | none => cases Share.looksLikeLatlonPair line <;> rfl

theorem parseSharedText_eq (input : List Char) : parseSharedText U input = .ok (Share.parseSharedText U input) := by
  rw [parseSharedText, Share.parseSharedText]
  by_cases hlong : maxShareTextLen < input.length
  · rw [if_pos hlong, if_pos hlong]
  · rw [if_neg hlong, if_neg hlong]
    by_cases hempty : trimChars input = []
    · simp only [if_pos hempty]
    · simp only [if_neg hempty, urlDestination_eq, stripPrefixCaseInsensitive_eq, parseGeoUri_eq, lineDestination_eq, bind, Except.bind]
      cases Share.urlDestination U (trimChars input) with
      | some dest => rfl
      | none =>
        simp only
        cases Share.stripPrefixCaseInsensitive _ _ with
        | none => rfl
        | some rest =>
          simp only
          rcases Share.parseGeoUri U rest with e | _ | dest <;> rfl

/-- Every text is parsed without a fault, whatever the url crate answers, and as by its
    characters. A pass of either loop that goes on does so with a shorter text. -/
theorem share_total (input : List Char) :
    parseSharedText U input = .ok (Share.parseSharedText U input) ∧
      (∀ place search rest, atPass place search = .ok (.again rest) → rest.length < search.length) ∧
      ∀ search result rest result', google3d4dPass (search, result) = .ok (.again (rest, result')) → rest.length < search.length := by
  refine ⟨parseSharedText_eq U input, ?_, ?_⟩
  · intro place search rest h
    obtain ⟨r, hdone, -⟩ | ⟨after, hagain, hshorter, -⟩ := atPass_cases place search
    · rw [hdone] at h
      cases h
    · rw [hagain] at h
      cases h
      exact hshorter
  · intro search result rest result' h
    obtain ⟨r, hdone, -⟩ | ⟨s', hagain, hshorter, -⟩ := google3d4dPass_cases (search, result)
    · rw [hdone] at h
      cases h
    · rw [hagain] at h
      cases h
      exact hshorter

/-- A text whose byte 4 is inside a character, and a URL that the loops search behind what they found. -/
theorem share_total_unicode :
    parseSharedText plainUrls "東京都千代田区".toList = .ok (.ok (.address "東京都千代田区".toList)) ∧
      parseSharedText plainUrls "https://é/place/東/@日/@1,2,3z".toList = .ok (.ok (.latLon (F64.ofInt 1) (F64.ofInt 2))) :=
  ⟨(share_total plainUrls _).1.trans (by decide +kernel), (share_total plainUrls _).1.trans (by decide +kernel)⟩

end ElectricEel.Share.Checked
