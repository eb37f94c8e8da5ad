/-
  ElectricEel.Share.Influence — which parts of a URL reach its destination
  (helper/src/share.rs: `parse_map_url`).

  Nine rules read the parameters of fifteen keys, the path, and the text outside the
  query. Two texts agree outside the query when what stands before their first ? or # and
  what stands behind their first # is the same.

  Proved: parameters of other keys have no influence, a non-blank destination parameter
  leaves no influence to anything else, and the order of recognised parameters with
  different keys has none (`share_noninterference`).
-/
import ElectricEel.Share.Parse

namespace ElectricEel.Share

open Lib Config

variable {U : UrlCrate}

/-! ## What a rule reads -/

def recognisedKeys : List String :=
  ["pll", "destination", "daddr", "q", "query", "lat", "latitude", "mlat", "lon", "lng", "long", "longitude", "mlon", "ll", "cp"]

def recognised (kv : List Char × List Char) : Bool := recognisedKeys.any fun key => sameIgnoringCase kv.1 key.toList

/-- The text before the query. -/
def beforeQuery (u : List Char) : List Char := u.takeWhile fun c => c ≠ '?' ∧ c ≠ '#'

/-- The fragment with its #. -/
def behindQuery (u : List Char) : List Char := u.dropWhile (· ≠ '#')

structure SameOutsideQuery (u u' : List Char) : Prop where
  before : beforeQuery u = beforeQuery u'
  behind : behindQuery u = behindQuery u'

/-- Path and fragment of a parsed URL come from outside its query. -/
def UrlCrate.QueryApart (U : UrlCrate) : Prop :=
  ∀ u u' p p', SameOutsideQuery u u' → U.parse u = some p → U.parse u' = some p' → p.path = p'.path ∧ p.fragment = p'.fragment

/-- The decoded pairs of the query. -/
def queryPairs (U : UrlCrate) (parsed : Url) : List (List Char × List Char) := U.formParse (parsed.query.getD [])

theorem splitOn_second (sep : Char) (s : List Char) :
    (s.splitOn sep)[1]? =
      match s.dropWhile (· ≠ sep) with
      | [] => none
      | _ :: b => (b.splitOn sep)[0]? := by
  induction s with
  | nil => rfl
  | cons c s ih =>
    rw [List.splitOn_cons_eq_if_modifyHead]
    by_cases hc : c = sep
    · simp [hc]
    · rw [if_neg (by simpa using hc), List.dropWhile_cons_of_pos (by simpa using hc), ← ih]
      cases s.splitOn sep <;> simp

/-- The slash runs are read outside the query. -/
theorem slashRunCoords_congr {u u' : List Char} (h : SameOutsideQuery u u') : slashRunCoords u = slashRunCoords u' := by
  have hb := h.before
  have hf := h.behind
  unfold beforeQuery at hb
  unfold behindQuery at hf
  unfold slashRunCoords
  rw [hb, splitOn_second, splitOn_second, hf]

/-- Parameters that answer every recognised key alike are alike to every rule. -/
theorem rules_congr {params params' : List (List Char × List Char)}
    (h : ∀ key ∈ recognisedKeys, findParam params key = findParam params' key) :
    destinationParam params = destinationParam params' ∧ splitParams params = splitParams params' ∧
      pairParam params ["q", "query"] = pairParam params' ["q", "query"] ∧
      pairParam params ["ll", "cp"] = pairParam params' ["ll", "cp"] ∧ searchText params = searchText params' := by
  simp only [recognisedKeys, List.mem_cons, List.not_mem_nil, or_false, forall_eq_or_imp, forall_eq] at h
  obtain ⟨h1, h2, h3, h4, h5, h6, h7, h8, h9, h10, h11, h12, h13, h14, h15⟩ := h
  refine ⟨?_, ?_, ?_, ?_, ?_⟩
  · simp only [destinationParam, List.findSome?_cons, List.findSome?_nil, h1, h2, h3]
  · simp only [splitParams, List.findSome?_cons, List.findSome?_nil, h6, h7, h8, h9, h10, h11, h12, h13]
  · simp only [pairParam, List.findSome?_cons, List.findSome?_nil, h4, h5]
  · simp only [pairParam, List.findSome?_cons, List.findSome?_nil, h14, h15]
  · simp only [searchText, List.findSome?_cons, List.findSome?_nil, h4, h5]

/-- Two URLs that agree outside the query and on every recognised key. -/
theorem parseMapUrl_congr (hU : U.QueryApart) {u u' : List Char} {p p' : Url} (hp : U.parse u = some p) (hp' : U.parse u' = some p')
    (ho : SameOutsideQuery u u')
    (h : ∀ key ∈ recognisedKeys, findParam (urlParams U p) key = findParam (urlParams U p') key) :
    parseMapUrl U u = parseMapUrl U u' := by
  obtain ⟨hd, hs, hq, hl, ht⟩ := rules_congr h
  have hpath := (hU u u' p p' ho hp hp').1
  unfold parseMapUrl
  rw [hp, hp']
  dsimp only
  unfold urlCoords
  rw [hd, hs, hq, hl, ht, hpath, slashRunCoords_congr ho]

/-! ## Unrecognised parameters -/

theorem findParam_filter {key : String} (hk : key ∈ recognisedKeys) (params : List (List Char × List Char)) :
    findParam (params.filter recognised) key = findParam params key := by
  have hpred : (fun kv : List Char × List Char => recognised kv && sameIgnoringCase kv.1 key.toList) =
      fun kv => sameIgnoringCase kv.1 key.toList := by
    funext kv
    cases hs : sameIgnoringCase kv.1 key.toList with
    | false => simp
    | true => simpa [recognised] using ⟨key, hk, hs⟩
  unfold findParam
  rw [List.find?_filter]
  simp only [Bool.decide_and, Bool.decide_eq_true, hpred]

theorem findParam_append (a b : List (List Char × List Char)) (key : String) :
    findParam (a ++ b) key = (findParam a key).or (findParam b key) := by
  unfold findParam
  rw [List.find?_append]
  cases a.find? fun kv => sameIgnoringCase kv.1 key.toList <;> rfl

/-- The fragment's parameters are the same, the query's answer alike: all do. -/
theorem urlParams_congr {p p' : Url} (hf : p.fragment = p'.fragment) {key : String}
    (h : findParam (queryPairs U p) key = findParam (queryPairs U p') key) :
    findParam (urlParams U p) key = findParam (urlParams U p') key := by
  unfold queryPairs at h
  unfold urlParams
  rw [findParam_append, findParam_append, h, hf]

theorem unrecognised_congr {p p' : Url} (h : (queryPairs U p).filter recognised = (queryPairs U p').filter recognised) {key : String}
    (hk : key ∈ recognisedKeys) : findParam (queryPairs U p) key = findParam (queryPairs U p') key := by
  rw [← findParam_filter hk, h, findParam_filter hk]

/-! ## Order -/

def foldKey (kv : List Char × List Char) : List Char := kv.1.map Char.toLower

/-- Where no two keys are the same, the order does not matter. -/
theorem findParam_perm {params params' : List (List Char × List Char)} (hp : params.Perm params')
    (hn : (params.map foldKey).Nodup) (key : String) : findParam params key = findParam params' key := by
  induction hp with
  | nil => rfl
  | cons kv _ ih =>
    have hn := (List.nodup_cons.1 hn).2
    unfold findParam at ih ⊢
    rw [List.find?_cons, List.find?_cons]
    split
    · rfl
    · exact ih hn
  | swap a b l =>
    have hne : foldKey b ≠ foldKey a := by
      have := (List.nodup_cons.1 hn).1
      simp only [List.map_cons, List.mem_cons, not_or] at this
      exact this.1
    have hboth : ¬ (sameIgnoringCase a.1 key.toList = true ∧ sameIgnoringCase b.1 key.toList = true) := by
      intro h
      simp only [sameIgnoringCase, beq_iff_eq] at h
      exact hne (h.2.trans h.1.symm)
    unfold findParam
    cases ha : sameIgnoringCase a.1 key.toList <;> cases hb : sameIgnoringCase b.1 key.toList <;> simp [ha, hb]
    exact absurd ⟨ha, hb⟩ hboth
  | trans h1 _ ih1 ih2 => rw [ih1 hn, ih2 ((h1.map foldKey).nodup_iff.1 hn)]

/-! ## A destination parameter -/

/-- The first non-blank of the destination keys, and its value. -/
theorem destinationParam_of {params : List (List Char × List Char)} {hi lo : List String} {key : String} {v : List Char}
    (hkeys : ["pll", "destination", "daddr"] = hi ++ key :: lo) (hhi : ∀ k ∈ hi, ∀ w, findParam params k = some w → isBlank w = true)
    (hv : findParam params key = some v) (hb : isBlank v = false) : destinationParam params = some v := by
  have hnone : hi.findSome? (fun k => (findParam params k).filter fun v => !isBlank v) = none := by
    rw [List.findSome?_eq_none_iff]
    intro k hk
    rw [Option.filter_eq_none_iff]
    intro w hw
    simp [hhi k hk w hw]
  have hkey : (some v).filter (fun v => !isBlank v) = some v := by simp [Option.filter, hb]
  unfold destinationParam
  rw [hkeys, List.findSome?_append, hnone, List.findSome?_cons, hv, hkey]
  rfl

/-- Then it is all that counts. -/
theorem parseMapUrl_destination {u : List Char} {p : Url} (hp : U.parse u = some p) {v : List Char}
    (hv : destinationParam (urlParams U p) = some v) : parseMapUrl U u = some (destinationValue v) := by
  unfold parseMapUrl
  rw [hp]
  dsimp only
  rw [hv]

/-! ## Two runs -/

/-- Origin, viewport and zoom do not reach the destination: of two valid URLs, (a) those
    that differ in query parameters of unrecognised keys, (b) those with the same first
    non-blank destination parameter and (c) those that differ in the order of recognised
    query parameters with different keys give the same result. -/
theorem share_noninterference (hU : U.QueryApart) (u u' : List Char) (p p' : Url) (hp : U.parse u = some p) (hp' : U.parse u' = some p') :
    (SameOutsideQuery u u' → (queryPairs U p).filter recognised = (queryPairs U p').filter recognised →
      parseMapUrl U u = parseMapUrl U u') ∧
    (∀ hi key lo v, ["pll", "destination", "daddr"] = hi ++ key :: lo →
      (∀ k ∈ hi, (∀ w, findParam (urlParams U p) k = some w → isBlank w = true) ∧
        ∀ w, findParam (urlParams U p') k = some w → isBlank w = true) →
      findParam (urlParams U p) key = some v → findParam (urlParams U p') key = some v → isBlank v = false →
      parseMapUrl U u = parseMapUrl U u') ∧
    (SameOutsideQuery u u' → (((queryPairs U p).filter recognised).map foldKey).Nodup →
      ((queryPairs U p).filter recognised).Perm ((queryPairs U p').filter recognised) →
      parseMapUrl U u = parseMapUrl U u') := by
  refine ⟨fun ho hsame => ?_, fun hi key lo v hkeys hhi hv hv' hb => ?_, fun ho hn hperm => ?_⟩
  · have hf := (hU u u' p p' ho hp hp').2
    exact parseMapUrl_congr hU hp hp' ho fun key hk => urlParams_congr hf (unrecognised_congr hsame hk)
  · rw [parseMapUrl_destination hp (destinationParam_of hkeys (fun k hk => (hhi k hk).1) hv hb),
      parseMapUrl_destination hp' (destinationParam_of hkeys (fun k hk => (hhi k hk).2) hv' hb)]
  · have hf := (hU u u' p p' ho hp hp').2
    refine parseMapUrl_congr hU hp hp' ho fun key hk => urlParams_congr hf ?_
    rw [← findParam_filter hk, findParam_perm hperm hn, findParam_filter hk]

/-! ## A crate that splits at the marks -/

def markedUrl (u : List Char) : Option Url :=
  (cut "://".toList (beforeQuery u)).map fun r =>
    { path := r.2.dropWhile (· ≠ '/'), query := behind '?' (u.takeWhile (· ≠ '#')), fragment := behind '#' (behindQuery u) }

def markedUrls : UrlCrate := { parse := markedUrl, formParse := plainForm }

theorem markedUrls_queryApart : markedUrls.QueryApart := by
  intro u u' p p' ho hp hp'
  obtain ⟨r, hr, rfl⟩ := Option.map_eq_some_iff.1 hp
  obtain ⟨r', hr', rfl⟩ := Option.map_eq_some_iff.1 hp'
  rw [ho.before] at hr
  cases hr.symm.trans hr'
  exact ⟨rfl, by rw [ho.behind]⟩

def originUrl : List Char := "https://maps.example/dir?origin=1,2&q=48.5,2.25&z=17".toList

def plainQueryUrl : List Char := "https://maps.example/dir?q=48.5,2.25".toList

def directionsUrl : List Char := "https://maps.example/dir?destination=Paris&q=1,2".toList

def centredUrl : List Char := "https://other.example/?zoom=3&destination=Paris".toList

def searchUrl : List Char := "https://maps.example/dir?q=48.5,2.25&ll=1,2".toList

def turnedUrl : List Char := "https://maps.example/dir?ll=1,2&q=48.5,2.25".toList

/-- The origin and the zoom taken away, two links to one destination, and two parameters in either order. -/
theorem share_noninterference_origin :
    (parseMapUrl markedUrls originUrl = parseMapUrl markedUrls plainQueryUrl ∧
      parseMapUrl markedUrls plainQueryUrl = some (.latLon (.fin (97 * 2 ^ 1073)) (.fin (9 * 2 ^ 1072)))) ∧
    (parseMapUrl markedUrls directionsUrl = parseMapUrl markedUrls centredUrl ∧
      parseMapUrl markedUrls centredUrl = some (.address "Paris".toList)) ∧
    parseMapUrl markedUrls searchUrl = parseMapUrl markedUrls turnedUrl ∧
      parseMapUrl markedUrls turnedUrl = some (.latLon (.fin (97 * 2 ^ 1073)) (.fin (9 * 2 ^ 1072))) := by
  refine ⟨⟨?_, by decide +kernel⟩, ⟨?_, by decide +kernel⟩, ?_, by decide +kernel⟩
  · exact (share_noninterference markedUrls_queryApart originUrl plainQueryUrl
      ⟨"/dir".toList, some "origin=1,2&q=48.5,2.25&z=17".toList, none⟩ ⟨"/dir".toList, some "q=48.5,2.25".toList, none⟩
      (by decide +kernel) (by decide +kernel)).1 ⟨by decide +kernel, by decide +kernel⟩ (by decide +kernel)
  · refine (share_noninterference markedUrls_queryApart directionsUrl centredUrl
      ⟨"/dir".toList, some "destination=Paris&q=1,2".toList, none⟩ ⟨"/".toList, some "zoom=3&destination=Paris".toList, none⟩
      (by decide +kernel) (by decide +kernel)).2.1 ["pll"] "destination" ["daddr"] "Paris".toList rfl ?_ (by decide +kernel)
      (by decide +kernel) (by decide)
    intro k hk
    obtain rfl := List.mem_singleton.1 hk
    have hnone : findParam (urlParams markedUrls ⟨"/dir".toList, some "destination=Paris&q=1,2".toList, none⟩) "pll" = none := by
      decide +kernel
    have hnone' : findParam (urlParams markedUrls ⟨"/".toList, some "zoom=3&destination=Paris".toList, none⟩) "pll" = none := by
      decide +kernel
    exact ⟨fun w hw => (nomatch hnone.symm.trans hw), fun w hw => (nomatch hnone'.symm.trans hw)⟩
  · exact (share_noninterference markedUrls_queryApart searchUrl turnedUrl
      ⟨"/dir".toList, some "q=48.5,2.25&ll=1,2".toList, none⟩ ⟨"/dir".toList, some "ll=1,2&q=48.5,2.25".toList, none⟩
      (by decide +kernel) (by decide +kernel)).2.2 ⟨by decide +kernel, by decide +kernel⟩ (by decide +kernel) (by decide +kernel)

end ElectricEel.Share
