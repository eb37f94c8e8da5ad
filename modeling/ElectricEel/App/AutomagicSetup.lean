/-
  ElectricEel.App.AutomagicSetup — Automagic's files, and the entries put into them
  (app/src/automagicsetup.cpp: `upsertAll`, `AutomagicSetup::upsertFile`).

  Each file is a JSON object whose data is an array of entries with ids. An item takes the
  place of the first entry of its id or goes to the end. The object written back is a new
  one: it has a version and the data, and nothing else of the one that was read. Qt's reader
  and writer are parameters; of the writer only that the document it is given reads back.

  Proved:
  - `upsertFile_failed`: a call that fails leaves the file as it was.
  - `upsertFile_twice`: after a call that succeeded the same call changes nothing.
  - `upsertFile_merges_iff`: the file keeps what it had, whatever the items, exactly where it
    has nothing but an `int` for a version and an array for data.
  - `comment_lost`: a further key is gone.
-/
import ElectricEel.Lib.QJson
import ElectricEel.Lib.Upsert

namespace ElectricEel.App.AutomagicSetup

open Lib Lib.QJson Lib.Upsert

def versionKey : QString := qs "version"

def dataKey : QString := qs "data"

def idKey : QString := qs "id"

/-- An entry's id: empty where it is no object or its id is no string. -/
def entryId (v : QJsonValue) : QString := toText (value (toObject v) idKey)

/-- `fromVariantMap` of the items has been applied. -/
def upsertAll (data : List QJsonValue) (items : List QJsonObject) : List QJsonValue :=
  Upsert.upsertAll entryId data (items.map .object)

/-- `QJsonDocument::fromJson` and `toJson(Indented)`. -/
structure Format (Bytes : Type) where
  fromJson : Bytes → Option QJsonValue
  toJson : QJsonObject → Bytes

/-- What the file system answers to one call. -/
structure Disk where
  opensRead : Bool
  opensWrite : Bool
  commits : Bool

variable {Bytes : Type} (fmt : Format Bytes)

/-- The version and the data of the file, if there is one. -/
def readFile (disk : Disk) (fileName : String) : Option Bytes → Except String (Int × List QJsonValue)
  | none => .ok (1, [])
  | some bytes =>
    if disk.opensRead then
      match fmt.fromJson bytes with
      | some (.object root) => .ok (toInt 1 (value root versionKey), toArray (value root dataKey))
      | _ => .error (fileName ++ " is not Automagic JSON")
    else .error ("cannot read " ++ fileName)

def newRoot (version : Int) (data : List QJsonValue) (items : List QJsonObject) : QJsonObject :=
  insert (insert [] versionKey (.double version)) dataKey (.array (upsertAll data items))

/-- What it returns, and the file after. -/
def upsertFile (disk : Disk) (fileName : String) (items : List QJsonObject) (file : Option Bytes) :
    Except String Unit × Option Bytes :=
  match readFile fmt disk fileName file with
  | .error error => (.error error, file)
  | .ok (version, data) =>
    if disk.opensWrite then
      if disk.commits then (.ok (), some (fmt.toJson (newRoot version data items)))
      else (.error ("cannot save " ++ fileName), file)
    else (.error ("cannot write " ++ fileName), file)

theorem upsertFile_failed {disk : Disk} {fileName error : String} {items : List QJsonObject} {file : Option Bytes}
    (h : (upsertFile fmt disk fileName items file).1 = .error error) : (upsertFile fmt disk fileName items file).2 = file := by
  unfold upsertFile at h ⊢
  split
  · rfl
  · split
    · split
      · next hr hw hc =>
        rw [hr] at h
        simp only [hw, hc, if_true] at h
        cases h
      · rfl
    · rfl

/-! ## One call on a file that is there -/

/-- The object written over one that was read. -/
def merged (old : QJsonObject) (items : List QJsonObject) : QJsonObject :=
  newRoot (toInt 1 (value old versionKey)) (toArray (value old dataKey)) items

variable {fmt} {bytes : Bytes} {old : QJsonObject} {items : List QJsonObject}

theorem readFile_object (hb : fmt.fromJson bytes = some (.object old)) (disk : Disk) (fileName : String) :
    readFile fmt disk fileName (some bytes) =
      if disk.opensRead then .ok (toInt 1 (value old versionKey), toArray (value old dataKey))
      else .error ("cannot read " ++ fileName) := by
  rw [readFile, hb]

/-- A call fails, or it writes the merged object. -/
theorem upsertFile_cases (hb : fmt.fromJson bytes = some (.object old)) (disk : Disk) (fileName : String)
    (items : List QJsonObject) :
    (∃ error, upsertFile fmt disk fileName items (some bytes) = (.error error, some bytes)) ∨
      upsertFile fmt disk fileName items (some bytes) = (.ok (), some (fmt.toJson (merged old items))) := by
  rw [upsertFile, readFile_object hb]
  cases disk.opensRead with
  | false => exact .inl ⟨_, rfl⟩
  | true =>
    cases disk.opensWrite with
    | false => exact .inl ⟨_, rfl⟩
    | true =>
      cases disk.commits with
      | false => exact .inl ⟨_, rfl⟩
      | true => exact .inr rfl

theorem upsertFile_succeeds (hb : fmt.fromJson bytes = some (.object old)) (fileName : String) :
    upsertFile fmt ⟨true, true, true⟩ fileName items (some bytes) = (.ok (), some (fmt.toJson (merged old items))) := by
  rw [upsertFile, readFile_object hb, if_pos rfl]
  rfl

theorem versionKey_ne : dataKey ≠ versionKey := by decide

theorem value_merged (old : QJsonObject) (items : List QJsonObject) (key : QString) :
    value (merged old items) key =
      if dataKey = key then some (.array (upsertAll (toArray (value old dataKey)) items))
      else if versionKey = key then some (.double (toInt 1 (value old versionKey)))
      else none := by
  rw [merged, newRoot, value_insert, value_insert]
  rfl

theorem value_merged_data (old : QJsonObject) (items : List QJsonObject) :
    value (merged old items) dataKey = some (.array (upsertAll (toArray (value old dataKey)) items)) := by
  rw [value_merged, if_pos rfl]

theorem value_merged_version (old : QJsonObject) (items : List QJsonObject) :
    value (merged old items) versionKey = some (.double (toInt 1 (value old versionKey))) := by
  rw [value_merged, if_neg versionKey_ne, if_pos rfl]

/-! ## Twice -/

def itemId (item : QJsonObject) : QString := toText (value item idKey)

theorem entryId_object (items : List QJsonObject) : (items.map QJsonValue.object).map entryId = items.map itemId := by
  rw [List.map_map]
  rfl

theorem merged_idem (old : QJsonObject) (hn : (items.map itemId).Nodup) : merged (merged old items) items = merged old items := by
  have hkeys : ((items.map QJsonValue.object).map entryId).Nodup := by
    rw [entryId_object]
    exact hn
  have hdata : upsertAll (upsertAll (toArray (value old dataKey)) items) items = upsertAll (toArray (value old dataKey)) items :=
    upsertAll_idem _ hkeys
  have hversion : toInt 1 (value (merged old items) versionKey) = toInt 1 (value old versionKey) := by
    rw [value_merged_version]
    exact toInt_intCast 1 (isInt32_toInt (by decide) _)
  rw [merged, hversion, value_merged_data]
  show newRoot _ (upsertAll _ items) items = _
  rw [newRoot, hdata]
  rfl

theorem upsertFile_twice (hn : (items.map itemId).Nodup)
    (hread : fmt.fromJson (fmt.toJson (merged old items)) = some (.object (merged old items))) (disk : Disk) (fileName : String) :
    (upsertFile fmt disk fileName items (some (fmt.toJson (merged old items)))).2 = some (fmt.toJson (merged old items)) := by
  rcases upsertFile_cases hread disk fileName items with ⟨error, h⟩ | h
  · rw [h]
  · rw [h, merged_idem old hn]

/-! ## What is kept -/

/-- The first entry of an item's id gives way to the item, the other items follow at the end,
    and all else stays. -/
structure Kept (items : List QJsonObject) (old new : QJsonObject) : Prop where
  keys : ∀ key v, key ≠ dataKey → value old key = some v → value new key = some v
  data : ∃ entries, (value old dataKey = some (.array entries) ∨ value old dataKey = none ∧ entries = []) ∧
    value new dataKey = some (.array
      (replaced entryId (items.map .object) [] entries ++ appended entryId (items.map .object) entries))

/-- Whenever the call succeeds, the new file reads as one that keeps the old, and the same
    call leaves it as it is. A file whose data is no array keeps nothing: it is refused. -/
def Merges (fmt : Format Bytes) (items : List QJsonObject) (bytes : Bytes) (old : QJsonObject) : Prop :=
  ∀ disk fileName file, upsertFile fmt disk fileName items (some bytes) = (.ok (), file) →
    (∃ bytes' new, file = some bytes' ∧ fmt.fromJson bytes' = some (.object new) ∧ Kept items old new) ∧
      ∀ again, (upsertFile fmt again fileName items file).2 = file

/-- Nothing but an `int` for a version and an array for data. -/
structure Mergeable (old : QJsonObject) : Prop where
  keys : ∀ key v, value old key = some v → key = versionKey ∨ key = dataKey
  version : ∀ v, value old versionKey = some v → ∃ n : Int, isInt32 n ∧ v = .double n
  data : ∀ v, value old dataKey = some v → ∃ entries, v = .array entries

theorem Mergeable.kept (h : Mergeable old) (hn : (items.map itemId).Nodup) : Kept items old (merged old items) where
  keys := by
    intro key v hkey hv
    rcases h.keys key v hv with rfl | rfl
    · obtain ⟨n, hint, rfl⟩ := h.version v hv
      rw [value_merged_version, hv, toInt_intCast 1 hint]
    · exact absurd rfl hkey
  data := by
    have hdata : ∃ entries, (value old dataKey = some (.array entries) ∨ value old dataKey = none ∧ entries = []) ∧
        toArray (value old dataKey) = entries := by
      cases hv : value old dataKey with
      | none => exact ⟨[], .inr ⟨rfl, rfl⟩, rfl⟩
      | some v =>
        obtain ⟨entries, rfl⟩ := h.data v hv
        exact ⟨entries, .inl rfl, rfl⟩
    obtain ⟨entries, hold, harray⟩ := hdata
    refine ⟨entries, hold, ?_⟩
    rw [value_merged_data, harray, upsertAll, upsertAll_eq]
    rw [entryId_object]
    exact hn

theorem Kept.mergeable (h : Kept items old (merged old items)) : Mergeable old where
  keys := by
    intro key v hv
    by_cases hd : key = dataKey
    · exact .inr hd
    · have hnew := h.keys key v hd hv
      rw [value_merged, if_neg (Ne.symm hd)] at hnew
      by_cases hk : versionKey = key
      · exact .inl hk.symm
      · rw [if_neg hk] at hnew
        cases hnew
  version := by
    intro v hv
    have hnew := h.keys versionKey v (Ne.symm versionKey_ne) hv
    rw [value_merged_version, Option.some.injEq] at hnew
    exact ⟨_, isInt32_toInt (by decide) _, hnew.symm⟩
  data := by
    intro v hv
    obtain ⟨entries, hold, _⟩ := h.data
    rcases hold with hold | ⟨hold, _⟩
    · rw [hv, Option.some.injEq] at hold
      exact ⟨entries, hold⟩
    · rw [hv] at hold
      cases hold

theorem Merges.mergeable (hb : fmt.fromJson bytes = some (.object old))
    (hread : fmt.fromJson (fmt.toJson (merged old items)) = some (.object (merged old items)))
    (h : Merges fmt items bytes old) : Mergeable old := by
  obtain ⟨⟨bytes', new, hfile, hnew, hkept⟩, _⟩ := h ⟨true, true, true⟩ "" _ (upsertFile_succeeds hb "")
  cases hfile
  rw [hread] at hnew
  cases hnew
  exact hkept.mergeable

theorem upsertFile_merges_iff (hb : fmt.fromJson bytes = some (.object old)) (hn : (items.map itemId).Nodup)
    (hread : fmt.fromJson (fmt.toJson (merged old items)) = some (.object (merged old items))) :
    Merges fmt items bytes old ↔ Mergeable old := by
  refine ⟨Merges.mergeable hb hread, ?_⟩
  intro h disk fileName file hfile
  rcases upsertFile_cases hb disk fileName items with ⟨error, hcall⟩ | hcall
  · rw [hcall] at hfile
    cases hfile
  · rw [hcall] at hfile
    cases hfile
    exact ⟨⟨_, _, rfl, hread, h.kept hn⟩, fun again => upsertFile_twice hn hread again fileName⟩

/-! ## Two files -/

def hotspotOn : QJsonObject := [(idKey, .string (qs "eel_hotspot_on"))]

def hotspotOff : QJsonObject := [(idKey, .string (qs "eel_hotspot_off"))]

/-- Reads one file and what is written over it. -/
def sampleFormat (text : String) (root : QJsonObject) (written : String) (writtenRoot : QJsonObject) : Format String where
  fromJson s := if s = text then some (.object root) else if s = written then some (.object writtenRoot) else none
  toJson _ := written

section

variable {text written : String} {root writtenRoot : QJsonObject} {items : List QJsonObject}

theorem sampleFormat_reads (text : String) (root : QJsonObject) :
    (sampleFormat text root written writtenRoot).fromJson text = some (.object root) := if_pos rfl

theorem sampleFormat_reads_written (h : written ≠ text) (hm : merged root items = writtenRoot) :
    (sampleFormat text root written writtenRoot).fromJson ((sampleFormat text root written writtenRoot).toJson (merged root items)) =
      some (.object (merged root items)) := by
  rw [hm]
  exact (if_neg h).trans (if_pos rfl)

end

def plainText : String :=
  "\x7b\"version\":1,\"data\":[\x7b\"id\":\"mine\"\x7d,\x7b\"enabled\":false,\"id\":\"eel_hotspot_on\"\x7d]\x7d"

def mine : QJsonObject := [(idKey, .string (qs "mine"))]

/-- An entry of somebody else, and one under an id of ours. -/
def plainRoot : QJsonObject :=
  [(dataKey, .array [.object mine, .object [(qs "enabled", .bool false), (idKey, .string (qs "eel_hotspot_on"))]]), (versionKey, .double 1)]

/-- Qt's text of the object with the three entries. -/
def mergedText : String :=
  "\x7b\n    \"data\": [\n        \x7b\n            \"id\": \"mine\"\n        \x7d,\n        \x7b\n" ++
    "            \"id\": \"eel_hotspot_on\"\n        \x7d,\n        \x7b\n            \"id\": \"eel_hotspot_off\"\n        \x7d\n" ++
    "    ],\n    \"version\": 1\n\x7d\n"

def mergedRoot : QJsonObject := [(dataKey, .array [.object mine, .object hotspotOn, .object hotspotOff]), (versionKey, .double 1)]

/-- One entry stays, one is replaced and one appended. -/
theorem upsertFile_merges_plain :
    merged plainRoot [hotspotOn, hotspotOff] = mergedRoot ∧
      Merges (sampleFormat plainText plainRoot mergedText mergedRoot) [hotspotOn, hotspotOff] plainText plainRoot := by
  have hmerged : merged plainRoot [hotspotOn, hotspotOff] = mergedRoot := rfl
  have hread := sampleFormat_reads_written (show mergedText ≠ plainText by decide) hmerged
  refine ⟨hmerged, (upsertFile_merges_iff (sampleFormat_reads plainText plainRoot) (by decide) hread).2 ⟨?_, ?_, ?_⟩⟩
  · intro key v hv
    rw [plainRoot, value_cons, value_cons] at hv
    by_cases hd : dataKey = key
    · exact .inr hd.symm
    · rw [if_neg hd] at hv
      by_cases hk : versionKey = key
      · exact .inl hk.symm
      · rw [if_neg hk] at hv
        cases hv
  · intro v hv
    cases hv
    exact ⟨1, by decide, rfl⟩
  · intro v hv
    cases hv
    exact ⟨_, rfl⟩

def commentKey : QString := qs "comment"

def commentText : String := "\x7b\"version\":1,\"data\":[],\"comment\":\"mine\"\x7d"

def commentRoot : QJsonObject := [(commentKey, .string (qs "mine")), (dataKey, .array []), (versionKey, .double 1)]

/-- Qt's text of the object with the one entry. -/
def writtenText : String :=
  "\x7b\n    \"data\": [\n        \x7b\n            \"id\": \"eel_hotspot_on\"\n        \x7d\n    ],\n    \"version\": 1\n\x7d\n"

def writtenRoot : QJsonObject := [(dataKey, .array [.object hotspotOn]), (versionKey, .double 1)]

def commentFormat : Format String := sampleFormat commentText commentRoot writtenText writtenRoot

theorem comment_lost :
    commentFormat.fromJson commentText = some (.object commentRoot) ∧ itemId hotspotOn ≠ [] ∧ ([hotspotOn].map itemId).Nodup ∧
      ¬Merges commentFormat [hotspotOn] commentText commentRoot := by
  refine ⟨sampleFormat_reads commentText commentRoot, by decide, by decide, ?_⟩
  intro h
  have hread := sampleFormat_reads_written (show writtenText ≠ commentText by decide)
    (show merged commentRoot [hotspotOn] = writtenRoot from rfl)
  have hm : Mergeable commentRoot := h.mergeable (sampleFormat_reads commentText commentRoot) hread
  rcases hm.keys commentKey (.string (qs "mine")) rfl with hk | hk
  · exact absurd hk (by decide)
  · exact absurd hk (by decide)

end ElectricEel.App.AutomagicSetup
