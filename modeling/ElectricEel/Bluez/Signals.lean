/-
  ElectricEel.Bluez.Signals — which device is the vehicle (helper/session/bluez/scan.go
  `advertisedName`, `findBeacon`, the identity half of `observeRSSIUpdates`).

  A snapshot's property map is complete; a signal carries what changed. The observer asks
  `advertisedName` of the change alone: a matching name makes the path the vehicle's, any
  other name takes that back, and a change without a name leaves it.

  BlueZ types Name and Alias as strings. Of the other properties only those the observer
  reads are kept.

  Proved: after any signals for one device the observer agrees with the snapshot exactly when
  the last of them with a name was not one of Name and Alias alone, set to another value
  while the other one is the vehicle's (`identity_iff`). A user's new alias for the car is
  such a signal (`alias_revokes`).
-/
import Mathlib.Data.List.Basic

namespace ElectricEel.Bluez

abbrev Path := String

/-! ## Properties and signals -/

/-- A property map of Device1. -/
structure Props where
  name : Option String := none
  aliasName : Option String := none
  /-- An int16. -/
  rssi : Option Int := none
  /-- ManufacturerData, ServiceData, AdvertisingFlags or TxPower is there. -/
  advertisement : Bool := false
  deriving DecidableEq, Repr

inductive Iface where
  | adapter
  | device
  | other
  deriving DecidableEq, Repr

inductive Signal where
  /-- The added object's Device1 properties, if it has that interface. -/
  | interfacesAdded (path : Path) (device : Option Props)
  | propertiesChanged (path : Path) (iface : Iface) (changed : Props)
  /-- Another name, or a body that does not decode. -/
  | other
  deriving DecidableEq, Repr

/-- The path is one of the adapter's devices. -/
def isDevice (adapterPath path : Path) : Bool := (adapterPath.toList ++ "/dev_".toList).isPrefixOf path.toList

/-- The change the observer goes on with. -/
def Signal.change (adapterPath : Path) : Signal → Option (Path × Props)
  | interfacesAdded path device => if isDevice adapterPath path then some (path, device.getD {}) else none
  | propertiesChanged path .device changed => if isDevice adapterPath path then some (path, changed) else none
  | _ => none

/-! ## The name -/

/-- The name under which a device advertises; none: it gives none. -/
def advertisedName (props : Props) (want : String) : Option String :=
  if props.name = some want then props.name
  else if props.aliasName = some want then props.aliasName
  else if props.name.isSome then props.name
  else props.aliasName

/-- `findBeacon`'s test. -/
def recognised (want : String) (props : Props) : Bool := advertisedName props want == some want

structure ScanResult where
  path : Path
  localName : String
  /-- None: HasRSSI is false. -/
  rssi : Option Int
  deriving DecidableEq, Repr

/-- The first device of the tree that passes, in the order of the range loop. -/
def findBeacon (adapterPath : Path) (want : String) : List (Path × Option Props) → Option ScanResult
  | [] => none
  | (path, some dev) :: rest =>
    if isDevice adapterPath path && recognised want dev then some { path, localName := want, rssi := dev.rssi }
    else findBeacon adapterPath want rest
  | (_, none) :: rest => findBeacon adapterPath want rest

/-- The wanted name where either property has it, else the first property there is. -/
theorem advertisedName_eq (props : Props) (want : String) :
    advertisedName props want = if props.name = some want ∨ props.aliasName = some want then some want else props.name.or props.aliasName := by
  unfold advertisedName
  by_cases hn : props.name = some want
  · simp [hn]
  · by_cases ha : props.aliasName = some want
    · simp [hn, ha]
    · cases h : props.name <;> simp_all

theorem advertisedName_eq_want (props : Props) (want : String) :
    advertisedName props want = some want ↔ props.name = some want ∨ props.aliasName = some want := by
  rw [advertisedName_eq]
  split
  · rename_i h
    exact iff_of_true rfl h
  · rename_i h
    refine iff_of_false ?_ h
    rw [not_or] at h
    intro hor
    rcases Option.or_eq_some_iff.1 hor with hn | ⟨_, ha⟩
    · exact h.1 hn
    · exact h.2 ha

theorem advertisedName_eq_none (props : Props) (want : String) :
    advertisedName props want = none ↔ props.name = none ∧ props.aliasName = none := by
  rw [advertisedName_eq]
  split
  · rename_i h
    rcases h with hn | ha
    · simp [hn]
    · simp [ha]
  · exact Option.or_eq_none_iff

theorem recognised_iff (want : String) (props : Props) :
    recognised want props = true ↔ props.name = some want ∨ props.aliasName = some want := by
  rw [recognised, beq_iff_eq, advertisedName_eq_want]

/-- A snapshot's result is a recognised device. -/
theorem findBeacon_recognised {adapterPath : Path} {want : String} {objects : List (Path × Option Props)} {r : ScanResult}
    (h : findBeacon adapterPath want objects = some r) :
    ∃ dev, (r.path, some dev) ∈ objects ∧ isDevice adapterPath r.path = true ∧ recognised want dev = true := by
  induction objects with
  | nil => cases h
  | cons o rest ih =>
    obtain ⟨path, _ | dev⟩ := o
    · obtain ⟨dev, hm, hrest⟩ := ih h
      exact ⟨dev, List.mem_cons_of_mem _ hm, hrest⟩
    · unfold findBeacon at h
      by_cases hp : (isDevice adapterPath path && recognised want dev) = true
      · rw [if_pos hp] at h
        cases h
        rw [Bool.and_eq_true] at hp
        exact ⟨dev, List.mem_cons_self, hp.1, hp.2⟩
      · rw [if_neg hp] at h
        obtain ⟨dev', hm, hrest⟩ := ih h
        exact ⟨dev', List.mem_cons_of_mem _ hm, hrest⟩

/-! ## What the observer makes of a change -/

/-- `w.devicePath` after a change of `path`; none is the empty path. -/
def identify (want : String) (devicePath : Option Path) (path : Path) (changed : Props) : Option Path :=
  match advertisedName changed want with
  | some name =>
    if name = want then some path
    else if devicePath = some path then none
    else devicePath
  | none => devicePath

/-- The device's full map after a change. -/
def Props.update (props changed : Props) : Props :=
  { name := changed.name.or props.name, aliasName := changed.aliasName.or props.aliasName, rssi := changed.rssi.or props.rssi,
    advertisement := changed.advertisement || props.advertisement }

/-- One of Name and Alias alone, not the vehicle's, while the other one is. -/
def Props.Revokes (want : String) (props changed : Props) : Prop :=
  (changed.name.isSome = true ∧ changed.name ≠ some want ∧ changed.aliasName = none ∧ props.aliasName = some want) ∨
  (changed.aliasName.isSome = true ∧ changed.aliasName ≠ some want ∧ changed.name = none ∧ props.name = some want)

def Props.named (changed : Props) : Bool := changed.name.isSome || changed.aliasName.isSome

section

variable {path : Path} {want : String}

theorem identify_eq_some (devicePath : Option Path) (changed : Props) :
    identify want devicePath path changed = some path ↔
      recognised want changed = true ∨ (changed.named = false ∧ devicePath = some path) := by
  have hw := advertisedName_eq_want changed want
  have hn := advertisedName_eq_none changed want
  rw [recognised_iff]
  unfold identify Props.named
  cases h : advertisedName changed want with
  | none =>
    obtain ⟨h1, h2⟩ := hn.1 h
    simp [h1, h2]
  | some name =>
    by_cases he : name = want
    · have hc := hw.1 (by rw [h, he])
      simp [he, hc]
    · have hno : ¬ (changed.name = some want ∨ changed.aliasName = some want) := by
        intro hc
        rw [h] at hw
        exact he (Option.some.inj (hw.2 hc))
      have hsome : ¬ (changed.name = none ∧ changed.aliasName = none) := by
        intro hc
        rw [hn.2 hc] at h
        cases h
      by_cases hd : devicePath = some path
      · simp [he, hd]
        tauto
      · simp [he, hd]
        tauto

theorem update_recognised (props changed : Props) : recognised want (props.update changed) = true ↔
    recognised want changed = true ∨ (changed.named = false ∧ recognised want props = true) ∨ props.Revokes want changed := by
  simp only [recognised_iff, Props.Revokes, Props.update, Props.named]
  cases hn : changed.name <;> cases ha : changed.aliasName <;> simp
  all_goals tauto

theorem Revokes.named {props changed : Props} (h : props.Revokes want changed) : changed.named = true := by
  rcases h with ⟨hn, _⟩ | ⟨ha, _⟩
  · simp [Props.named, hn]
  · simp [Props.named, ha]

theorem Revokes.not_recognised {props changed : Props} (h : props.Revokes want changed) : recognised want changed = false := by
  rw [Bool.eq_false_iff]
  intro hr
  rw [recognised_iff] at hr
  rcases h with ⟨_, hne, hnone, _⟩ | ⟨_, hne, hnone, _⟩
  · simp_all
  · simp_all

end

/-! ## All signals for one device -/

/-- What the observer holds the device for, its full map, and the last change with a name
    beside the map it met. -/
structure Tracked where
  devicePath : Option Path
  props : Props
  last : Option (Props × Props)
  deriving DecidableEq, Repr

/-- As `newWatcher` begins, having asked a snapshot. -/
def Tracked.seed (want : String) (path : Path) (props : Props) : Tracked :=
  { devicePath := if recognised want props then some path else none, props, last := none }

def Tracked.follow (adapterPath : Path) (want : String) (t : Tracked) (sig : Signal) : Tracked :=
  match sig.change adapterPath with
  | some (path, changed) =>
    { devicePath := identify want t.devicePath path changed
      props := t.props.update changed
      last := if changed.named then some (t.props, changed) else t.last }
  | none => t

/-- The signal concerns no other device. -/
def Signal.About (adapterPath path : Path) (sig : Signal) : Prop := ∀ p changed, sig.change adapterPath = some (p, changed) → p = path

/-- A name of its own was the last thing to go wrong. -/
def Tracked.Misled (want : String) (t : Tracked) : Prop := ∃ r ∈ t.last, r.1.Revokes want r.2

structure Tracked.Inv (want : String) (path : Path) (t : Tracked) : Prop where
  sound : t.devicePath = some path → recognised want t.props = true
  lost : (recognised want t.props = true ∧ t.devicePath ≠ some path) ↔ t.Misled want

theorem seed_inv (want : String) (path : Path) (props : Props) : (Tracked.seed want path props).Inv want path := by
  unfold Tracked.seed
  refine ⟨?_, ?_⟩
  · intro h
    by_cases hr : recognised want props = true
    · exact hr
    · rw [if_neg hr] at h
      cases h
  · constructor
    · rintro ⟨hr, hn⟩
      exact (hn (if_pos hr)).elim
    · rintro ⟨r, hr, _⟩
      cases hr

theorem follow_inv {adapterPath path : Path} {want : String} {t : Tracked} (h : t.Inv want path) {sig : Signal}
    (hs : sig.About adapterPath path) : (t.follow adapterPath want sig).Inv want path := by
  unfold Tracked.follow
  cases hc : sig.change adapterPath with
  | none => exact h
  | some c =>
    obtain ⟨p, changed⟩ := c
    obtain rfl := hs p changed hc
    have hid := @identify_eq_some p want t.devicePath changed
    have hup := @update_recognised want t.props changed
    refine ⟨?_, ?_⟩
    · intro hd
      rw [hup]
      rcases hid.1 hd with hr | ⟨hn, hd'⟩
      · exact .inl hr
      · exact .inr (.inl ⟨hn, h.sound hd'⟩)
    · dsimp only [Tracked.Misled]
      rw [hup, Ne, hid]
      by_cases hn : changed.named = true
      · -- what came before this name no longer matters
        simp only [hn, if_true, Option.mem_some_iff, exists_eq_left', Bool.true_eq_false, false_and, false_or, or_false]
        constructor
        · rintro ⟨hr | hrev, hno⟩
          · exact (hno hr).elim
          · exact hrev
        · intro hrev
          refine ⟨.inr hrev, ?_⟩
          rw [Revokes.not_recognised hrev]
          exact Bool.false_ne_true
      · have hrev : ¬ t.props.Revokes want changed := fun hr => hn (Revokes.named hr)
        have hrec : recognised want changed = false := by
          rw [Bool.eq_false_iff]
          intro hr
          rw [recognised_iff] at hr
          rcases hr with hr | hr <;> simp [Props.named, hr] at hn
        rw [if_neg hn]
        have hl := h.lost
        simp only [Tracked.Misled] at hl
        rw [← hl]
        simp [hrev, hrec, Bool.eq_false_iff.2 hn]

theorem track_inv {adapterPath path : Path} {want : String} {sigs : List Signal} (hs : ∀ sig ∈ sigs, sig.About adapterPath path)
    {t : Tracked} (h : t.Inv want path) : (sigs.foldl (Tracked.follow adapterPath want) t).Inv want path := by
  induction sigs generalizing t with
  | nil => exact h
  | cons sig sigs ih =>
    exact ih (fun s hm => hs s (List.mem_cons_of_mem _ hm)) (follow_inv h (hs sig List.mem_cons_self))

/-- The watcher holds the device for the vehicle exactly when the snapshot would, if and only
    if the last change with a name did not mislead it. -/
theorem identity_iff {adapterPath path : Path} {want : String} {sigs : List Signal}
    (hs : ∀ sig ∈ sigs, sig.About adapterPath path) (props : Props) :
    let t := sigs.foldl (Tracked.follow adapterPath want) (.seed want path props)
    (t.devicePath = some path ↔ recognised want t.props = true) ↔ ¬ t.Misled want := by
  intro t
  have h := track_inv hs (seed_inv want path props)
  rw [← h.lost]
  constructor
  · rintro he ⟨hr, hn⟩
    exact hn (he.2 hr)
  · intro hn
    refine ⟨h.sound, fun hr => ?_⟩
    by_contra hd
    exact hn ⟨hr, hd⟩

/-! ## A new alias -/

def hci0 : Path := "/org/bluez/hci0"

def car : Path := "/org/bluez/hci0/dev_AA"

def beaconName : String := "S1234567890abcdefC"

/-- Two advertisements: the first names the car, the second gives a signal strength only. -/
def namedThenHeard : List Signal :=
  [.interfacesAdded car (some { name := some beaconName }), .propertiesChanged car .device { rssi := some (-60) }]

theorem identity_iff_named_car :
    let t := namedThenHeard.foldl (Tracked.follow hci0 beaconName) (.seed beaconName car {})
    (t.devicePath = some car ↔ recognised beaconName t.props = true) ↔ ¬ t.Misled beaconName := by
  refine identity_iff ?_ _
  intro sig hm p changed hc
  simp only [namedThenHeard, List.mem_cons, List.not_mem_nil, or_false] at hm
  rcases hm with rfl | rfl
  · simp [Signal.change] at hc
    exact hc.2.1.symm
  · simp [Signal.change] at hc
    exact hc.2.1.symm

/-- The name, then a user's alias for the car. -/
def namedThenAlias : List Signal :=
  [.interfacesAdded car (some { name := some beaconName }), .propertiesChanged car .device { aliasName := some "My car" }]

theorem alias_revokes :
    let t := namedThenAlias.foldl (Tracked.follow hci0 beaconName) (.seed beaconName car {})
    recognised beaconName t.props = true ∧ t.devicePath = none ∧
      findBeacon hci0 beaconName [(car, some t.props)] = some { path := car, localName := beaconName, rssi := none } := by
  decide

end ElectricEel.Bluez
