/-
  ElectricEel.Share.Payload — the bytes of a navigation action
  (vehicle-command/pkg/vehicle/navigation_ee.go).

  The action is encoded by hand, with no generated code on this side. `received` is what the
  messages in navigation_ee.go's header say of such bytes: an `Action` whose field 2 is the
  vehicle action, in it field 53 with two doubles and an order, or field 21 with a text. Of a
  zero the sign is left out, as in `F64`.

  Proved: a double is its bits (`float64frombits_bits`), and what the parser reads is a
  double (`parse_double`); whatever arguments reach the car, the car reads the call that was
  checked (`navigation_received`).
-/
import ElectricEel.Lib.ProtoMessage
import ElectricEel.Share.Navigate

namespace ElectricEel.Share

open Lib Config

/-! ## Doubles -/

namespace F64

/-- The bits of a · 2^-1074 but for the sign; the leading bit of a normal number carries into the exponent. -/
def magnitudeBits (a : Nat) : Nat :=
  let e := Nat.log2 a - 52
  e * 2 ^ 52 + a / 2 ^ e

def withSign (neg : Bool) (bits : Nat) : UInt64 := UInt64.ofNat ((if neg then 2 ^ 63 else 0) + bits)

/-- `math.Float64bits`. -/
def float64bits : F64 → UInt64
  | nan => 0x7FF8000000000001
  | inf neg => withSign neg (2047 * 2 ^ 52)
  | fin n => withSign (n < 0) (magnitudeBits n.natAbs)

def ofMagnitude (neg : Bool) (bits : Nat) : F64 :=
  let e : Nat := bits / 2 ^ 52
  let f : Nat := bits % 2 ^ 52
  if e = 2047 then if f = 0 then inf neg else nan
  else
    let a : Nat := if e = 0 then f else (2 ^ 52 + f) * 2 ^ (e - 1)
    fin (if neg then -a else a)

def float64frombits (w : UInt64) : F64 := ofMagnitude (2 ^ 63 ≤ w.toNat) (w.toNat % 2 ^ 63)

inductive IsDouble : F64 → Prop
  | nan : IsDouble nan
  | inf (neg : Bool) : IsDouble (inf neg)
  /-- A significand of 53 bits, and not too large. -/
  | fin {n : Int} {m k : Nat} : m < 2 ^ 53 → n.natAbs = m * 2 ^ k → Nat.log2 n.natAbs < 2098 → IsDouble (fin n)

example : float64bits (ofInt 48) = 0x4048000000000000 := by decide +kernel
example : float64frombits 0xC066800000000000 = ofInt (-180) := by decide +kernel

theorem log2_bounds {a : Nat} (h : a ≠ 0) : 2 ^ Nat.log2 a ≤ a ∧ a < 2 ^ (Nat.log2 a + 1) :=
  ⟨Nat.log2_self_le h, Nat.lt_log2_self⟩

/-- The significand of a double that is not subnormal has exactly 53 bits. -/
theorem significand {a m k : Nat} (hm : m < 2 ^ 53) (ha : a = m * 2 ^ k) (hbig : 2 ^ 52 ≤ a) :
    2 ^ 52 ≤ a / 2 ^ (Nat.log2 a - 52) ∧ a / 2 ^ (Nat.log2 a - 52) < 2 ^ 53 ∧
      a / 2 ^ (Nat.log2 a - 52) * 2 ^ (Nat.log2 a - 52) = a := by
  have hne : a ≠ 0 := by omega
  obtain ⟨hlow, hhigh⟩ := log2_bounds hne
  have hlog : 52 ≤ Nat.log2 a := (Nat.le_log2 hne).2 hbig
  generalize he : Nat.log2 a - 52 = e
  have hle : 2 ^ 52 * 2 ^ e ≤ a := by
    rw [← Nat.pow_add, show 52 + e = Nat.log2 a by omega]
    exact hlow
  have hlt : a < 2 ^ 53 * 2 ^ e := by
    rw [← Nat.pow_add, show 53 + e = Nat.log2 a + 1 by omega]
    exact hhigh
  have hpos : 0 < 2 ^ e := Nat.two_pow_pos e
  have hek : e ≤ k := by
    apply Classical.byContradiction
    intro hk
    have hpow : 2 ^ k * 2 ≤ 2 ^ e := by
      rw [← Nat.pow_succ]
      exact Nat.pow_le_pow_right (by decide) (by omega)
    have hmk : m * 2 ^ k < 2 ^ 53 * 2 ^ k := Nat.mul_lt_mul_of_pos_right hm (Nat.two_pow_pos k)
    omega
  have hdvd : 2 ^ e ∣ a := by
    rw [ha]
    exact Nat.dvd_trans (Nat.pow_dvd_pow 2 hek) (Nat.dvd_mul_left _ _)
  exact ⟨(Nat.le_div_iff_mul_le hpos).2 hle, (Nat.div_lt_iff_lt_mul hpos).2 hlt, Nat.div_mul_cancel hdvd⟩

theorem fields_split {e q : Nat} (hlow : 2 ^ 52 ≤ q) (hhigh : q < 2 ^ 53) :
    (e * 2 ^ 52 + q) / 2 ^ 52 = e + 1 ∧ 2 ^ 52 + (e * 2 ^ 52 + q) % 2 ^ 52 = q := by
  omega

/-- The fields of a double's bits. -/
theorem magnitude_fields {a m k : Nat} (hm : m < 2 ^ 53) (ha : a = m * 2 ^ k) (hlog : Nat.log2 a < 2098) :
    magnitudeBits a / 2 ^ 52 < 2047 ∧
      (if magnitudeBits a / 2 ^ 52 = 0 then magnitudeBits a % 2 ^ 52
        else (2 ^ 52 + magnitudeBits a % 2 ^ 52) * 2 ^ (magnitudeBits a / 2 ^ 52 - 1)) = a := by
  by_cases hsmall : a < 2 ^ 52
  · have hexp : Nat.log2 a - 52 = 0 := by
      by_cases h0 : a = 0
      · rw [h0]
        decide
      · have := (Nat.log2_lt h0).2 hsmall
        omega
    have hbits : magnitudeBits a = a := by simp [magnitudeBits, hexp]
    have hdiv : a / 2 ^ 52 = 0 := Nat.div_eq_of_lt hsmall
    have hmod : a % 2 ^ 52 = a := Nat.mod_eq_of_lt hsmall
    rw [hbits, if_pos hdiv, hmod, hdiv]
    exact ⟨by decide, rfl⟩
  · obtain ⟨hlow, hhigh, hexact⟩ := significand hm ha (Nat.not_lt.1 hsmall)
    obtain ⟨hdiv, hmod⟩ := fields_split (e := Nat.log2 a - 52) hlow hhigh
    rw [magnitudeBits, hdiv, if_neg (Nat.succ_ne_zero _), hmod, Nat.add_sub_cancel]
    exact ⟨by omega, hexact⟩

theorem word_halves {bits : Nat} (h : bits < 2 ^ 63) (neg : Bool) :
    decide (2 ^ 63 ≤ (withSign neg bits).toNat) = neg ∧ (withSign neg bits).toNat % 2 ^ 63 = bits := by
  have hword : (withSign neg bits).toNat = (if neg then 2 ^ 63 else 0) + bits := by
    rw [withSign, UInt64.toNat_ofNat']
    cases neg <;> simp <;> omega
  rw [hword]
  cases neg <;> simp <;> omega

theorem float64frombits_bits {x : F64} (h : x.IsDouble) : float64frombits (float64bits x) = x := by
  cases h with
  | nan => rfl
  | inf neg =>
    obtain ⟨hneg, hbits⟩ := word_halves (by decide : 2047 * 2 ^ 52 < 2 ^ 63) neg
    rw [float64bits, float64frombits, hneg, hbits]
    rfl
  | @fin n m k hm ha hlog =>
    obtain ⟨hexp, hfields⟩ := magnitude_fields hm ha hlog
    have hlt : magnitudeBits n.natAbs < 2 ^ 63 := by omega
    obtain ⟨hneg, hbits⟩ := word_halves hlt (decide (n < 0))
    rw [float64bits, float64frombits, hneg, hbits, ofMagnitude]
    dsimp only
    rw [if_neg (by omega), hfields]
    by_cases hn : n < 0
    · simp only [hn, decide_true, if_true]
      congr 1
      omega
    · simp only [hn, decide_false, Bool.false_eq_true, if_false]
      congr 1
      omega

/-! ## What is read is a double -/

theorem log2_lt_of_not_le {a b : Nat} (hb : 0 < b) (h : ¬ 2 ^ b ≤ a) : Nat.log2 a < b := by
  by_cases h0 : a = 0
  · rw [h0]
    simpa using hb
  · exact (Nat.log2_lt h0).2 (Nat.not_le.1 h)

/-- A rounded significand of 53 bits, or the power of two above them. -/
theorem rounded_double {r shift : Nat} (hr : r ≤ 2 ^ 53) : ∃ m k, m < 2 ^ 53 ∧ r * 2 ^ shift = m * 2 ^ k := by
  by_cases hlt : r < 2 ^ 53
  · exact ⟨r, shift, hlt, rfl⟩
  · refine ⟨2 ^ 52, shift + 1, by decide, ?_⟩
    have hr' : r = 2 ^ 52 * 2 := by omega
    have hpow : 2 ^ (shift + 1) = 2 * 2 ^ shift := Nat.pow_succ'
    rw [hr', hpow, Nat.mul_assoc]

theorem nearest_double (num : Nat) {den : Nat} (hd : 0 < den) : ∃ m k, m < 2 ^ 53 ∧ nearest 52 num den = m * 2 ^ k := by
  obtain ⟨t, hstep, heq⟩ := nearest_step 52 num hd
  rw [heq]
  exact rounded_double (roundDiv_le (Nat.mul_pos hd (Nat.two_pow_pos t)) (Nat.le_of_lt hstep.high))

theorem bounded_double {large : Prop} [Decidable large] (neg : Bool) {n : Nat} (hlog : ¬large → Nat.log2 n < 2098)
    (h : ∃ m k, m < 2 ^ 53 ∧ n = m * 2 ^ k) : IsDouble (if large then .inf neg else .fin (if neg then -n else n)) := by
  have habs : ∀ n : Nat, (if neg = true then -(n : Int) else n).natAbs = n := fun n => by cases neg <;> simp
  by_cases hlarge : large
  · rw [if_pos hlarge]
    exact .inf neg
  · obtain ⟨m, k, hm, hn⟩ := h
    rw [if_neg hlarge]
    exact .fin hm ((habs n).trans hn) (by rw [habs]; exact hlog hlarge)

theorem ofDecimal_double (neg : Bool) (digits : Nat) (exp : Int) : (ofDecimal neg digits exp).IsDouble := by
  unfold ofDecimal
  exact bounded_double neg (log2_lt_of_not_le (by decide)) (nearest_double _ (Nat.pow_pos (by decide)))

theorem optional_double {none? : Prop} [Decidable none?] {e : Option Int} {f : Int → F64} (hf : ∀ k, (f k).IsDouble) {x : F64}
    (h : (if none? then none else e.map f) = some x) : x.IsDouble := by
  split at h
  · cases h
  · obtain ⟨k, _, rfl⟩ := Option.map_eq_some_iff.1 h
    exact hf k

theorem parseNumber_double {neg : Bool} {s : List Char} {x : F64} (h : parseNumber neg s = some x) : x.IsDouble := by
  unfold parseNumber at h
  refine optional_double ?_ h
  exact fun _ => ofDecimal_double _ _ _

theorem parse_double {s : List Char} {x : F64} (h : parse s = some x) : x.IsDouble := by
  unfold parse at h
  dsimp only at h
  split at h
  · cases h
    exact .inf _
  · split at h
    · cases h
      exact .nan
    · exact parseNumber_double h

end F64

/-! ## Encoding -/

open Lib.Protowire F64

def utf8 (s : List Char) : Bytes := s.flatMap String.utf8EncodeChar

section

variable (W : Codec)

def encodeNavigationGps (lat lon : F64) (order : Int) : Bytes :=
  let inner := W.appendTag [] 1 .fixed64
  let inner := W.appendFixed64 inner (float64bits lat)
  let inner := W.appendTag inner 2 .fixed64
  let inner := W.appendFixed64 inner (float64bits lon)
  let inner := if order ≠ navOrderUnknown then W.appendVarint (W.appendTag inner 3 .varint) (order % 2 ^ 64).toNat else inner
  let vehicleAction := W.appendTag [] 53 .bytes
  let vehicleAction := W.appendBytes vehicleAction inner
  let action := W.appendTag [] 2 .bytes
  W.appendBytes action vehicleAction

/-- `order` is always omitted. -/
def encodeNavigationRequest (destination : List Char) : Bytes :=
  let inner := W.appendTag [] 1 .bytes
  let inner := W.appendBytes inner (utf8 destination)
  let vehicleAction := W.appendTag [] 21 .bytes
  let vehicleAction := W.appendBytes vehicleAction inner
  let action := W.appendTag [] 2 .bytes
  W.appendBytes action vehicleAction

-- The bytes that navigation_ee_test.go expects.
example : encodeNavigationGps wire (F64.ofDecimal false 488584 (-4)) (F64.ofDecimal false 22945 (-4)) 1 =
    [0x12, 0x17, 0xaa, 0x03, 0x14, 0x09, 0x76, 0x71, 0x1b, 0x0d, 0xe0, 0x6d, 0x48, 0x40, 0x11, 0x42, 0x60, 0xe5, 0xd0, 0x22, 0x5b,
      0x02, 0x40, 0x18, 0x01] := by decide +kernel

/-- What `executeRawCarServerAction` is given. -/
def payload : VehicleCall → Bytes
  | .navigateToGPS lat lon order => encodeNavigationGps W lat lon order
  | .navigateToDestination destination => encodeNavigationRequest W destination

end

/-! ## Reading -/

/-- A number as an enum or an int32. -/
def int32 (v : UInt64) : Int := v.toUInt32.toInt32.toInt

def receivedGps (inner : List Item) : VehicleCall :=
  .navigateToGPS (float64frombits (scalar (Item.fixed64? 1) 0 inner)) (float64frombits (scalar (Item.fixed64? 2) 0 inner))
    (int32 (scalar (Item.varint? 3) 0 inner))

def receivedRequest (inner : List Item) : Option VehicleCall :=
  (String.fromUTF8? (scalar (Item.bytes? 1) [] inner).toByteArray).map fun s => .navigateToDestination s.toList

/-- The field that is set last counts. -/
def navigationOf (vehicleAction : List Item) : Option VehicleCall :=
  match vehicleAction.getLast? with
  | some (.bytes 53 _) => (read (embedded 53 vehicleAction)).map receivedGps
  | some (.bytes 21 _) => (read (embedded 21 vehicleAction)).bind receivedRequest
  | _ => none

def vehicleActionOf (action : Bytes) : Option (List Item) := (read action).bind fun fields => read (embedded 2 fields)

def received (action : Bytes) : Option VehicleCall := (vehicleActionOf action).bind navigationOf

/-! ## The round trip -/

theorem vehicleActionOf_single {num : Nat} (h : 1 ≤ num ∧ num ≤ maxNumber) {inner : Bytes} (hlen : inner.length < 2 ^ 32) :
    vehicleActionOf (write [.bytes 2 (write [.bytes num inner])]) = some [.bytes num inner] := by
  have hwrap := write_single_length num inner
  have houter : (write [.bytes num inner]).length < 2 ^ 64 := by omega
  rw [vehicleActionOf, read_single (by decide) houter, Option.bind_some, embedded_single]
  exact read_single h (by omega)

def gpsItems (lat lon : F64) (order : Int) : List Item :=
  [.fixed64 1 (float64bits lat), .fixed64 2 (float64bits lon)] ++
    if order ≠ navOrderUnknown then [.varint 3 (UInt64.ofNat (order % 2 ^ 64).toNat)] else []

theorem utf8_length (s : List Char) : (utf8 s).length = byteLen s := by
  simp [utf8, byteLen, List.length_flatMap]

theorem fromUTF8?_utf8 (s : List Char) : String.fromUTF8? (utf8 s).toByteArray = some (String.ofList s) := by
  have hvalid : (utf8 s).toByteArray.IsValidUTF8 := ⟨s, rfl⟩
  rw [String.fromUTF8?, dif_pos hvalid]
  rfl

theorem int32_order {order : Int} (h : navOrderUnknown ≤ order ∧ order ≤ navOrderAppend) :
    int32 (UInt64.ofNat (order % 2 ^ 64).toNat) = order := by
  obtain ⟨hlow, hhigh⟩ := h
  have hcases : order = 0 ∨ order = 1 ∨ order = 2 ∨ order = 3 := by
    simp only [navOrderUnknown, navOrderAppend] at hlow hhigh
    omega
  rcases hcases with rfl | rfl | rfl | rfl <;> decide

theorem gpsItems_writable (lat lon : F64) (order : Int) : ∀ e ∈ gpsItems lat lon order, e.Writable := by
  intro e he
  rcases List.mem_append.1 he with he | he
  · simp only [List.mem_cons, List.not_mem_nil, or_false] at he
    rcases he with rfl | rfl <;> exact ⟨by decide, by decide⟩
  · split at he
    · rw [List.mem_singleton.1 he]
      exact ⟨by decide, by decide⟩
    · cases he

theorem gpsItems_length (lat lon : F64) (order : Int) : (write (gpsItems lat lon order)).length ≤ 60 := by
  have hwire : ∀ e ∈ gpsItems lat lon order, e.wire.length ≤ 20 := by
    intro e he
    have hsize : e.size = 0 := by
      rcases List.mem_append.1 he with he | he
      · simp only [List.mem_cons, List.not_mem_nil, or_false] at he
        rcases he with rfl | rfl <;> rfl
      · split at he
        · rw [List.mem_singleton.1 he]
          rfl
        · cases he
    have := e.length_wire
    omega
  have hcount : (gpsItems lat lon order).length ≤ 3 := by
    unfold gpsItems
    split <;> simp
  have := write_length_le hwire
  have hmul : (gpsItems lat lon order).length * 20 ≤ 3 * 20 := Nat.mul_le_mul_right 20 hcount
  omega

theorem encodeNavigationGps_eq (W : Codec) (lat lon : F64) (order : Int) :
    encodeNavigationGps W lat lon order = write [.bytes 2 (write [.bytes 53 (write (gpsItems lat lon order))])] := by
  have horder : (UInt64.ofNat (order % 2 ^ 64).toNat).toNat = (order % 2 ^ 64).toNat := by
    rw [UInt64.toNat_ofNat']
    omega
  have hlen := gpsItems_length lat lon order
  have houter := write_single_length 53 (write (gpsItems lat lon order))
  have h2 : 1 ≤ 2 ∧ 2 ≤ maxNumber := by decide
  have h53 : 1 ≤ 53 ∧ 53 ≤ maxNumber := by decide
  rw [← W.foldl_append (single_writable h2 (by omega)), ← W.foldl_append (single_writable h53 (by omega)),
    ← W.foldl_append (gpsItems_writable lat lon order)]
  unfold encodeNavigationGps gpsItems
  split
  · simp only [List.foldl_cons, List.foldl_nil, List.cons_append, List.nil_append, Codec.append, horder]
  · rfl

theorem encodeNavigationRequest_eq (W : Codec) {destination : List Char} (hlen : byteLen destination ≤ 2000) :
    encodeNavigationRequest W destination = write [.bytes 2 (write [.bytes 21 (write [.bytes 1 (utf8 destination)])])] := by
  have htext : (utf8 destination).length ≤ 2000 := Nat.le_trans (Nat.le_of_eq (utf8_length destination)) hlen
  have hinner := write_single_length 1 (utf8 destination)
  have houter := write_single_length 21 (write [.bytes 1 (utf8 destination)])
  have h1 : 1 ≤ 1 ∧ 1 ≤ maxNumber := by decide
  have h2 : 1 ≤ 2 ∧ 2 ≤ maxNumber := by decide
  have h21 : 1 ≤ 21 ∧ 21 ≤ maxNumber := by decide
  rw [← W.foldl_append (single_writable h2 (by omega)), ← W.foldl_append (single_writable h21 (by omega)),
    ← W.foldl_append (single_writable h1 (by omega))]
  rfl

theorem receivedGps_items {lat lon : F64} (hlat : lat.IsDouble) (hlon : lon.IsDouble) {order : Int}
    (h : navOrderUnknown ≤ order ∧ order ≤ navOrderAppend) : receivedGps (gpsItems lat lon order) = .navigateToGPS lat lon order := by
  have horder := int32_order h
  unfold receivedGps gpsItems
  split
  · generalize UInt64.ofNat (order % 2 ^ 64).toNat = v at horder ⊢
    show VehicleCall.navigateToGPS (float64frombits (float64bits lat)) (float64frombits (float64bits lon)) (int32 v) = _
    rw [float64frombits_bits hlat, float64frombits_bits hlon, horder]
  · rename_i hzero
    have hzero : order = 0 := Classical.not_not.1 hzero
    show VehicleCall.navigateToGPS (float64frombits (float64bits lat)) (float64frombits (float64bits lon)) (int32 0) = _
    rw [float64frombits_bits hlat, float64frombits_bits hlon, hzero]
    rfl

theorem received_gps (W : Codec) {lat lon : F64} (hlat : lat.IsDouble) (hlon : lon.IsDouble) {order : Int}
    (h : navOrderUnknown ≤ order ∧ order ≤ navOrderAppend) :
    received (encodeNavigationGps W lat lon order) = some (.navigateToGPS lat lon order) := by
  have hlen := gpsItems_length lat lon order
  rw [encodeNavigationGps_eq, received, vehicleActionOf_single (by decide) (by omega), Option.bind_some]
  simp only [navigationOf, List.getLast?_singleton, embedded_single]
  rw [read_write (gpsItems_writable lat lon order), Option.map_some, receivedGps_items hlat hlon h]

theorem received_request (W : Codec) {destination : List Char} (hlen : byteLen destination ≤ 2000) :
    received (encodeNavigationRequest W destination) = some (.navigateToDestination destination) := by
  have hbytes : (utf8 destination).length < 2 ^ 64 := by
    rw [utf8_length]
    omega
  have hinner := write_single_length 1 (utf8 destination)
  rw [utf8_length] at hinner
  rw [encodeNavigationRequest_eq W hlen, received, vehicleActionOf_single (by decide) (by omega), Option.bind_some]
  simp only [navigationOf, List.getLast?_singleton, embedded_single]
  rw [read_single (by decide) hbytes, Option.bind_some]
  have htext : scalar (Item.bytes? 1) [] [.bytes 1 (utf8 destination)] = utf8 destination := by simp [scalar, Item.bytes?]
  rw [receivedRequest, htext, fromUTF8?_utf8, Option.map_some, String.toList_ofList]

section

variable {P : Printing}

theorem readNumber_double (hP : ∀ s x, P.parseFloat s = some x → x.IsDouble) {arg : String} {x : F64} (h : readNumber P arg = some x) :
    x.IsDouble := by
  unfold readNumber at h
  split at h
  · rename_i y hy
    split at h
    · cases h
      exact hP _ _ hy
    · cases h
  · cases h

/-- A position is sent as it was read. -/
theorem navigateShape_gps {args : List String} {lat lon : F64} {order : Int}
    (h : navigateShape P args = .ok (.navigateToGPS lat lon order)) :
    ∃ a b, args = ["gps", a, b] ∧ readNumber P a = some lat ∧ readNumber P b = some lon := by
  revert h
  fun_cases navigateShape P args with
  | case5 a b x hx y hy =>
    intro h
    injection h with h
    injection h with hlat hlon
    subst hlat hlon
    exact ⟨a, b, rfl, hx, hy⟩
  | _ =>
    intro h
    cases h

theorem vehicleCheck_gps {lat lon : F64} {order : Int} (h : vehicleCheck P (.navigateToGPS lat lon order) = .ok ()) :
    navOrderUnknown ≤ order ∧ order ≤ navOrderAppend := by
  simp only [vehicleCheck] at h
  split at h
  · cases h
  · split at h
    · cases h
    · split at h
      · cases h
      · omega

theorem vehicleCheck_destination {destination : List Char} (h : vehicleCheck P (.navigateToDestination destination) = .ok ()) :
    byteLen destination ≤ 2000 := by
  simp only [vehicleCheck] at h
  split at h
  · cases h
  · omega

/-- Whatever arguments lead to a call, its bytes say the call. -/
theorem navigation_received (W : Codec) (hP : ∀ s x, P.parseFloat s = some x → x.IsDouble) (args : List String) (call : VehicleCall)
    (h : navigate P args = .ok call) : received (payload W call) = some call := by
  unfold navigate at h
  cases hshape : navigateShape P args with
  | error e =>
    rw [hshape] at h
    cases h
  | ok asked =>
    rw [hshape] at h
    dsimp only at h
    cases hcheck : vehicleCheck P asked with
    | error e =>
      rw [hcheck] at h
      cases h
    | ok u =>
      rw [hcheck] at h
      cases h
      cases call with
      | navigateToGPS lat lon order =>
        obtain ⟨a, b, _, hlat, hlon⟩ := navigateShape_gps hshape
        exact received_gps W (readNumber_double hP hlat) (readNumber_double hP hlon) (vehicleCheck_gps hcheck)
      | navigateToDestination destination => exact received_request W (vehicleCheck_destination hcheck)

end

/-- Rust's reader in Go's place; on decimals they are one. -/
def decimals : Printing where
  display _ := []
  parseFloat := F64.parse
  verb _ := ""

theorem navigation_received_vienna :
    received (payload wire (.navigateToGPS (F64.ofDecimal false 482082 (-4)) (F64.ofDecimal false 163738 (-4)) 0)) =
      some (.navigateToGPS (F64.ofDecimal false 482082 (-4)) (F64.ofDecimal false 163738 (-4)) 0) :=
  navigation_received (P := decimals) wire (fun _ _ h => F64.parse_double h) ["gps", "48.2082", "16.3738"] _ (by decide +kernel)

end ElectricEel.Share
