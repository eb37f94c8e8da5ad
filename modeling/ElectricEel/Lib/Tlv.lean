/-
  ElectricEel.Lib.Tlv — items of a one-byte tag, a one-byte length and a value, a stop byte
  after the last, and a free text after that.

  Proved: the text determines the items and what follows them, if no item has the stop byte
  as its tag and no value is longer than its length byte can say (`encode_stop_inj`); the
  four big-endian bytes of a 32-bit word determine it (`bigEndian_inj`).
-/
import Mathlib.Algebra.Order.Ring.Int
import Mathlib.Data.List.Basic

namespace ElectricEel.Lib.Tlv

abbrev Bytes := List UInt8

structure Item where
  tag : UInt8
  value : Bytes
  deriving DecidableEq, Repr

def Item.encode (i : Item) : Bytes := i.tag :: UInt8.ofNat i.value.length :: i.value

def encode (items : List Item) : Bytes := items.flatMap Item.encode

@[simp] theorem encode_nil : encode [] = [] := rfl

@[simp] theorem encode_cons (i : Item) (items : List Item) : encode (i :: items) = i.encode ++ encode items :=
  List.flatMap_cons

@[simp] theorem encode_append (items items' : List Item) : encode (items ++ items') = encode items ++ encode items' :=
  List.flatMap_append

/-- What a reader can tell apart from the stop byte and take by its length. -/
structure Item.Readable (stop : UInt8) (i : Item) : Prop where
  tag_ne : i.tag ≠ stop
  length_le : i.value.length ≤ 255

theorem toNat_length {v : Bytes} (h : v.length ≤ 255) : (UInt8.ofNat v.length).toNat = v.length := by
  rw [UInt8.toNat_ofNat']
  exact Nat.mod_eq_of_lt (by omega)

/-- One item at the head of a text is read off it. -/
theorem Item.encode_append_inj {stop : UInt8} {i j : Item} (hi : i.Readable stop) (hj : j.Readable stop) {rest rest' : Bytes}
    (h : i.encode ++ rest = j.encode ++ rest') : i = j ∧ rest = rest' := by
  simp only [Item.encode, List.cons_append, List.cons.injEq] at h
  obtain ⟨htag, hlen, hval⟩ := h
  have hlen' : i.value.length = j.value.length := by
    rw [← toNat_length hi.length_le, ← toNat_length hj.length_le, hlen]
  obtain ⟨hv, hr⟩ := List.append_inj hval hlen'
  refine ⟨?_, hr⟩
  cases i
  cases j
  cases htag
  cases hv
  rfl

theorem encode_stop_inj {stop : UInt8} {items items' : List Item} (hi : ∀ i ∈ items, i.Readable stop)
    (hi' : ∀ i ∈ items', i.Readable stop) {text text' : Bytes}
    (h : encode items ++ stop :: text = encode items' ++ stop :: text') : items = items' ∧ text = text' := by
  induction items generalizing items' with
  | nil =>
    cases items' with
    | nil => exact ⟨rfl, (List.cons.inj h).2⟩
    | cons j items' =>
      have he : stop = j.tag := (List.cons.inj h).1
      exact absurd he.symm (hi' j List.mem_cons_self).tag_ne
  | cons i items ih =>
    cases items' with
    | nil =>
      have he : i.tag = stop := (List.cons.inj h).1
      exact absurd he (hi i List.mem_cons_self).tag_ne
    | cons j items' =>
      simp only [encode_cons, List.append_assoc] at h
      obtain ⟨rfl, hrest⟩ := Item.encode_append_inj (hi i List.mem_cons_self) (hi' j List.mem_cons_self) h
      obtain ⟨rfl, ht⟩ := ih (fun k hk => hi k (List.mem_cons_of_mem _ hk)) (fun k hk => hi' k (List.mem_cons_of_mem _ hk)) hrest
      exact ⟨rfl, ht⟩

/-! ## Words -/

/-- `binary.BigEndian.PutUint32`. -/
def bigEndian (n : UInt32) : Bytes :=
  [UInt8.ofNat (n.toNat / 2 ^ 24), UInt8.ofNat (n.toNat / 2 ^ 16), UInt8.ofNat (n.toNat / 2 ^ 8), UInt8.ofNat n.toNat]

@[simp] theorem length_bigEndian (n : UInt32) : (bigEndian n).length = 4 := rfl

theorem bigEndian_inj {m n : UInt32} (h : bigEndian m = bigEndian n) : m = n := by
  simp only [bigEndian, List.cons.injEq, ← UInt8.toNat_inj, UInt8.toNat_ofNat', and_true] at h
  apply UInt32.toNat_inj.1
  have hm := m.toNat_lt
  have hn := n.toNat_lt
  omega

end ElectricEel.Lib.Tlv
