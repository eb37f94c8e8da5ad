/-
  ElectricEel.Lib.ProtoMessage — protobuf messages as lists of items.

  An item is a numbered value: a varint, eight bytes or a length-delimited value. Reading a
  message skips the values of the other wire types and keeps their numbers. Of a scalar the
  last occurrence counts and a missing one is zero; the occurrences of an embedded message
  merge, as if their bytes were one message.

  Proved: what any codec appends item by item is the message (`Codec.foldl_append`), and a
  message that is written is read back, item by item (`read_write`).
-/
import ElectricEel.Lib.WireGrammar

namespace ElectricEel.Lib.Protowire

inductive Item where
  | varint (num : Nat) (v : UInt64)
  | fixed64 (num : Nat) (v : UInt64)
  | bytes (num : Nat) (b : Bytes)
  | other (num : Nat)
  deriving DecidableEq, Repr

/-! ## Fixed width -/

def readFixed : Nat → Bytes → Option (Nat × Bytes)
  | 0, b => some (0, b)
  | _ + 1, [] => none
  | n + 1, x :: rest => (readFixed n rest).map fun p => (x.toNat + 256 * p.1, p.2)

theorem readFixed_fixedBytes {n v : Nat} (h : v < 256 ^ n) (rest : Bytes) : readFixed n (fixedBytes n v ++ rest) = some (v, rest) := by
  induction n generalizing v with
  | zero =>
    have hv : v = 0 := by omega
    rw [hv]
    rfl
  | succ n ih =>
    have hdiv : v / 256 < 256 ^ n := by
      rw [Nat.div_lt_iff_lt_mul (by decide)]
      rw [Nat.pow_succ] at h
      exact h
    have hbyte : (UInt8.ofNat (v % 256)).toNat = v % 256 := by
      rw [UInt8.toNat_ofNat']
      omega
    rw [fixedBytes, List.cons_append, readFixed, ih hdiv, Option.map_some, hbyte]
    congr 2
    omega

/-! ## Items -/

def Item.append (b : Bytes) : Item → Bytes
  | .varint num v => appendVarint (appendTag b num .varint) v.toNat
  | .fixed64 num v => appendFixed64 (appendTag b num .fixed64) v
  | .bytes num v => appendBytes (appendTag b num .bytes) v
  | .other _ => b

/-- The bytes of an item. -/
def Item.wire (e : Item) : Bytes := e.append []

/-- What `append` can write so that it is read back. -/
def Item.Writable : Item → Prop
  | .varint num _ | .fixed64 num _ => 1 ≤ num ∧ num ≤ maxNumber
  | .bytes num b => (1 ≤ num ∧ num ≤ maxNumber) ∧ b.length < 2 ^ 64
  | .other _ => False

def write (es : List Item) : Bytes := es.foldl Item.append []

/-- The same with a package's functions. -/
def Codec.append (W : Codec) (b : Bytes) : Item → Bytes
  | .varint num v => W.appendVarint (W.appendTag b num .varint) v.toNat
  | .fixed64 num v => W.appendFixed64 (W.appendTag b num .fixed64) v
  | .bytes num v => W.appendBytes (W.appendTag b num .bytes) v
  | .other _ => b

theorem Codec.append_eq (W : Codec) (b : Bytes) {e : Item} (h : e.Writable) : W.append b e = e.append b := by
  cases e with
  | varint num v => rw [Codec.append, W.appendTag_eq b h, W.appendVarint_eq _ v.toNat_lt]; rfl
  | fixed64 num v => rw [Codec.append, W.appendTag_eq b h, W.appendFixed64_eq]; rfl
  | bytes num v => rw [Codec.append, W.appendTag_eq b h.1, W.appendBytes_eq _ h.2]; rfl
  | other num => exact h.elim

theorem Codec.foldl_append (W : Codec) {es : List Item} (h : ∀ e ∈ es, e.Writable) : es.foldl W.append [] = write es := by
  have hacc : ∀ (es : List Item) (b : Bytes), (∀ e ∈ es, e.Writable) → es.foldl W.append b = es.foldl Item.append b := by
    intro es
    induction es with
    | nil => exact fun _ _ => rfl
    | cons e es ih =>
      intro b h
      rw [List.foldl_cons, List.foldl_cons, W.append_eq b (h e List.mem_cons_self)]
      exact ih _ fun x hx => h x (List.mem_cons_of_mem e hx)
  exact hacc es [] h

def readItem (b : Bytes) : Option (Item × Bytes) :=
  match consumeTag b with
  | none => none
  | some (num, .varint, rest) => (consumeVarint rest).map fun p => (.varint num (UInt64.ofNat p.1), p.2)
  | some (num, .fixed64, rest) => (readFixed 8 rest).map fun p => (.fixed64 num (UInt64.ofNat p.1), p.2)
  | some (num, .bytes, rest) => (consumeBytes rest).map fun p => (.bytes num p.1, p.2)
  | some (num, typ, rest) => (consumeFieldValue num typ rest).map fun rest => (.other num, rest)

def readFrom : Nat → Bytes → Option (List Item)
  | _, [] => some []
  | 0, _ => none
  | fuel + 1, b =>
    match readItem b with
    | none => none
    | some (e, rest) => (readFrom fuel rest).map (e :: ·)

def read (b : Bytes) : Option (List Item) := readFrom b.length b

/-! ## What a message says -/

def Item.varint? (num : Nat) : Item → Option UInt64
  | .varint n v => if n = num then some v else none
  | _ => none

def Item.fixed64? (num : Nat) : Item → Option UInt64
  | .fixed64 n v => if n = num then some v else none
  | _ => none

def Item.bytes? (num : Nat) : Item → Option Bytes
  | .bytes n b => if n = num then some b else none
  | _ => none

/-- A scalar: the last that is there, or the default. -/
def scalar {α : Type} (value : Item → Option α) (default : α) (es : List Item) : α := (es.filterMap value).getLast?.getD default

def embedded (num : Nat) (es : List Item) : Bytes := (es.filterMap (Item.bytes? num)).flatten

/-! ## Reading what was written -/

theorem consumeTag_append {num : Nat} (h : 1 ≤ num ∧ num ≤ maxNumber) (typ : WireType) (rest : Bytes) :
    consumeTag (appendTag [] num typ ++ rest) = some (num, typ, rest) := by
  have hcode : typ.code < 8 := by cases typ <;> decide
  have hof : WireType.ofCode typ.code = typ := by cases typ <;> rfl
  have hmax : num ≤ 2 ^ 31 - 1 := h.2
  have hread : consumeVarint (appendTag [] num typ ++ rest) = some (num * 8 + typ.code, rest) := by
    rw [appendTag, appendVarint, List.nil_append]
    exact consumeVarint_append (by omega) rest
  have hdiv : (num * 8 + typ.code) / 8 = num := by omega
  have hmod : (num * 8 + typ.code) % 8 = typ.code := by omega
  simp only [consumeTag, hread, hdiv, hmod, hof, if_pos h]

theorem Item.append_eq (b : Bytes) (e : Item) : e.append b = b ++ e.wire := by
  cases e <;> simp [wire, append, appendTag, appendVarint, appendFixed64, appendBytes]

theorem write_cons (e : Item) (es : List Item) : write (e :: es) = e.wire ++ write es := by
  have hacc : ∀ (es : List Item) (b : Bytes), es.foldl Item.append b = b ++ write es := by
    intro es
    induction es with
    | nil => simp [write]
    | cons e es ih =>
      intro b
      rw [write, List.foldl_cons, List.foldl_cons, ih, ih (e.append []), Item.append_eq, ← Item.wire, List.append_assoc]
  rw [write, List.foldl_cons, hacc]
  rfl

theorem readItem_wire {e : Item} (h : e.Writable) (rest : Bytes) : readItem (e.wire ++ rest) = some (e, rest) := by
  cases e with
  | other num => exact h.elim
  | varint num v =>
    have hsplit : (Item.varint num v).wire ++ rest = appendTag [] num .varint ++ (varintBytes 10 v.toNat ++ rest) := by
      simp [Item.wire, Item.append, appendVarint]
    rw [hsplit, readItem, consumeTag_append h]
    dsimp only
    rw [consumeVarint_append v.toNat_lt, Option.map_some, UInt64.ofNat_toNat]
  | fixed64 num v =>
    have hsplit : (Item.fixed64 num v).wire ++ rest = appendTag [] num .fixed64 ++ (fixedBytes 8 v.toNat ++ rest) := by
      simp [Item.wire, Item.append, appendFixed64]
    rw [hsplit, readItem, consumeTag_append h]
    dsimp only
    rw [readFixed_fixedBytes (Nat.lt_of_lt_of_eq v.toNat_lt rfl), Option.map_some, UInt64.ofNat_toNat]
  | bytes num v =>
    have hsplit : (Item.bytes num v).wire ++ rest = appendTag [] num .bytes ++ (appendBytes [] v ++ rest) := by
      simp [Item.wire, Item.append, appendBytes, appendVarint]
    rw [hsplit, readItem, consumeTag_append h.1]
    dsimp only
    rw [consumeBytes_append h.2, Option.map_some]

theorem wire_ne_nil {e : Item} (h : e.Writable) : e.wire ≠ [] := by
  intro hnil
  have hread := readItem_wire h []
  rw [hnil] at hread
  have hnone : readItem [] = none := rfl
  rw [List.append_nil, hnone] at hread
  cases hread

theorem readFrom_write {es : List Item} (h : ∀ e ∈ es, e.Writable) {fuel : Nat} (hfuel : (write es).length ≤ fuel) :
    readFrom fuel (write es) = some es := by
  induction es generalizing fuel with
  | nil => cases fuel <;> rfl
  | cons e es ih =>
    have he := h e List.mem_cons_self
    have hpos : 0 < e.wire.length := List.length_pos_iff.2 (wire_ne_nil he)
    rw [write_cons, List.length_append] at hfuel
    cases fuel with
    | zero => omega
    | succ fuel =>
      have hle : (write es).length ≤ fuel := by omega
      have hrest := ih (fun x hx => h x (List.mem_cons_of_mem e hx)) hle
      rw [write_cons]
      cases hw : e.wire with
      | nil => exact absurd hw (wire_ne_nil he)
      | cons x xs =>
        rw [List.cons_append, readFrom, ← List.cons_append, ← hw, readItem_wire he]
        · dsimp only
          rw [hrest, Option.map_some]
        · exact List.cons_ne_nil x (xs ++ write es)

theorem read_write {es : List Item} (h : ∀ e ∈ es, e.Writable) : read (write es) = some es := readFrom_write h (Nat.le_refl _)

/-! ## Lengths -/

def Item.size : Item → Nat
  | .bytes _ b => b.length
  | _ => 0

theorem fixedBytes_length (n v : Nat) : (fixedBytes n v).length = n := by
  induction n generalizing v with
  | zero => rfl
  | succ n ih => rw [fixedBytes, List.length_cons, ih]

theorem Item.length_wire (e : Item) : e.wire.length ≤ 20 + e.size := by
  have htag : ∀ (num : Nat) (typ : WireType), (appendTag [] num typ).length ≤ 10 := fun num typ => varintBytes_length 10 _
  cases e with
  | varint num v =>
    have h := htag num .varint
    have hv := varintBytes_length 10 v.toNat
    simp only [wire, append, appendVarint, List.length_append, size]
    omega
  | fixed64 num v =>
    have h := htag num .fixed64
    simp only [wire, append, appendFixed64, List.length_append, fixedBytes_length, size]
    omega
  | bytes num b =>
    have h := htag num .bytes
    have hv := varintBytes_length 10 b.length
    simp only [wire, append, appendBytes, appendVarint, List.length_append, size]
    omega
  | other num => exact Nat.zero_le _

theorem write_length_le {es : List Item} {n : Nat} (h : ∀ e ∈ es, e.wire.length ≤ n) : (write es).length ≤ es.length * n := by
  induction es with
  | nil => exact Nat.zero_le _
  | cons e es ih =>
    have he := h e List.mem_cons_self
    have hrest := ih fun x hx => h x (List.mem_cons_of_mem e hx)
    rw [write_cons, List.length_append, List.length_cons, Nat.succ_mul]
    omega

/-! ## One embedded message -/

theorem single_writable {num : Nat} (h : 1 ≤ num ∧ num ≤ maxNumber) {b : Bytes} (hb : b.length < 2 ^ 64) :
    ∀ e ∈ [Item.bytes num b], e.Writable := by
  intro e he
  rw [List.mem_singleton.1 he]
  exact ⟨h, hb⟩

theorem read_single {num : Nat} (h : 1 ≤ num ∧ num ≤ maxNumber) {b : Bytes} (hb : b.length < 2 ^ 64) :
    read (write [.bytes num b]) = some [.bytes num b] := read_write (single_writable h hb)

@[simp] theorem embedded_single (num : Nat) (b : Bytes) : embedded num [.bytes num b] = b := by
  simp [embedded, Item.bytes?]

theorem write_single_length (num : Nat) (b : Bytes) : (write [.bytes num b]).length ≤ 20 + b.length := by
  rw [write_cons, List.length_append]
  exact Item.length_wire (.bytes num b)

end ElectricEel.Lib.Protowire
