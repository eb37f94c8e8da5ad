/-
  ElectricEel.Lib.WireGrammar — the bytes of a protobuf message, as a grammar.

  A varint is any padding of its value to at most ten bytes; a value of a field is the
  bytes its wire type asks for, a group the fields up to its own end tag, nested to a
  bounded depth.

  A `Codec` is a package of functions for it: its readers accept exactly the grammar, with
  the bytes after it left over, and its writers append the shortest encoding. Those of
  `Protowire` are one (`wire`).

  Proved, of any codec: a byte string is read as a list of fields exactly where it is their
  message (`fields_iff`); every field takes a byte, and more fuel reads nothing else
  (`IsField.pos`, `fieldsFrom_fuel`).
-/
import ElectricEel.Lib.Protowire

namespace ElectricEel.Lib.Protowire

/-! ## The grammar -/

/-- The bytes of a number, n at most. -/
inductive IsVarint : Nat → Nat → Bytes → Prop
  | last {n : Nat} {b : UInt8} (h : b.toNat < 128) (hn : n = 0 → b.toNat < 2) : IsVarint (n + 1) b.toNat [b]
  | more {n v : Nat} {b : UInt8} {bs : Bytes} (h : 128 ≤ b.toNat) (hbs : IsVarint n v bs) :
    IsVarint (n + 1) (b.toNat - 128 + 128 * v) (b :: bs)

def IsTag (num : Nat) (typ : WireType) (t : Bytes) : Prop :=
  ∃ v, IsVarint 10 v t ∧ v / 8 = num ∧ 1 ≤ num ∧ num ≤ maxNumber ∧ WireType.ofCode (v % 8) = typ

/-- A length and that many bytes. -/
def IsBytes (payload b : Bytes) : Prop := ∃ l, IsVarint 10 payload.length l ∧ b = l ++ payload

inductive Value where
  | varint (v : Nat)
  | bytes (b : Bytes)
  | other
  deriving DecidableEq, Repr

structure Field where
  num : Nat
  value : Value
  deriving DecidableEq, Repr

inductive Part where
  /-- The value of a field, in which `depth` groups may nest. -/
  | value (depth num : Nat) (typ : WireType)
  /-- What follows the start tag of a group. -/
  | group (depth num : Nat)

inductive Derives : Part → Bytes → Prop
  | varint {d num v : Nat} {b : Bytes} : IsVarint 10 v b → Derives (.value d num .varint) b
  | fixed64 {d num : Nat} {b : Bytes} : b.length = 8 → Derives (.value d num .fixed64) b
  | fixed32 {d num : Nat} {b : Bytes} : b.length = 4 → Derives (.value d num .fixed32) b
  | bytes {d num : Nat} {p b : Bytes} : IsBytes p b → Derives (.value d num .bytes) b
  | startGroup {d num : Nat} {b : Bytes} : Derives (.group d num) b → Derives (.value (d + 1) num .startGroup) b
  | endGroup {d num : Nat} {t : Bytes} : IsTag num .endGroup t → Derives (.group d num) t
  | field {d num num' : Nat} {typ : WireType} {t v rest : Bytes} : IsTag num' typ t → typ ≠ .endGroup →
    Derives (.value d num' typ) v → Derives (.group d num) rest → Derives (.group d num) (t ++ (v ++ rest))

inductive IsField : Field → Bytes → Prop
  | varint {num v : Nat} {t b : Bytes} : IsTag num .varint t → IsVarint 10 v b → IsField ⟨num, .varint v⟩ (t ++ b)
  | bytes {num : Nat} {p t b : Bytes} : IsTag num .bytes t → IsBytes p b → IsField ⟨num, .bytes p⟩ (t ++ b)
  | other {num : Nat} {typ : WireType} {t b : Bytes} : IsTag num typ t → typ ≠ .varint → typ ≠ .bytes →
    Derives (.value (recursionLimit + 1) num typ) b → IsField ⟨num, .other⟩ (t ++ b)

inductive IsMessage : List Field → Bytes → Prop
  | nil : IsMessage [] []
  | cons {f : Field} {fs : List Field} {b rest : Bytes} : IsField f b → IsMessage fs rest → IsMessage (f :: fs) (b ++ rest)

/-! ## Varints -/

theorem IsVarint.pos {n v : Nat} {b : Bytes} (h : IsVarint n v b) : 0 < b.length := by
  cases h with
  | last => exact Nat.one_pos
  | more => exact Nat.succ_pos _

theorem IsVarint.varint {n v : Nat} {b : Bytes} (h : IsVarint n v b) (rest : Bytes) : varint n (b ++ rest) = some (v, rest) := by
  induction h with
  | @last n b h hn =>
    cases n with
    | zero => simp [Protowire.varint, hn rfl]
    | succ n => simp [Protowire.varint, h]
  | @more n v b bs h hbs ih =>
    cases n with
    | zero => cases hbs
    | succ n =>
      rw [List.cons_append, Protowire.varint, if_neg (by omega), ih, Option.map_some]
      omega

theorem varint_sound {n v : Nat} {b rest : Bytes} (h : varint n b = some (v, rest)) :
    ∃ x, IsVarint n v x ∧ b = x ++ rest := by
  induction n generalizing v b with
  | zero => cases b <;> simp [varint] at h
  | succ n ih =>
    cases b with
    | nil => cases n <;> simp [varint] at h
    | cons c b =>
      cases n with
      | zero =>
        simp only [Nat.zero_add, varint] at h
        split at h
        · rename_i hc
          cases h
          exact ⟨[c], .last (by omega) fun _ => hc, rfl⟩
        · cases h
      | succ n =>
        rw [varint] at h
        · split at h
          · rename_i hc
            cases h
            exact ⟨[c], .last hc (by omega), rfl⟩
          · rename_i hc
            obtain ⟨⟨w, rest'⟩, hw, heq⟩ := Option.map_eq_some_iff.1 h
            cases heq
            obtain ⟨x, hx, rfl⟩ := ih hw
            exact ⟨c :: x, .more (by omega) hx, rfl⟩
        · omega

theorem IsVarint.consume {v : Nat} {x : Bytes} (h : IsVarint 10 v x) (rest : Bytes) :
    consumeVarint (x ++ rest) = some (v, rest) := h.varint rest

theorem consumeVarint_iff {v : Nat} {b rest : Bytes} :
    consumeVarint b = some (v, rest) ↔ ∃ x, IsVarint 10 v x ∧ b = x ++ rest := by
  constructor
  · exact varint_sound
  · rintro ⟨x, hx, rfl⟩
    exact hx.consume rest

/-! ## Tags and lengths -/

theorem IsTag.pos {num : Nat} {typ : WireType} {t : Bytes} (h : IsTag num typ t) : 0 < t.length := by
  obtain ⟨v, hv, _⟩ := h
  exact hv.pos

theorem IsTag.consume {num : Nat} {typ : WireType} {t : Bytes} (h : IsTag num typ t) (rest : Bytes) :
    consumeTag (t ++ rest) = some (num, typ, rest) := by
  obtain ⟨v, hv, rfl, h1, h2, rfl⟩ := h
  rw [consumeTag, hv.consume rest]
  dsimp only
  rw [if_pos ⟨h1, h2⟩]

theorem consumeTag_iff {num : Nat} {typ : WireType} {b rest : Bytes} :
    consumeTag b = some (num, typ, rest) ↔ ∃ t, IsTag num typ t ∧ b = t ++ rest := by
  constructor
  · intro h
    unfold consumeTag at h
    split at h
    · rename_i v rest' hv
      split at h
      · rename_i hnum
        cases h
        obtain ⟨t, ht, rfl⟩ := consumeVarint_iff.1 hv
        exact ⟨t, ⟨v, ht, rfl, hnum.1, hnum.2, rfl⟩, rfl⟩
      · cases h
    · cases h
  · rintro ⟨t, ht, rfl⟩
    exact ht.consume rest

theorem IsBytes.consume {p x : Bytes} (h : IsBytes p x) (rest : Bytes) : consumeBytes (x ++ rest) = some (p, rest) := by
  obtain ⟨l, hl, rfl⟩ := h
  rw [List.append_assoc, consumeBytes, hl.consume (p ++ rest)]
  simp

theorem consumeBytes_iff {p b rest : Bytes} : consumeBytes b = some (p, rest) ↔ ∃ x, IsBytes p x ∧ b = x ++ rest := by
  constructor
  · intro h
    unfold consumeBytes at h
    split at h
    · rename_i m rest' hm
      split at h
      · rename_i hle
        cases h
        obtain ⟨l, hl, rfl⟩ := consumeVarint_iff.1 hm
        refine ⟨l ++ rest'.take m, ⟨l, ?_, rfl⟩, by rw [List.append_assoc, List.take_append_drop]⟩
        rwa [List.length_take_of_le hle]
      · cases h
    · cases h
  · rintro ⟨x, hx, rfl⟩
    exact hx.consume rest

theorem IsBytes.pos {p b : Bytes} (h : IsBytes p b) : 0 < b.length := by
  obtain ⟨l, hl, rfl⟩ := h
  have := hl.pos
  rw [List.length_append]
  omega

theorem consumeFixed_append {n : Nat} {x : Bytes} (h : x.length = n) (rest : Bytes) : consumeFixed n (x ++ rest) = some rest := by
  subst h
  simp [consumeFixed]

theorem consumeFixed_sound {n : Nat} {b rest : Bytes} (h : consumeFixed n b = some rest) :
    ∃ x : Bytes, x.length = n ∧ b = x ++ rest := by
  unfold consumeFixed at h
  split at h
  · rename_i hle
    cases h
    exact ⟨b.take n, List.length_take_of_le hle, (List.take_append_drop n b).symm⟩
  · cases h

/-! ## Values -/

theorem Derives.pos {p : Part} {b : Bytes} (h : Derives p b) : 0 < b.length := by
  induction h with
  | varint h => exact h.pos
  | fixed64 h => omega
  | fixed32 h => omega
  | bytes h => exact h.pos
  | startGroup _ ih => exact ih
  | endGroup h => exact h.pos
  | field ht _ _ _ _ _ =>
    have := ht.pos
    rw [List.length_append]
    omega

/-- A derivation is read back; every tag and value takes a byte, and so two units of fuel. -/
theorem Derives.skip {p : Part} {b : Bytes} (h : Derives p b) :
    match p with
    | .value d num typ => ∀ fuel rest, 2 * b.length + 1 ≤ fuel → Protowire.skip fuel d num typ (b ++ rest) = some rest
    | .group d num => ∀ fuel rest, 2 * b.length ≤ fuel → skipGroup fuel d num (b ++ rest) = some rest := by
  induction h with
  | varint h =>
    intro fuel rest _
    cases fuel <;> simp only [Protowire.skip, h.consume rest, Option.map_some]
  | fixed64 h =>
    intro fuel rest _
    cases fuel <;> simp only [Protowire.skip, consumeFixed_append h rest]
  | fixed32 h =>
    intro fuel rest _
    cases fuel <;> simp only [Protowire.skip, consumeFixed_append h rest]
  | bytes h =>
    intro fuel rest _
    cases fuel <;> simp only [Protowire.skip, h.consume rest, Option.map_some]
  | startGroup h ih =>
    intro fuel rest hf
    cases fuel with
    | zero => omega
    | succ fuel =>
      rw [Protowire.skip]
      exact ih fuel rest (by omega)
  | endGroup h =>
    intro fuel rest hf
    have hpos := h.pos
    cases fuel with
    | zero => omega
    | succ fuel =>
      rw [skipGroup, h.consume rest]
      simp
  | @field d num num' typ t v u ht hne hv hu ihv ihu =>
    intro fuel rest hf
    have hpos := ht.pos
    have hvpos := hv.pos
    rw [List.length_append, List.length_append] at hf
    cases fuel with
    | zero => omega
    | succ fuel =>
      have htag : consumeTag (t ++ (v ++ u) ++ rest) = some (num', typ, v ++ (u ++ rest)) := by
        rw [List.append_assoc, List.append_assoc]
        exact ht.consume _
      have hskip := ihv fuel (u ++ rest) (by omega)
      rw [skipGroup, htag]
      cases typ <;> first | exact absurd rfl hne | (simp only [hskip]; exact ihu fuel rest (by omega))

theorem skip_sound (fuel : Nat) :
    (∀ d num typ b rest, skip fuel d num typ b = some rest → ∃ v, Derives (.value d num typ) v ∧ b = v ++ rest) ∧
      ∀ d num b rest, skipGroup fuel d num b = some rest → ∃ v, Derives (.group d num) v ∧ b = v ++ rest := by
  have hflat : ∀ fuel d num typ b rest, typ ≠ .startGroup → skip fuel d num typ b = some rest →
      ∃ v, Derives (.value d num typ) v ∧ b = v ++ rest := by
    intro fuel d num typ b rest hne h
    cases typ with
    | varint =>
      have hs : (consumeVarint b).map (·.2) = some rest := by cases fuel <;> simpa only [skip] using h
      obtain ⟨⟨v, rest'⟩, hv, rfl⟩ := Option.map_eq_some_iff.1 hs
      obtain ⟨x, hx, rfl⟩ := consumeVarint_iff.1 hv
      exact ⟨x, .varint hx, rfl⟩
    | fixed64 =>
      have hs : consumeFixed 8 b = some rest := by cases fuel <;> simpa only [skip] using h
      obtain ⟨x, hx, rfl⟩ := consumeFixed_sound hs
      exact ⟨x, .fixed64 hx, rfl⟩
    | bytes =>
      have hs : (consumeBytes b).map (·.2) = some rest := by cases fuel <;> simpa only [skip] using h
      obtain ⟨⟨v, rest'⟩, hv, rfl⟩ := Option.map_eq_some_iff.1 hs
      obtain ⟨x, hx, rfl⟩ := consumeBytes_iff.1 hv
      exact ⟨x, .bytes hx, rfl⟩
    | startGroup => exact absurd rfl hne
    | fixed32 =>
      have hs : consumeFixed 4 b = some rest := by cases fuel <;> simpa only [skip] using h
      obtain ⟨x, hx, rfl⟩ := consumeFixed_sound hs
      exact ⟨x, .fixed32 hx, rfl⟩
    | endGroup => cases fuel <;> simp [skip] at h
    | reserved => cases fuel <;> simp [skip] at h
  induction fuel with
  | zero =>
    refine ⟨?_, fun d num b rest h => by simp [skipGroup] at h⟩
    intro d num typ b rest h
    by_cases ht : typ = .startGroup
    · subst ht
      cases d <;> simp [skip] at h
    · exact hflat 0 d num typ b rest ht h
  | succ fuel ih =>
    constructor
    · intro d num typ b rest h
      by_cases ht : typ = .startGroup
      · subst ht
        cases d with
        | zero => simp [skip] at h
        | succ d =>
          rw [skip] at h
          obtain ⟨v, hv, rfl⟩ := ih.2 d num b rest h
          exact ⟨v, .startGroup hv, rfl⟩
      · exact hflat (fuel + 1) d num typ b rest ht h
    · intro d num b rest h
      rw [skipGroup] at h
      split at h
      · cases h
      · rename_i num' rest' htag
        split at h
        · rename_i heq
          cases h
          obtain ⟨t, ht, rfl⟩ := consumeTag_iff.1 htag
          exact ⟨t, .endGroup (heq ▸ ht), rfl⟩
        · cases h
      · rename_i num' typ rest' hne htag
        split at h
        · cases h
        · rename_i rest'' hskip
          obtain ⟨t, ht, rfl⟩ := consumeTag_iff.1 htag
          obtain ⟨v, hv, rfl⟩ := ih.1 d num' typ rest' rest'' hskip
          obtain ⟨u, hu, rfl⟩ := ih.2 d num rest'' rest h
          exact ⟨t ++ (v ++ u), .field ht hne hv hu, by simp⟩

theorem IsField.pos {f : Field} {b : Bytes} (h : IsField f b) : 0 < b.length := by
  cases h with
  | varint ht _ => have := ht.pos; rw [List.length_append]; omega
  | bytes ht _ => have := ht.pos; rw [List.length_append]; omega
  | other ht _ _ _ => have := ht.pos; rw [List.length_append]; omega

theorem consumeFieldValue_iff {num : Nat} {typ : WireType} {b rest : Bytes} :
    consumeFieldValue num typ b = some rest ↔ ∃ x, Derives (.value (recursionLimit + 1) num typ) x ∧ b = x ++ rest := by
  constructor
  · exact (skip_sound _).1 _ _ _ _ _
  · rintro ⟨x, hx, rfl⟩
    refine hx.skip _ rest ?_
    rw [List.length_append]
    omega

/-! ## The shortest encodings -/

theorem isVarint_varintBytes {v : Nat} (h : v < 2 ^ 64) : IsVarint 10 v (varintBytes 10 v) := by
  obtain ⟨x, hx, heq⟩ := consumeVarint_iff.1 (consumeVarint_append h [])
  rw [List.append_nil, List.append_nil] at heq
  rwa [heq]

theorem isTag_varintBytes {num : Nat} (h : 1 ≤ num ∧ num ≤ maxNumber) (typ : WireType) :
    IsTag num typ (varintBytes 10 (num * 8 + typ.code)) := by
  have htyp : WireType.ofCode typ.code = typ := by cases typ <;> rfl
  have hcode : typ.code < 8 := by cases typ <;> decide
  have hmax : num ≤ 2 ^ 31 - 1 := h.2
  have hmod : (num * 8 + typ.code) % 8 = typ.code := by omega
  exact ⟨_, isVarint_varintBytes (by omega), by omega, h.1, h.2, by rw [hmod, htyp]⟩

theorem IsMessage.one {f : Field} {b : Bytes} (h : IsField f b) : IsMessage [f] b := by
  have hm := IsMessage.cons h .nil
  rwa [List.append_nil] at hm

/-! ## Packages -/

/-- The functions of a package that reads and writes the format, with what is documented of them. -/
structure Codec where
  consumeVarint : Bytes → Option (Nat × Bytes)
  consumeTag : Bytes → Option (Nat × WireType × Bytes)
  consumeBytes : Bytes → Option (Bytes × Bytes)
  consumeFieldValue : Nat → WireType → Bytes → Option Bytes
  appendVarint : Bytes → Nat → Bytes
  appendTag : Bytes → Nat → WireType → Bytes
  appendBytes : Bytes → Bytes → Bytes
  appendFixed64 : Bytes → UInt64 → Bytes
  consumeVarint_iff {v : Nat} {b rest : Bytes} : consumeVarint b = some (v, rest) ↔ ∃ x, IsVarint 10 v x ∧ b = x ++ rest
  consumeTag_iff {num : Nat} {typ : WireType} {b rest : Bytes} :
    consumeTag b = some (num, typ, rest) ↔ ∃ t, IsTag num typ t ∧ b = t ++ rest
  consumeBytes_iff {p b rest : Bytes} : consumeBytes b = some (p, rest) ↔ ∃ x, IsBytes p x ∧ b = x ++ rest
  consumeFieldValue_iff {num : Nat} {typ : WireType} {b rest : Bytes} :
    consumeFieldValue num typ b = some rest ↔ ∃ x, Derives (.value (recursionLimit + 1) num typ) x ∧ b = x ++ rest
  appendVarint_eq (b : Bytes) {v : Nat} (h : v < 2 ^ 64) : appendVarint b v = b ++ varintBytes 10 v
  appendTag_eq (b : Bytes) {num : Nat} (h : 1 ≤ num ∧ num ≤ maxNumber) (typ : WireType) :
    appendTag b num typ = b ++ varintBytes 10 (num * 8 + typ.code)
  appendBytes_eq (b : Bytes) {v : Bytes} (h : v.length < 2 ^ 64) : appendBytes b v = b ++ varintBytes 10 v.length ++ v
  appendFixed64_eq (b : Bytes) (v : UInt64) : appendFixed64 b v = b ++ fixedBytes 8 v.toNat

/-- The functions of `Protowire`. -/
def wire : Codec where
  consumeVarint := Protowire.consumeVarint
  consumeTag := Protowire.consumeTag
  consumeBytes := Protowire.consumeBytes
  consumeFieldValue := Protowire.consumeFieldValue
  appendVarint := Protowire.appendVarint
  appendTag := Protowire.appendTag
  appendBytes := Protowire.appendBytes
  appendFixed64 := Protowire.appendFixed64
  consumeVarint_iff := Protowire.consumeVarint_iff
  consumeTag_iff := Protowire.consumeTag_iff
  consumeBytes_iff := Protowire.consumeBytes_iff
  consumeFieldValue_iff := Protowire.consumeFieldValue_iff
  appendVarint_eq _ _ _ := rfl
  appendTag_eq _ _ _ _ := rfl
  appendBytes_eq _ _ _ := rfl
  appendFixed64_eq _ _ := rfl

/-! ## Fields -/

namespace Codec

variable (W : Codec)

/-- One field and the bytes after it. -/
def consumeField (b : Bytes) : Option (Field × Bytes) :=
  match W.consumeTag b with
  | none => none
  | some (num, .varint, rest) => (W.consumeVarint rest).map fun p => ({ num, value := .varint p.1 }, p.2)
  | some (num, .bytes, rest) => (W.consumeBytes rest).map fun p => ({ num, value := .bytes p.1 }, p.2)
  | some (num, typ, rest) => (W.consumeFieldValue num typ rest).map fun rest => ({ num, value := .other }, rest)

def fieldsFrom : Nat → Bytes → Option (List Field)
  | _, [] => some []
  | 0, _ => none
  | fuel + 1, b =>
    match W.consumeField b with
    | none => none
    | some (f, rest) => (fieldsFrom fuel rest).map (f :: ·)

/-- All fields of a message. -/
def fields (b : Bytes) : Option (List Field) := W.fieldsFrom b.length b

variable {W}

theorem consumeField_append {f : Field} {b : Bytes} (h : IsField f b) (rest : Bytes) : W.consumeField (b ++ rest) = some (f, rest) := by
  cases h with
  | @varint num v t b ht hv =>
    have htag : W.consumeTag (t ++ b ++ rest) = some (num, .varint, b ++ rest) :=
      W.consumeTag_iff.2 ⟨t, ht, List.append_assoc t b rest⟩
    rw [consumeField, htag]
    simp only [W.consumeVarint_iff.2 ⟨b, hv, rfl⟩, Option.map_some]
  | @bytes num p t b ht hb =>
    have htag : W.consumeTag (t ++ b ++ rest) = some (num, .bytes, b ++ rest) :=
      W.consumeTag_iff.2 ⟨t, ht, List.append_assoc t b rest⟩
    rw [consumeField, htag]
    simp only [W.consumeBytes_iff.2 ⟨b, hb, rfl⟩, Option.map_some]
  | @other num typ t b ht hnv hnb hd =>
    have htag : W.consumeTag (t ++ b ++ rest) = some (num, typ, b ++ rest) :=
      W.consumeTag_iff.2 ⟨t, ht, List.append_assoc t b rest⟩
    have hskip : W.consumeFieldValue num typ (b ++ rest) = some rest := W.consumeFieldValue_iff.2 ⟨b, hd, rfl⟩
    rw [consumeField, htag]
    cases typ <;> first | exact absurd rfl hnv | exact absurd rfl hnb | simp only [hskip, Option.map_some]

theorem consumeField_iff {f : Field} {b rest : Bytes} : W.consumeField b = some (f, rest) ↔ ∃ x, IsField f x ∧ b = x ++ rest := by
  constructor
  · intro h
    unfold consumeField at h
    split at h
    · cases h
    · rename_i num rest' htag
      obtain ⟨⟨v, u⟩, hv, heq⟩ := Option.map_eq_some_iff.1 h
      cases heq
      obtain ⟨t, ht, rfl⟩ := W.consumeTag_iff.1 htag
      obtain ⟨x, hx, rfl⟩ := W.consumeVarint_iff.1 hv
      exact ⟨t ++ x, .varint ht hx, by simp⟩
    · rename_i num rest' htag
      obtain ⟨⟨p, u⟩, hv, heq⟩ := Option.map_eq_some_iff.1 h
      cases heq
      obtain ⟨t, ht, rfl⟩ := W.consumeTag_iff.1 htag
      obtain ⟨x, hx, rfl⟩ := W.consumeBytes_iff.1 hv
      exact ⟨t ++ x, .bytes ht hx, by simp⟩
    · rename_i num typ rest' hnv hnb htag
      obtain ⟨u, hu, heq⟩ := Option.map_eq_some_iff.1 h
      cases heq
      obtain ⟨t, ht, rfl⟩ := W.consumeTag_iff.1 htag
      obtain ⟨x, hx, rfl⟩ := W.consumeFieldValue_iff.1 hu
      exact ⟨t ++ x, .other ht hnv hnb hx, by simp⟩
  · rintro ⟨x, hx, rfl⟩
    exact consumeField_append hx rest

theorem fieldsFrom_message {fs : List Field} {b : Bytes} (h : IsMessage fs b) (n : Nat) (hn : b.length ≤ n) :
    W.fieldsFrom n b = some fs := by
  induction h generalizing n with
  | nil => cases n <;> rfl
  | @cons f fs b rest hf hm ih =>
    have hpos := hf.pos
    rw [List.length_append] at hn
    cases n with
    | zero => omega
    | succ n =>
      rw [fieldsFrom, consumeField_append hf rest]
      · simp only [ih n (by omega), Option.map_some]
      · intro he
        rw [List.append_eq_nil_iff.1 he |>.1] at hpos
        exact Nat.lt_irrefl _ hpos

theorem fieldsFrom_sound {n : Nat} {b : Bytes} {fs : List Field} (h : W.fieldsFrom n b = some fs) : IsMessage fs b := by
  induction n generalizing b fs with
  | zero =>
    cases b with
    | nil =>
      cases h
      exact .nil
    | cons c b => simp [fieldsFrom] at h
  | succ n ih =>
    cases b with
    | nil =>
      simp only [fieldsFrom, Option.some.injEq] at h
      subst h
      exact .nil
    | cons c b =>
      rw [fieldsFrom] at h
      · split at h
        · cases h
        · rename_i f rest hf
          obtain ⟨gs, hgs, rfl⟩ := Option.map_eq_some_iff.1 h
          obtain ⟨x, hx, hb⟩ := consumeField_iff.1 hf
          rw [hb]
          exact .cons hx (ih hgs)
      · simp

/-- The fields of a message and nothing else. -/
theorem fields_iff {b : Bytes} {fs : List Field} : W.fields b = some fs ↔ IsMessage fs b :=
  ⟨fieldsFrom_sound, fun h => fieldsFrom_message h _ (Nat.le_refl _)⟩

/-- The loop over the fields ends by itself: its length is enough fuel. -/
theorem fieldsFrom_fuel {n : Nat} {b : Bytes} (h : b.length ≤ n) : W.fieldsFrom n b = W.fields b := by
  cases hf : W.fields b with
  | some fs => exact fieldsFrom_message (fields_iff.1 hf) n h
  | none =>
    cases hn : W.fieldsFrom n b with
    | none => rfl
    | some fs => exact absurd (fields_iff.2 (fieldsFrom_sound hn)) (by rw [hf]; simp)

end Codec

end ElectricEel.Lib.Protowire
