/-
  ElectricEel.Lib.Protowire — the protobuf wire format.

  A message is a sequence of fields, each a tag (a varint of number and wire type) and a
  value. Reading returns what was read and the bytes after it, or none where the bytes are
  malformed. Varints have at most ten bytes; groups nest to a bounded depth; eight bytes of
  fixed width are little-endian.

  Proved: what `appendVarint` and `appendBytes` write is read back, with the bytes after it
  (`consumeVarint_append`, `consumeBytes_append`).
-/
import Mathlib.Algebra.Order.Ring.Nat
import Mathlib.Data.List.Basic

namespace ElectricEel.Lib.Protowire

abbrev Bytes := List UInt8

inductive WireType where
  | varint
  | fixed64
  | bytes
  | startGroup
  | endGroup
  | fixed32
  | reserved
  deriving DecidableEq, Repr

def WireType.ofCode : Nat → WireType
  | 0 => varint
  | 1 => fixed64
  | 2 => bytes
  | 3 => startGroup
  | 4 => endGroup
  | 5 => fixed32
  | _ => reserved

def WireType.code : WireType → Nat
  | varint => 0
  | fixed64 => 1
  | bytes => 2
  | startGroup => 3
  | endGroup => 4
  | fixed32 => 5
  | reserved => 6

/-! ## Reading -/

/-- At most `n` bytes, of which the tenth holds a single bit. -/
def varint : Nat → Bytes → Option (Nat × Bytes)
  | 1, b :: rest => if b.toNat < 2 then some (b.toNat, rest) else none
  | n + 1, b :: rest =>
    if b.toNat < 128 then some (b.toNat, rest) else (varint n rest).map fun p => (b.toNat - 128 + 128 * p.1, p.2)
  | _, _ => none

def consumeVarint (b : Bytes) : Option (Nat × Bytes) := varint 10 b

def maxNumber : Nat := 2 ^ 31 - 1

def consumeTag (b : Bytes) : Option (Nat × WireType × Bytes) :=
  match consumeVarint b with
  | some (v, rest) => if 1 ≤ v / 8 ∧ v / 8 ≤ maxNumber then some (v / 8, .ofCode (v % 8), rest) else none
  | none => none

def consumeBytes (b : Bytes) : Option (Bytes × Bytes) :=
  match consumeVarint b with
  | some (m, rest) => if m ≤ rest.length then some (rest.take m, rest.drop m) else none
  | none => none

def consumeFixed (n : Nat) (b : Bytes) : Option Bytes := if n ≤ b.length then some (b.drop n) else none

mutual

/-- Past one value; `depth` groups may still open. -/
def skip : Nat → Nat → Nat → WireType → Bytes → Option Bytes
  | _, _, _, .varint, b => (consumeVarint b).map (·.2)
  | _, _, _, .fixed64, b => consumeFixed 8 b
  | _, _, _, .bytes, b => (consumeBytes b).map (·.2)
  | _, _, _, .fixed32, b => consumeFixed 4 b
  | fuel + 1, depth + 1, num, .startGroup, b => skipGroup fuel depth num b
  | _, _, _, _, _ => none

def skipGroup : Nat → Nat → Nat → Bytes → Option Bytes
  | 0, _, _, _ => none
  | fuel + 1, depth, num, b =>
    match consumeTag b with
    | none => none
    | some (num', .endGroup, rest) => if num' = num then some rest else none
    | some (num', typ, rest) =>
      match skip fuel depth num' typ rest with
      | none => none
      | some rest => skipGroup fuel depth num rest

end

def recursionLimit : Nat := 10000

/-- Every tag takes a byte, so this is enough fuel. -/
def consumeFieldValue (num : Nat) (typ : WireType) (b : Bytes) : Option Bytes := skip (2 * b.length + 2) (recursionLimit + 1) num typ b

/-! ## Writing -/

def varintBytes : Nat → Nat → Bytes
  | 0, _ => []
  | n + 1, v => if v < 128 then [UInt8.ofNat v] else UInt8.ofNat (v % 128 + 128) :: varintBytes n (v / 128)

def appendVarint (b : Bytes) (v : Nat) : Bytes := b ++ varintBytes 10 v

def appendTag (b : Bytes) (num : Nat) (typ : WireType) : Bytes := appendVarint b (num * 8 + typ.code)

def appendBytes (b v : Bytes) : Bytes := appendVarint b v.length ++ v

/-- Little-endian. -/
def fixedBytes : Nat → Nat → Bytes
  | 0, _ => []
  | n + 1, v => UInt8.ofNat (v % 256) :: fixedBytes n (v / 256)

def appendFixed64 (b : Bytes) (v : UInt64) : Bytes := b ++ fixedBytes 8 v.toNat

/-! ## Reading what was written -/

theorem varint_varintBytes {n v : Nat} (h : v < 2 * 128 ^ n) (rest : Bytes) :
    varint (n + 1) (varintBytes (n + 1) v ++ rest) = some (v, rest) := by
  induction n generalizing v with
  | zero =>
    have hv : v < 2 := by omega
    have h128 : v < 128 := by omega
    have hb : (UInt8.ofNat v).toNat = v := by
      rw [UInt8.toNat_ofNat']
      omega
    simp [varintBytes, varint, h128, hb, hv]
  | succ n ih =>
    rw [varintBytes]
    by_cases h128 : v < 128
    · have hb : (UInt8.ofNat v).toNat = v := by
        rw [UInt8.toNat_ofNat']
        omega
      simp [h128, varint, hb]
    · have hb : (UInt8.ofNat (v % 128 + 128)).toNat = v % 128 + 128 := by
        rw [UInt8.toNat_ofNat']
        omega
      have hv : v / 128 < 2 * 128 ^ n := by
        rw [Nat.div_lt_iff_lt_mul (by decide)]
        rw [Nat.pow_succ] at h
        omega
      have hn : ¬ (v % 128 + 128 < 128) := by omega
      rw [if_neg h128, List.cons_append, varint]
      · rw [hb, if_neg hn, ih hv, Option.map_some]
        congr 2
        dsimp only
        omega
      · omega

theorem consumeVarint_append {v : Nat} (h : v < 2 ^ 64) (rest : Bytes) :
    consumeVarint (varintBytes 10 v ++ rest) = some (v, rest) :=
  varint_varintBytes (Nat.lt_of_lt_of_eq h rfl) rest

theorem consumeBytes_append {v : Bytes} (h : v.length < 2 ^ 64) (rest : Bytes) :
    consumeBytes (appendBytes [] v ++ rest) = some (v, rest) := by
  have hc : consumeVarint (appendBytes [] v ++ rest) = some (v.length, v ++ rest) := by
    rw [appendBytes, appendVarint, List.nil_append, List.append_assoc, consumeVarint_append h]
  rw [consumeBytes, hc]
  simp

theorem varintBytes_length (n v : Nat) : (varintBytes n v).length ≤ n := by
  induction n generalizing v with
  | zero => exact Nat.le_refl _
  | succ n ih =>
    rw [varintBytes]
    split
    · simp
    · simp only [List.length_cons]
      have := ih (v / 128)
      omega

end ElectricEel.Lib.Protowire
