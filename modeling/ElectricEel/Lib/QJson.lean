/-
  ElectricEel.Lib.QJson — Qt's JSON values, as a program reads and builds them.

  A text is the list of its UTF-16 units. A number is the double it was read into. An object
  is the list of its fields, which has no order of its own: `insert` keeps it sorted by key,
  `value` looks a key up.

  Proved: what a key holds after an insertion (`value_insert`); an `int` comes back from
  `toInt` (`toInt_intCast`), which gives nothing but an `int` (`isInt32_toInt`).
-/
import Mathlib.Algebra.Order.Ring.Int
import Mathlib.Data.Rat.Defs

namespace ElectricEel.Lib.QJson

abbrev QString := List UInt16

/-- `QStringLiteral`, for a text of units below 2^16. -/
def qs (s : String) : QString := s.toList.map (·.toNat.toUInt16)

inductive QJsonValue where
  | null
  | bool (b : Bool)
  | double (x : Rat)
  | string (s : QString)
  | array (xs : List QJsonValue)
  | object (fields : List (QString × QJsonValue))

abbrev QJsonObject := List (QString × QJsonValue)

/-- None stands for the undefined value. -/
def value (root : QJsonObject) (key : QString) : Option QJsonValue := (root.find? (·.1 = key)).map (·.2)

def insert : QJsonObject → QString → QJsonValue → QJsonObject
  | [], key, v => [(key, v)]
  | (k, u) :: root, key, v =>
    if k = key then (key, v) :: root
    else if key < k then (key, v) :: (k, u) :: root
    else (k, u) :: insert root key v

def isInt32 (n : Int) : Prop := -2 ^ 31 ≤ n ∧ n < 2 ^ 31

instance (n : Int) : Decidable (isInt32 n) := inferInstanceAs (Decidable (_ ∧ _))

/-- `QJsonValue::toInt`: the default for a value that is no number, and for a number that is
    no `int`. -/
def toInt (dflt : Int) : Option QJsonValue → Int
  | some (.double x) => if x.den = 1 ∧ isInt32 x.num then x.num else dflt
  | _ => dflt

def toArray : Option QJsonValue → List QJsonValue
  | some (.array xs) => xs
  | _ => []

def toObject : QJsonValue → QJsonObject
  | .object fields => fields
  | _ => []

/-- `QJsonValue::toString`. -/
def toText : Option QJsonValue → QString
  | some (.string s) => s
  | _ => []

/-! ## Fields -/

theorem value_cons (k : QString) (u : QJsonValue) (root : QJsonObject) (key : QString) :
    value ((k, u) :: root) key = if k = key then some u else value root key := by
  by_cases hk : k = key
  · simp [value, hk]
  · simp [value, hk]

theorem value_insert (root : QJsonObject) (key : QString) (v : QJsonValue) (k : QString) :
    value (insert root key v) k = if key = k then some v else value root k := by
  induction root with
  | nil =>
    rw [insert, value_cons]
  | cons f root ih =>
    rw [insert]
    by_cases hf : f.1 = key
    · rw [if_pos hf, value_cons]
      by_cases hk : key = k
      · rw [if_pos hk, if_pos hk]
      · rw [if_neg hk, if_neg hk, value_cons, if_neg (hf ▸ hk)]
    · rw [if_neg hf]
      by_cases hlt : key < f.1
      · rw [if_pos hlt, value_cons]
      · rw [if_neg hlt, value_cons, value_cons, ih]
        by_cases hk : f.1 = k
        · rw [if_pos hk, if_pos hk, if_neg fun h => hf (hk.trans h.symm)]
        · rw [if_neg hk, if_neg hk]

/-! ## Integers -/

theorem toInt_intCast {n : Int} (dflt : Int) (hn : isInt32 n) : toInt dflt (some (.double n)) = n := by
  have hnum : (n : Rat).num = n := rfl
  have hden : (n : Rat).den = 1 := rfl
  rw [toInt, hnum, hden, if_pos ⟨rfl, hn⟩]

theorem isInt32_toInt {dflt : Int} (hd : isInt32 dflt) (v : Option QJsonValue) : isInt32 (toInt dflt v) := by
  unfold toInt
  split
  · split
    · next h => exact h.2
    · exact hd
  · exact hd

end ElectricEel.Lib.QJson
