/-
  ElectricEel.Lib.Json — JSON documents, and the reader that builds one as a tree.

  A number is kept as far as a typed reader can tell it apart: an integer an i64 or a u64
  holds, or any other number, which an f64 holds or not. A string is what its escapes say,
  or none where they name half a surrogate pair. The fields of an object stand in the order
  of the text, repeated keys included; a tree keeps the last of them.

  A reader that builds the tree refuses numbers and strings it cannot hold, and containers
  nested to its recursion limit (`builds`). A reader that skips a value does not look.

  Proved: a list of fields survives the object it is put into (`toList_ofList`).
-/
import Mathlib.Algebra.Order.Ring.Nat

namespace ElectricEel.Lib

mutual

inductive Json where
  | null
  | bool (b : Bool)
  | int (n : Int)
  | float (finite : Bool)
  | str (s : Option String)
  | arr (xs : Elems)
  | obj (fs : Fields)
  deriving DecidableEq, Repr

inductive Elems where
  | nil
  | cons (x : Json) (xs : Elems)
  deriving DecidableEq, Repr

inductive Fields where
  | nil
  | cons (key : String) (x : Json) (fs : Fields)
  deriving DecidableEq, Repr

end

namespace Elems

def toList : Elems → List Json
  | nil => []
  | cons x xs => x :: xs.toList

end Elems

namespace Fields

def toList : Fields → List (String × Json)
  | nil => []
  | cons key x fs => (key, x) :: fs.toList

def ofList : List (String × Json) → Fields
  | [] => nil
  | (key, x) :: l => cons key x (ofList l)

@[simp] theorem toList_ofList (l : List (String × Json)) : (ofList l).toList = l := by
  induction l with
  | nil => rfl
  | cons p l ih =>
    show p :: (ofList l).toList = p :: l
    rw [ih]

/-- The values under a key, in the order of the text. -/
def values (fs : Fields) (key : String) : List Json := (fs.toList.filter (·.1 == key)).map (·.2)

end Fields

/-! ## Building the tree -/

mutual

/-- The reader builds the value; `room` is its recursion limit, less the containers it is in. -/
def Json.builds (room : Nat) : Json → Bool
  | .float finite => finite
  | .str s => s.isSome
  | .arr xs => 1 < room && xs.build (room - 1)
  | .obj fs => 1 < room && fs.build (room - 1)
  | _ => true

def Elems.build (room : Nat) : Elems → Bool
  | .nil => true
  | .cons x xs => x.builds room && xs.build room

def Fields.build (room : Nat) : Fields → Bool
  | .nil => true
  | .cons _ x fs => x.builds room && fs.build room

end

/-! ## Looking into a value -/

namespace Json

/-- `Value::get`: of a repeated key the last. -/
def get (key : String) : Json → Option Json
  | .obj fs => (fs.values key).getLast?
  | _ => none

/-- `Value::as_u64`. -/
def asU64 : Json → Option Nat
  | .int n => if 0 ≤ n ∧ n < 2 ^ 64 then some n.toNat else none
  | _ => none

/-- `String::deserialize`. -/
def text : Json → Option String
  | .str s => s
  | _ => none

/-- An integer in `lo ..< hi`, as the fixed-width integers deserialize. -/
def within (lo hi : Int) : Json → Option Int
  | .int n => if lo ≤ n ∧ n < hi then some n else none
  | _ => none

/-- `i32::deserialize`. -/
def i32 : Json → Option Int := within (-2 ^ 31) (2 ^ 31)

/-- `u8::deserialize`. -/
def u8 : Json → Option Nat := fun j => (within 0 (2 ^ 8) j).map Int.toNat

end Json

end ElectricEel.Lib
