import RedDB.Types.Decimal
import RedDB.Types.Value

namespace RedDB.Types

open Library

/-- The operations of `f64` on its bit patterns. -/
structure FloatOps where
  partialCmp : BitVec 64 → BitVec 64 → Option Ordering
  ofInt : Int → BitVec 64
  isFinite : BitVec 64 → Bool
  text : BitVec 64 → List Char
  deriving Inhabited

section

variable (f64 : FloatOps)

def numericValueText : Value → Option (List Char)
  | .integer n => some (integerText n.toInt)
  | .unsignedInteger n => some (integerText n.toNat)
  | .float x => if f64.isFinite x then some (f64.text x) else none
  | .decimal n => some (formatScaledI64 n.toInt 4)
  | .decimalText n => some n.toList
  | _ => none

def partialCompareValues (a b : Value) : Option Ordering :=
  match a, b with
  | .null, .null => some .eq
  | .integer a, .integer b => some (compare a.toInt b.toInt)
  | .unsignedInteger a, .unsignedInteger b => some (compare a.toNat b.toNat)
  | .float a, .float b => f64.partialCmp a b
  | .decimal a, .decimal b => some (compare a.toInt b.toInt)
  | .decimalText a, .decimalText b => compareDecimalText a.toList b.toList
  | .text a, .text b => some (compareBytes (asBytes a) (asBytes b))
  | .boolean a, .boolean b => some (compare a b)
  | .timestamp a, .timestamp b => some (compare a.toInt b.toInt)
  | .duration a, .duration b => some (compare a.toInt b.toInt)
  | .blob a, .blob b => some (compareBytes a b)
  | .uuid a, .uuid b => some (compareBytes a.1 b.1)
  | .integer a, .float b => f64.partialCmp (f64.ofInt a.toInt) b
  | .float a, .integer b => f64.partialCmp a (f64.ofInt b.toInt)
  | .unsignedInteger a, .float b => f64.partialCmp (f64.ofInt a.toNat) b
  | .float a, .unsignedInteger b => f64.partialCmp a (f64.ofInt b.toNat)
  | .integer a, .unsignedInteger b => some (compare a.toInt (b.toNat : Int))
  | .unsignedInteger a, .integer b => some (compare (a.toNat : Int) b.toInt)
  | .decimal a, other => do compareDecimalText (formatScaledI64 a.toInt 4) (← numericValueText f64 other)
  | other, .decimal b => do compareDecimalText (← numericValueText f64 other) (formatScaledI64 b.toInt 4)
  | .decimalText a, other => do compareDecimalText a.toList (← numericValueText f64 other)
  | other, .decimalText b => do compareDecimalText (← numericValueText f64 other) b.toList
  | _, _ => none

def totalCompareValues (a b : Value) : Ordering := (partialCompareValues f64 a b).getD (compare a.typeTag b.typeTag)

end

inductive Direction
  | asc
  | desc
  deriving DecidableEq

inductive NullsOrder
  | first
  | last
  deriving DecidableEq

structure SortKey where
  column : String
  direction : Direction
  nulls : NullsOrder
  deriving DecidableEq

namespace SortKey

def compare (f64 : FloatOps) (key : SortKey) (a b : Value) : Ordering :=
  match a, b with
  | .null, .null => .eq
  | .null, _ =>
    match key.nulls with
    | .first => .lt
    | .last => .gt
  | _, .null =>
    match key.nulls with
    | .first => .gt
    | .last => .lt
  | a, b =>
    match key.direction with
    | .asc => totalCompareValues f64 a b
    | .desc => (totalCompareValues f64 a b).swap

end SortKey

end RedDB.Types
