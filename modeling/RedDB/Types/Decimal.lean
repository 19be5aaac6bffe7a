import RedDB.Library.Digits

namespace RedDB.Types

open Library List

section

/-- `char::is_whitespace`. -/
def isWhitespace (c : Char) : Bool :=
  let n := c.toNat
  decide (9 ≤ n ∧ n ≤ 13) || n == 0x20 || n == 0x85 || n == 0xa0 || n == 0x1680 ||
    decide (0x2000 ≤ n ∧ n ≤ 0x200a) || n == 0x2028 || n == 0x2029 || n == 0x202f || n == 0x205f || n == 0x3000

variable (s : List Char) (n : Int)

def trim : List Char := ((s.dropWhile isWhitespace).reverse.dropWhile isWhitespace).reverse

/-- Arithmetic of `i32` in a release build. -/
def i32 (n : Int) : Int := n.bmod (2 ^ 32)

/-- A cast from `i32` to `usize`. -/
def usizeOfI32 : Nat := (n % 2 ^ 64).toNat

/-- `str::parse::<i32>`. -/
def parseI32 : Option Int :=
  let (negative, ds) :=
    match s with
    | '-' :: rest => (true, rest)
    | '+' :: rest => (false, rest)
    | _ => (false, s)
  if ds = [] ∨ ¬ AllDigits ds then none
  else
    let n : Int := if negative then -(digitsValue ds : Int) else digitsValue ds
    if -2 ^ 31 ≤ n ∧ n < 2 ^ 31 then some n else none

/-- `to_string` of an integer. -/
def integerText : List Char := (if n < 0 then ['-'] else []) ++ decimalDigits n.natAbs

def formatScaledI64 (value : Int) (scale : Nat) : List Char :=
  let sign := if value < 0 then ['-'] else []
  let factor := 10 ^ scale
  let whole := decimalDigits (value.natAbs / factor)
  let frac := decimalDigits (value.natAbs % factor)
  sign ++ whole ++ '.' :: (replicate (scale - frac.length) '0' ++ frac)

end

def splitExponent (input : List Char) : Option (List Char × Int) :=
  match input.span (fun c => c ≠ 'e' ∧ c ≠ 'E') with
  | (_, []) => some (input, 0)
  | (base, _ :: rest) => (parseI32 rest).map fun exponent => (base, exponent)

def splitDecimalBase (input : List Char) : Option (List Char × List Char) :=
  match input.span (· ≠ '.') with
  | (_, []) => some (input, [])
  | (whole, _ :: fraction) => if '.' ∈ fraction then none else some (whole, fraction)

def dropLeadingZeros : List Char → List Char
  | '0' :: c :: rest => dropLeadingZeros (c :: rest)
  | ds => ds

def dropTrailingZeros : List Char → Int → List Char × Int
  | '0' :: c :: rest, scale => if 0 < scale then dropTrailingZeros (c :: rest) (scale - 1) else ('0' :: c :: rest, scale)
  | ds, scale => (ds, scale)

def trimDecimal (digits : List Char) (scale : Int) : List Char × Int :=
  let (reversed, scale) := dropTrailingZeros (dropLeadingZeros digits).reverse scale
  let digits := reversed.reverse
  let (digits, scale) := if digits = [] ∨ (digits.all (· = '0')) then (['0'], 0) else (digits, scale)
  if scale < 0 then (digits ++ replicate (usizeOfI32 (i32 (-scale))) '0', 0) else (digits, scale)

structure ParsedDecimal where
  negative : Bool
  digits : List Char
  scale : Int
  deriving DecidableEq

namespace ParsedDecimal

def splitSign : List Char → Bool × List Char
  | '-' :: rest => (true, rest)
  | '+' :: rest => (false, rest)
  | s => (false, s)

def ofParts (negative : Bool) (whole fraction : List Char) (exponent : Int) : ParsedDecimal :=
  let (digits, scale) := trimDecimal (whole ++ fraction) (i32 (i32 fraction.length - exponent))
  ⟨negative && digits ≠ ['0'], digits, scale⟩

def parse (input : List Char) : Option ParsedDecimal := do
  let (negative, s) := splitSign (trim input)
  let (base, exponent) ← splitExponent s
  let (whole, fraction) ← splitDecimalBase base
  if whole = [] ∧ fraction = [] then none
  else if ¬ AllDigits whole ∨ ¬ AllDigits fraction then none
  else some (ofParts negative whole fraction exponent)

def padded (d : ParsedDecimal) (scale : Nat) : List Char :=
  d.digits ++ replicate (scale - usizeOfI32 (max d.scale 0)) '0'

variable (d other : ParsedDecimal)

def cmpAbs : Ordering :=
  let leftInt := i32 (i32 d.digits.length - d.scale)
  let rightInt := i32 (i32 other.digits.length - other.scale)
  let scale := usizeOfI32 (max (max d.scale other.scale) 0)
  (compare leftInt rightInt).then (compareChars (d.padded scale) (other.padded scale))

def cmp : Ordering :=
  match d.negative, other.negative with
  | true, false => .lt
  | false, true => .gt
  | true, true => other.cmpAbs d
  | false, false => d.cmpAbs other

end ParsedDecimal

def compareDecimalText (left right : List Char) : Option Ordering := do
  let left ← ParsedDecimal.parse left
  let right ← ParsedDecimal.parse right
  some (left.cmp right)

end RedDB.Types
