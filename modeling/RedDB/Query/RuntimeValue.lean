import RedDB.Types.Decimal
import RedDB.Types.Value

namespace RedDB.Query

open Library RedDB.Types

structure HostOps where
  floatOfInt : Int → BitVec 64
  floatEq : BitVec 64 → BitVec 64 → Bool
  float32Eq : BitVec 32 → BitVec 32 → Bool
  floatText : BitVec 64 → List Char
  /-- Micro degrees with six places after the point. -/
  degreesText : Int → List Char
  ipText : IpAddr → List Char
  ipv6Text : Octets 16 → List Char
  utf8Lossy : List UInt8 → List Char
  deriving Inhabited

section

variable (ip : BitVec 32) (upper : Bool)

def hexByte (b : UInt8) : List Char :=
  let digit (n : Nat) := if upper then (Nat.digitChar n).toUpper else Nat.digitChar n
  [digit (b.toNat / 16), digit (b.toNat % 16)]

def hexText (bytes : List UInt8) : List Char := bytes.flatMap (hexByte upper)

def zeroPadded (width : Nat) (n : Int) : List Char :=
  let sign := if n < 0 then ['-'] else []
  let digits := decimalDigits n.natAbs
  sign ++ List.replicate (width - sign.length - digits.length) '0' ++ digits

def quote : Char := Char.ofNat 39

def natText (n : Nat) : List Char := decimalDigits n

def dottedText : List Char :=
  natText ((ip >>> 24).toNat % 256) ++ '.' :: natText ((ip >>> 16).toNat % 256) ++
    '.' :: natText ((ip >>> 8).toNat % 256) ++ '.' :: natText (ip.toNat % 256)

def leadingOnes (mask : BitVec 32) : Nat := ((List.range 32).takeWhile fun i => mask.getMsbD i).length

/-- `civil_from_days`. -/
def formatCivilDate (days : Int) : List Char :=
  let z := days + 719468
  let era := (if z ≥ 0 then z else z - 146096).tdiv 146097
  let doe := (z - era * 146097).toNat
  let yoe := (doe - doe / 1460 + doe / 36524 - doe / 146096) / 365
  let y : Int := yoe + era * 400
  let doy := doe - (365 * yoe + yoe / 4 - yoe / 100)
  let mp := (5 * doy + 2) / 153
  let d := doy - (153 * mp + 2) / 5 + 1
  let m := if mp < 10 then mp + 3 else mp - 9
  let y := if m ≤ 2 then y + 1 else y
  zeroPadded 4 y ++ '-' :: zeroPadded 2 m ++ '-' :: zeroPadded 2 d

def clockText (secs : Nat) : List Char :=
  zeroPadded 2 (secs / 3600 : Nat) ++ ':' :: zeroPadded 2 (secs / 60 % 60 : Nat) ++
    ':' :: zeroPadded 2 (secs % 60 : Nat)

def timestampMsText (ms : Int) : List Char :=
  let secs := ms.tdiv 1000
  let millis := (ms.tmod 1000).natAbs
  let days := i32 (secs.tdiv 86400)
  let daySecs := (secs.tmod 86400 % 2 ^ 32).toNat
  formatCivilDate days ++ 'T' :: clockText daySecs ++ '.' :: zeroPadded 3 millis ++ ['Z']

/-- The divisor is an `i128`. -/
def formatScaledUnits (value : Int) (scale : Nat) : List Char :=
  if scale = 0 then integerText value
  else
    let divisor := Int.bmod (10 ^ scale) (2 ^ 128)
    let abs : Int := value.natAbs
    (if value < 0 then ['-'] else []) ++ integerText (abs.tdiv divisor) ++ '.' :: zeroPadded scale (abs.tmod divisor)

def semverText (packed : BitVec 32) : List Char :=
  natText (packed.toNat / 1000000) ++ '.' :: natText (packed.toNat / 1000 % 1000) ++
    '.' :: natText (packed.toNat % 1000)

def cidrText (length : Nat) : List Char := dottedText ip ++ '/' :: natText length

def booleanText (b : Bool) : List Char := (if b then "true" else "false").toList

def macText (octets : List UInt8) : List Char := [':'].intercalate (octets.map (hexByte false))

end

section

variable (host : HostOps)

def uuidText (octets : List UInt8) : List Char :=
  let part (start count : Nat) := hexText false ((octets.drop start).take count)
  part 0 4 ++ '-' :: part 4 2 ++ '-' :: part 6 2 ++ '-' :: part 8 2 ++ '-' :: part 10 6

def subnetText (ip mask : BitVec 32) : List Char :=
  let ones := leadingOnes mask
  if (ones < 32 ∧ mask <<< ones = 0) ∨ ones = 32 then cidrText ip ones
  else dottedText ip ++ '/' :: dottedText mask

/-- `Display` of a value that is not an array. -/
def displayScalar : Value → List Char
  | .null => "NULL".toList
  | .integer v => integerText v.toInt
  | .unsignedInteger v => integerText v.toNat
  | .float v => host.floatText v
  | .text s => quote :: s.toList ++ [quote]
  | .blob b => "<blob ".toList ++ natText b.length ++ " bytes>".toList
  | .boolean v => booleanText v
  | .timestamp v => "ts:".toList ++ integerText v.toInt
  | .duration v => integerText v.toInt ++ "ms".toList
  | .ipAddr addr => host.ipText addr
  | .macAddr mac => macText mac.1
  | .vector v => "<vector dim=".toList ++ natText v.length ++ ['>']
  | .json j => "<json ".toList ++ natText j.length ++ " bytes>".toList
  | .uuid u => uuidText u.1
  | .nodeRef id => "node:".toList ++ id.toList
  | .edgeRef id => "edge:".toList ++ id.toList
  | .vectorRef coll id => "vector:".toList ++ coll.toList ++ ':' :: natText id.toNat
  | .rowRef table id => "row:".toList ++ table.toList ++ ':' :: natText id.toNat
  | .color rgb => '#' :: hexText true rgb.1
  | .email s => s.toList
  | .url s => s.toList
  | .phone n => '+' :: natText n.toNat
  | .semver packed => semverText packed
  | .cidr ip length => cidrText ip length.toNat
  | .date days => formatCivilDate days.toInt
  | .time ms => clockText (ms.toNat / 1000)
  | .decimal v => formatScaledUnits v.toInt 4
  | .decimalText v => v.toList
  | .enumValue i => "enum(".toList ++ natText i.toNat ++ [')']
  | .array _ => []
  | .timestampMs ms => timestampMsText ms.toInt
  | .ipv4 ip => dottedText ip
  | .ipv6 octets => host.ipv6Text octets
  | .subnet ip mask => subnetText ip mask
  | .port p => natText p.toNat
  | .latitude micro => host.degreesText micro.toInt
  | .longitude micro => host.degreesText micro.toInt
  | .geoPoint lat lon => host.degreesText lat.toInt ++ ',' :: host.degreesText lon.toInt
  | .country2 c => host.utf8Lossy c.1
  | .country3 c => host.utf8Lossy c.1
  | .lang2 c => host.utf8Lossy c.1
  | .lang5 c => host.utf8Lossy c.1
  | .currency c => host.utf8Lossy c.1
  | .assetCode code => code.toList
  | .money assetCode minorUnits scale =>
    assetCode.toList ++ ' ' :: formatScaledUnits minorUnits.toInt scale.toNat
  | .colorAlpha rgba => '#' :: hexText true rgba.1
  | .bigInt v => integerText v.toInt
  | .keyRef c k => "key_ref:".toList ++ c.toList ++ ':' :: k.toList
  | .docRef c id => "doc_ref:".toList ++ c.toList ++ '#' :: natText id.toNat
  | .tableRef t => "table_ref:".toList ++ t.toList
  | .pageRef p => "page_ref:".toList ++ natText p.toNat
  | .secret _ => "***".toList
  | .password _ => "***".toList

mutual

/-- `Display` of a value. -/
def display : Value → List Char
  | .array elems => '[' :: displayAll elems ++ [']']
  | value => displayScalar host value

def displayAll : List Value → List Char
  | [] => []
  | [elem] => display elem
  | elem :: rest => display elem ++ ", ".toList ++ displayAll rest

end

def runtimeValueText : Value → Option (List Char)
  | .text value => some value.toList
  | .nodeRef value => some value.toList
  | .edgeRef value => some value.toList
  | .rowRef table rowId => some (table.toList ++ ':' :: natText rowId.toNat)
  | .vectorRef collection vectorId => some (collection.toList ++ ':' :: natText vectorId.toNat)
  | .ipAddr value => some (host.ipText value)
  | .macAddr value => some (macText value.1)
  | .uuid value => some (hexText false value.1)
  | .boolean value => some (booleanText value)
  | .integer value => some (integerText value.toInt)
  | .unsignedInteger value => some (integerText value.toNat)
  | .float value => some (host.floatText value)
  | .timestamp value => some (integerText value.toInt)
  | .duration value => some (integerText value.toInt)
  | .null => none
  | .json bytes => (String.fromUTF8? ⟨bytes.toArray⟩).map String.toList
  | .blob _ => none
  | .vector _ => none
  | .color rgb => some ('#' :: hexText true rgb.1)
  | .email s => some s.toList
  | .url s => some s.toList
  | .phone n => some ('+' :: natText n.toNat)
  | .semver packed => some (semverText packed)
  | .cidr ip length => some (cidrText ip length.toNat)
  | .date days => some (integerText days.toInt)
  | .time ms => some (clockText (ms.toNat / 1000))
  | .decimal v => some (formatScaledUnits v.toInt 4)
  | .decimalText v => some v.toList
  | .enumValue i => some ("enum(".toList ++ natText i.toNat ++ [')'])
  | .array _ => none
  | .timestampMs ms => some (integerText ms.toInt)
  | .ipv4 ip => some (dottedText ip)
  | .ipv6 octets => some (host.ipv6Text octets)
  | .subnet ip mask => some (cidrText ip (leadingOnes mask))
  | .port p => some (natText p.toNat)
  | .latitude micro => some (host.degreesText micro.toInt)
  | .longitude micro => some (host.degreesText micro.toInt)
  | .geoPoint lat lon => some (host.degreesText lat.toInt ++ ',' :: host.degreesText lon.toInt)
  | .country2 c => some (host.utf8Lossy c.1)
  | .country3 c => some (host.utf8Lossy c.1)
  | .lang2 c => some (host.utf8Lossy c.1)
  | .lang5 c => some (host.utf8Lossy c.1)
  | .currency c => some (host.utf8Lossy c.1)
  | .assetCode code => some code.toList
  | .money assetCode minorUnits scale =>
    some (assetCode.toList ++ ' ' :: formatScaledUnits minorUnits.toInt scale.toNat)
  | .colorAlpha rgba => some ('#' :: hexText true rgba.1)
  | .bigInt v => some (integerText v.toInt)
  | .keyRef col key => some (col.toList ++ ':' :: key.toList)
  | .docRef col id => some (col.toList ++ '#' :: natText id.toNat)
  | .tableRef name => some name.toList
  | .pageRef pageId => some ("page:".toList ++ natText pageId.toNat)
  | .secret _ => some "***".toList
  | .password _ => some "***".toList

def runtimeValueTextStr : Value → Option (List Char)
  | .text s => some s.toList
  | .nodeRef s => some s.toList
  | .edgeRef s => some s.toList
  | .tableRef s => some s.toList
  | .email s => some s.toList
  | .url s => some s.toList
  | _ => none

def runtimeValueNumber : Value → Option (BitVec 64)
  | .integer value => some (host.floatOfInt value.toInt)
  | .unsignedInteger value => some (host.floatOfInt value.toNat)
  | .bigInt value => some (host.floatOfInt value.toInt)
  | .float value => some value
  | .timestamp value => some (host.floatOfInt value.toInt)
  | .duration value => some (host.floatOfInt value.toInt)
  | _ => none

mutual

def valueEq : Value → Value → Bool
  | .null, .null => true
  | .float a, .float a' => host.floatEq a a'
  | .vector a, .vector a' => a.length == a'.length && (a.zip a').all fun (x, y) => host.float32Eq x y
  | .array a, .array a' => valueEqAll a a'
  | .integer a, .integer a' => a == a'
  | .unsignedInteger a, .unsignedInteger a' => a == a'
  | .text a, .text a' => a == a'
  | .blob a, .blob a' => a == a'
  | .boolean a, .boolean a' => a == a'
  | .timestamp a, .timestamp a' => a == a'
  | .duration a, .duration a' => a == a'
  | .ipAddr a, .ipAddr a' => a == a'
  | .macAddr a, .macAddr a' => a == a'
  | .json a, .json a' => a == a'
  | .uuid a, .uuid a' => a == a'
  | .nodeRef a, .nodeRef a' => a == a'
  | .edgeRef a, .edgeRef a' => a == a'
  | .vectorRef a b, .vectorRef a' b' => a == a' && b == b'
  | .rowRef a b, .rowRef a' b' => a == a' && b == b'
  | .color a, .color a' => a == a'
  | .email a, .email a' => a == a'
  | .url a, .url a' => a == a'
  | .phone a, .phone a' => a == a'
  | .semver a, .semver a' => a == a'
  | .cidr a b, .cidr a' b' => a == a' && b == b'
  | .date a, .date a' => a == a'
  | .time a, .time a' => a == a'
  | .decimal a, .decimal a' => a == a'
  | .decimalText a, .decimalText a' => a == a'
  | .enumValue a, .enumValue a' => a == a'
  | .timestampMs a, .timestampMs a' => a == a'
  | .ipv4 a, .ipv4 a' => a == a'
  | .ipv6 a, .ipv6 a' => a == a'
  | .subnet a b, .subnet a' b' => a == a' && b == b'
  | .port a, .port a' => a == a'
  | .latitude a, .latitude a' => a == a'
  | .longitude a, .longitude a' => a == a'
  | .geoPoint a b, .geoPoint a' b' => a == a' && b == b'
  | .country2 a, .country2 a' => a == a'
  | .country3 a, .country3 a' => a == a'
  | .lang2 a, .lang2 a' => a == a'
  | .lang5 a, .lang5 a' => a == a'
  | .currency a, .currency a' => a == a'
  | .assetCode a, .assetCode a' => a == a'
  | .money a b c, .money a' b' c' => a == a' && b == b' && c == c'
  | .colorAlpha a, .colorAlpha a' => a == a'
  | .bigInt a, .bigInt a' => a == a'
  | .keyRef a b, .keyRef a' b' => a == a' && b == b'
  | .docRef a b, .docRef a' b' => a == a' && b == b'
  | .tableRef a, .tableRef a' => a == a'
  | .pageRef a, .pageRef a' => a == a'
  | .secret a, .secret a' => a == a'
  | .password a, .password a' => a == a'
  | _, _ => false

def valueEqAll : List Value → List Value → Bool
  | [], [] => true
  | a :: rest, b :: other => valueEq a b && valueEqAll rest other
  | _, _ => false

end

def signedValue : Value → Option Int
  | .integer v => some v.toInt
  | .bigInt v => some v.toInt
  | _ => none

def unsignedValue : Value → Option Nat
  | .unsignedInteger v => some v.toNat
  | _ => none

def runtimeExactIntegerCmp (left right : Value) : Option Ordering :=
  match signedValue left, unsignedValue left, signedValue right, unsignedValue right with
  | some left, _, some right, _ => some (compare left right)
  | _, some left, _, some right => some (compare left right)
  | some left, _, _, some right => some (if left < 0 then .lt else compare left.toNat right)
  | _, some left, some right, _ => some (if right < 0 then .gt else compare left right.toNat)
  | _, _, _, _ => none

def runtimeValuesEqual (left right : Value) : Bool :=
  match runtimeExactIntegerCmp left right with
  | some ordering => ordering == .eq
  | none =>
    match runtimeValueNumber host left, runtimeValueNumber host right with
    | some l, some r => host.floatEq l r
    | _, _ =>
      match runtimeValueTextStr left, runtimeValueTextStr right with
      | some l, some r => l == r
      | _, _ =>
        match runtimeValueText host left, runtimeValueText host right with
        | some l, some r => l == r
        | _, _ => valueEq host left right

end

end RedDB.Query
