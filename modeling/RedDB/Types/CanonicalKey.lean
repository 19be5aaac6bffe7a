import RedDB.Library.OrderCode
import RedDB.Types.Value

namespace RedDB.Types

open Library

inductive CanonicalKeyFamily
  | null | boolean | integer | bigInt | unsignedInteger | float | text | blob | timestamp | duration
  | ipAddr | macAddr | json | uuid | nodeRef | edgeRef | vectorRef | rowRef | color | email | url
  | phone | semver | cidr | date | time | decimal | enumValue | timestampMs | ipv4 | ipv6 | subnet
  | port | latitude | longitude | geoPoint | country2 | country3 | lang2 | lang5 | currency
  | colorAlpha | keyRef | docRef | tableRef | pageRef | password
  deriving DecidableEq

def CanonicalKeyFamily.cmp (family other : CanonicalKeyFamily) : Ordering := compare family.ctorIdx other.ctorIdx

inductive CanonicalKey
  | null
  | boolean (b : Bool)
  | signed (family : CanonicalKeyFamily) (v : BitVec 64)
  | unsigned (family : CanonicalKeyFamily) (v : BitVec 64)
  | float (bits : BitVec 64)
  | text (family : CanonicalKeyFamily) (s : String)
  | bytes (family : CanonicalKeyFamily) (bytes : List UInt8)
  | pairTextU64 (family : CanonicalKeyFamily) (s : String) (n : BitVec 64)
  | pairTextText (family : CanonicalKeyFamily) (first second : String)
  | pairU32U8 (family : CanonicalKeyFamily) (first : BitVec 32) (second : BitVec 8)
  | pairU32U32 (family : CanonicalKeyFamily) (first second : BitVec 32)
  | pairI32I32 (family : CanonicalKeyFamily) (first second : BitVec 32)
  deriving DecidableEq

section

def cmpSigned {w : Nat} (a b : BitVec w) : Ordering := compare a.toInt b.toInt

def cmpUnsigned {w : Nat} (a b : BitVec w) : Ordering := compare a.toNat b.toNat

def cmpText (s t : String) : Ordering := compareBytes (asBytes s) (asBytes t)

/-- The bits of a float as a signed number in `f64::total_cmp`. -/
def totalOrderBits (bits : BitVec 64) : BitVec 64 := bits ^^^ (bits.sshiftRight 63 >>> 1)

def totalCmp (a b : BitVec 64) : Ordering := cmpSigned (totalOrderBits a) (totalOrderBits b)

/-- `f64::is_finite`. -/
def isFinite (bits : BitVec 64) : Bool := (bits >>> 52) &&& 0x7ff != 0x7ff

end

namespace CanonicalKey

def family : CanonicalKey → CanonicalKeyFamily
  | null => .null
  | boolean _ => .boolean
  | signed family _ => family
  | unsigned family _ => family
  | float _ => .float
  | text family _ => family
  | bytes family _ => family
  | pairTextU64 family _ _ => family
  | pairTextText family _ _ => family
  | pairU32U8 family _ _ => family
  | pairU32U32 family _ _ => family
  | pairI32I32 family _ _ => family

def cmpPayload : CanonicalKey → CanonicalKey → Ordering
  | null, null => .eq
  | boolean left, boolean right => compare left right
  | signed _ left, signed _ right => cmpSigned left right
  | unsigned _ left, unsigned _ right => cmpUnsigned left right
  | float left, float right => totalCmp left right
  | text _ left, text _ right => cmpText left right
  | bytes _ left, bytes _ right => compareBytes left right
  | pairTextU64 _ lText lNum, pairTextU64 _ rText rNum =>
    (cmpText lText rText).then (cmpUnsigned lNum rNum)
  | pairTextText _ l1 l2, pairTextText _ r1 r2 => (cmpText l1 r1).then (cmpText l2 r2)
  | pairU32U8 _ l1 l2, pairU32U8 _ r1 r2 => (cmpUnsigned l1 r1).then (cmpUnsigned l2 r2)
  | pairU32U32 _ l1 l2, pairU32U32 _ r1 r2 => (cmpUnsigned l1 r1).then (cmpUnsigned l2 r2)
  | pairI32I32 _ l1 l2, pairI32I32 _ r1 r2 => (cmpSigned l1 r1).then (cmpSigned l2 r2)
  | _, _ => .eq

def cmp (key other : CanonicalKey) : Ordering := (key.family.cmp other.family).then (key.cmpPayload other)

end CanonicalKey

def ipaddrToBytes : IpAddr → List UInt8
  | .v4 octets => [0, 0, 0, 0, 0, 0, 0, 0, 0, 0, 255, 255] ++ octets.1
  | .v6 octets => octets.1

def widen {w : Nat} (v : BitVec w) : BitVec 64 := v.setWidth 64

def valueToCanonicalKey : Value → Option CanonicalKey
  | .null => some .null
  | .integer v => some (.signed .integer v)
  | .unsignedInteger v => some (.unsigned .unsignedInteger v)
  | .float bits => if isFinite bits then some (.float bits) else none
  | .text s => some (.text .text s)
  | .blob bytes => some (.bytes .blob bytes)
  | .boolean b => some (.boolean b)
  | .timestamp v => some (.signed .timestamp v)
  | .duration v => some (.signed .duration v)
  | .ipAddr addr => some (.bytes .ipAddr (ipaddrToBytes addr))
  | .macAddr octets => some (.bytes .macAddr octets.1)
  | .vector _ => none
  | .json bytes => some (.bytes .json bytes)
  | .uuid octets => some (.bytes .uuid octets.1)
  | .nodeRef id => some (.text .nodeRef id)
  | .edgeRef id => some (.text .edgeRef id)
  | .vectorRef collection id => some (.pairTextU64 .vectorRef collection id)
  | .rowRef table id => some (.pairTextU64 .rowRef table id)
  | .color rgb => some (.bytes .color rgb.1)
  | .email s => some (.text .email s)
  | .url s => some (.text .url s)
  | .phone digits => some (.unsigned .phone digits)
  | .semver packed => some (.unsigned .semver (widen packed))
  | .cidr ip prefixLen => some (.pairU32U8 .cidr ip prefixLen)
  | .date days => some (.signed .date (days.signExtend 64))
  | .time millis => some (.unsigned .time (widen millis))
  | .decimal scaled => some (.signed .decimal scaled)
  | .decimalText _ => none
  | .enumValue index => some (.unsigned .enumValue (widen index))
  | .array _ => none
  | .timestampMs millis => some (.signed .timestampMs millis)
  | .ipv4 ip => some (.bytes .ipv4 (toBeBytes 4 ip.toNat))
  | .ipv6 octets => some (.bytes .ipv6 octets.1)
  | .subnet ip mask => some (.pairU32U32 .subnet ip mask)
  | .port p => some (.unsigned .port (widen p))
  | .latitude micro => some (.signed .latitude (micro.signExtend 64))
  | .longitude micro => some (.signed .longitude (micro.signExtend 64))
  | .geoPoint lat lon => some (.pairI32I32 .geoPoint lat lon)
  | .country2 code => some (.bytes .country2 code.1)
  | .country3 code => some (.bytes .country3 code.1)
  | .lang2 code => some (.bytes .lang2 code.1)
  | .lang5 code => some (.bytes .lang5 code.1)
  | .currency code => some (.bytes .currency code.1)
  | .assetCode code => some (.text .text code)
  | .money _ _ _ => none
  | .colorAlpha rgba => some (.bytes .colorAlpha rgba.1)
  | .bigInt v => some (.signed .bigInt v)
  | .keyRef collection key => some (.pairTextText .keyRef collection key)
  | .docRef collection id => some (.pairTextU64 .docRef collection id)
  | .tableRef name => some (.text .tableRef name)
  | .pageRef pageId => some (.unsigned .pageRef (widen pageId))
  | .secret _ => none
  | .password hash => some (.text .password hash)

end RedDB.Types
