import Mathlib

namespace RedDB.Types

/-- An array of `n` bytes. -/
abbrev Octets (n : Nat) := { bytes : List UInt8 // bytes.length = n }

inductive IpAddr
  | v4 (octets : Octets 4)
  | v6 (octets : Octets 16)
  deriving DecidableEq

/-- The values of a column. A machine integer is its bits, signed types are read by `BitVec.toInt`,
    and a float is its bit pattern. -/
inductive Value
  | null
  | integer (v : BitVec 64)
  | unsignedInteger (v : BitVec 64)
  | float (bits : BitVec 64)
  | text (s : String)
  | blob (bytes : List UInt8)
  | boolean (b : Bool)
  | timestamp (seconds : BitVec 64)
  | duration (millis : BitVec 64)
  | ipAddr (addr : IpAddr)
  | macAddr (octets : Octets 6)
  | vector (components : List (BitVec 32))
  | json (bytes : List UInt8)
  | uuid (octets : Octets 16)
  | nodeRef (id : String)
  | edgeRef (id : String)
  | vectorRef (collection : String) (id : BitVec 64)
  | rowRef (table : String) (id : BitVec 64)
  | color (rgb : Octets 3)
  | email (s : String)
  | url (s : String)
  | phone (digits : BitVec 64)
  | semver (packed : BitVec 32)
  | cidr (ip : BitVec 32) (prefixLen : BitVec 8)
  | date (days : BitVec 32)
  | time (millis : BitVec 32)
  | decimal (scaled : BitVec 64)
  | decimalText (literal : String)
  | enumValue (index : BitVec 8)
  | array (elements : List Value)
  | timestampMs (millis : BitVec 64)
  | ipv4 (ip : BitVec 32)
  | ipv6 (octets : Octets 16)
  | subnet (ip mask : BitVec 32)
  | port (p : BitVec 16)
  | latitude (micro : BitVec 32)
  | longitude (micro : BitVec 32)
  | geoPoint (lat lon : BitVec 32)
  | country2 (code : Octets 2)
  | country3 (code : Octets 3)
  | lang2 (code : Octets 2)
  | lang5 (code : Octets 5)
  | currency (code : Octets 3)
  | assetCode (code : String)
  | money (assetCode : String) (minorUnits : BitVec 64) (scale : BitVec 8)
  | colorAlpha (rgba : Octets 4)
  | bigInt (v : BitVec 64)
  | keyRef (collection key : String)
  | docRef (collection : String) (id : BitVec 64)
  | tableRef (name : String)
  | pageRef (pageId : BitVec 32)
  | secret (sealed_ : List UInt8)
  | password (hash : String)

namespace Value

def typeTag : Value → Nat
  | null => 0
  | integer _ => 1
  | unsignedInteger _ => 2
  | float _ => 3
  | text _ => 4
  | blob _ => 5
  | boolean _ => 6
  | timestamp _ => 7
  | duration _ => 8
  | ipAddr _ => 9
  | macAddr _ => 10
  | vector _ => 11
  | json _ => 13
  | uuid _ => 14
  | nodeRef _ => 15
  | edgeRef _ => 16
  | vectorRef _ _ => 17
  | rowRef _ _ => 18
  | color _ => 19
  | email _ => 20
  | url _ => 21
  | phone _ => 22
  | semver _ => 23
  | cidr _ _ => 24
  | date _ => 25
  | time _ => 26
  | decimal _ => 27
  | enumValue _ => 28
  | array _ => 29
  | timestampMs _ => 30
  | ipv4 _ => 31
  | ipv6 _ => 32
  | subnet _ _ => 33
  | port _ => 34
  | latitude _ => 35
  | longitude _ => 36
  | geoPoint _ _ => 37
  | country2 _ => 38
  | country3 _ => 39
  | lang2 _ => 40
  | lang5 _ => 41
  | currency _ => 42
  | colorAlpha _ => 43
  | bigInt _ => 44
  | keyRef _ _ => 45
  | docRef _ _ => 46
  | tableRef _ => 47
  | pageRef _ => 48
  | secret _ => 49
  | password _ => 50
  | assetCode _ => 53
  | money _ _ _ => 54
  | decimalText _ => 55

end Value

def isSecret : Value → Bool
  | .secret _ => true
  | _ => false

def asBytes (s : String) : List UInt8 := s.toUTF8.data.toList

theorem asBytes_injective : Function.Injective asBytes := by
  intro s t same
  have arrays : s.toUTF8.data = t.toUTF8.data := Array.toList_inj.mp same
  exact String.toByteArray_inj.mp (ByteArray.ext arrays)

end RedDB.Types
