import RedDB.Library.LittleEndian
import RedDB.Types.Value

namespace RedDB.Types.DocumentBody

open Library

inductive DocBodyError
  | truncatedData
  | badMagic
  | unsupportedVersion (version : UInt8)
  | supersededVersion (version : UInt8)
  | offsetOutOfBounds
  | invalidFieldName
  | valueCodecError (error : String)
  deriving DecidableEq

def magic : List UInt8 := [0x52, 0x44, 0x4f, 0x43]

def version : UInt8 := 0x03

def entrySize : Nat := 6

def versionError (v : UInt8) : DocBodyError :=
  if v = 0x01 ∨ v = 0x02 then .supersededVersion v else .unsupportedVersion v

/-- The key length and the offset of the value of each of `n` fields. -/
def tableEntries : Nat → List UInt8 → List (Nat × Nat)
  | 0, _ => []
  | n + 1, bytes =>
    (fromLeBytes (bytes.take 2), fromLeBytes ((bytes.drop 2).take 4)) :: tableEntries n (bytes.drop entrySize)

def parseHeaderEntries (data : List UInt8) : Except DocBodyError (Nat × List (Nat × Nat)) :=
  if data.length < 7 then .error .truncatedData
  else if data.take 4 ≠ magic then .error .badMagic
  else
    let found := data.getD 4 0
    if found ≠ version then .error (versionError found)
    else
      let n := fromLeBytes ((data.drop 5).take 2)
      if data.length < 7 + n * entrySize then .error .truncatedData
      else .ok (n, tableEntries n (data.drop 7))

/-- `std::str::from_utf8`. -/
def fromUtf8 (bytes : List UInt8) : Option String := String.fromUTF8? ⟨bytes.toArray⟩

def namesFrom (data : List UInt8) : Nat → List (Nat × Nat) → Except DocBodyError (List String)
  | _, [] => .ok []
  | keyCursor, (keyLen, _) :: table =>
    let keyEnd := keyCursor + keyLen
    if keyEnd > data.length then .error .offsetOutOfBounds
    else
      match fromUtf8 ((data.drop keyCursor).take keyLen) with
      | none => .error .invalidFieldName
      | some key => (namesFrom data keyEnd table).map (key :: ·)

def fieldNames (data : List UInt8) : Except DocBodyError (List String) := do
  let (n, table) ← parseHeaderEntries data
  namesFrom data (7 + n * entrySize) table

section

variable (decode : List UInt8 → Except String (Value × Nat))

variable (bytes : List UInt8) (data : List UInt8)

def decodeValueAtOffset (valOffset : Nat) : Except DocBodyError Value :=
  if valOffset ≥ data.length then .error .offsetOutOfBounds
  else
    match decode (data.drop valOffset) with
    | .error e => .error (.valueCodecError e)
    | .ok (value, _) => .ok value

def readFrom (data : List UInt8) (name : String) : Nat → List (Nat × Nat) → Except DocBodyError (Option Value)
  | _, [] => .ok none
  | keyCursor, (keyLen, valOffset) :: table =>
    let keyEnd := keyCursor + keyLen
    if keyEnd > data.length then .error .offsetOutOfBounds
    else if (data.drop keyCursor).take keyLen = asBytes name then
      (decodeValueAtOffset decode data valOffset).map some
    else readFrom data name keyEnd table

def readFieldByName (name : String) : Except DocBodyError (Option Value) := do
  let (n, table) ← parseHeaderEntries data
  readFrom decode data name (7 + n * entrySize) table

def isBinaryContainer : Bool := magic.isPrefixOf bytes

/-- `document_body::read_body_field`. -/
def readBodyField (name : String) : Option Value :=
  if isBinaryContainer bytes then
    match readFieldByName decode bytes name with
    | .ok found => found
    | .error _ => none
  else none

end

theorem fromUtf8_asBytes {name key : String} (read : fromUtf8 (asBytes name) = some key) : key = name := by
  have bytes : asBytes name = asBytes key := by
    unfold fromUtf8 String.fromUTF8? at read
    split at read
    · rw [← Option.some.inj read]
      rfl
    · simp at read
  exact (asBytes_injective bytes).symm

variable {decode : List UInt8 → Except String (Value × Nat)} {data : List UInt8} {name : String} {value : Value}

theorem mem_namesFrom {keyCursor : Nat} {table : List (Nat × Nat)} {names : List String}
    (listed : namesFrom data keyCursor table = .ok names)
    (read : readFrom decode data name keyCursor table = .ok (some value)) : name ∈ names := by
  induction table generalizing keyCursor names with
  | nil => simp [readFrom] at read
  | cons entry table ih =>
    obtain ⟨keyLen, valOffset⟩ := entry
    simp only [namesFrom, readFrom] at listed read
    by_cases outside : keyCursor + keyLen > data.length
    · simp [if_pos outside] at read
    · rw [if_neg outside] at listed read
      cases decoded : fromUtf8 ((data.drop keyCursor).take keyLen) with
      | none => simp [decoded] at listed
      | some key =>
        rw [decoded] at listed
        cases later : namesFrom data (keyCursor + keyLen) table with
        | error e => simp [later, Except.map] at listed
        | ok rest =>
          simp only [later, Except.map, Except.ok.injEq] at listed
          subst listed
          split at read
          case isTrue same =>
            rw [same] at decoded
            exact List.mem_cons.mpr (.inl (fromUtf8_asBytes decoded).symm)
          case isFalse => exact List.mem_cons_of_mem _ (ih later read)

theorem mem_fieldNames {names : List String} (listed : fieldNames data = .ok names)
    (read : readBodyField decode data name = some value) : name ∈ names := by
  have found : readFieldByName decode data name = .ok (some value) := by
    unfold readBodyField at read
    split at read
    · split at read
      case h_1 found answer => rw [answer, read]
      case h_2 => simp at read
    · simp at read
  unfold fieldNames at listed
  unfold readFieldByName at found
  cases header : parseHeaderEntries data with
  | error e => simp [header, bind, Except.bind] at found
  | ok parsed =>
    simp only [header, bind, Except.bind] at listed found
    exact mem_namesFrom listed found

end RedDB.Types.DocumentBody
