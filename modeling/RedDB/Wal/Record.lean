import RedDB.Library.ByteReader

namespace RedDB.Wal

open Library Library.ByteReader Program UInt32

abbrev Bytes := List UInt8

inductive IoError
  | unexpectedEof
  | invalidData (message : String)
  | invalidInput (message : String)
  | other (message : String)
  deriving DecidableEq, Repr

/-- What the format takes from other crates: the checksum, the page compressor and the text of an
UTF-8 error. -/
structure External where
  crc32 : Bytes → UInt32
  zstdCompress : Bytes → Option Bytes
  zstdDecompress : Bytes → Nat → Except String Bytes
  utf8Error : Bytes → String

/-- The reflected CRC-32 of polynomial `0xEDB88320`. -/
def crc32Ieee (bytes : Bytes) : UInt32 :=
  let shift (crc : UInt32) : UInt32 := if crc &&& 1 = 1 then (crc >>> 1) ^^^ 0xEDB88320 else crc >>> 1
  let byte (crc : UInt32) (b : UInt8) : UInt32 := Nat.iterate shift 8 (crc ^^^ b.toUInt32)
  bytes.foldl byte 0xFFFFFFFF ^^^ 0xFFFFFFFF

def External.uncompressed : External where
  crc32 := crc32Ieee
  zstdCompress _ := none
  zstdDecompress _ _ := .error "unknown frame"
  utf8Error _ := "invalid utf-8 sequence"

def walFileVersion : UInt8 := 3

def walFileVersionV2 : UInt8 := 2

namespace OwnershipJournal

def magic : Bytes := [0x52, 0x44, 0x4F, 0x4A]

def version : UInt8 := 1

def recordSize : Nat := 32

end OwnershipJournal

inductive PageOwnershipRecord
  | begin (epoch : UInt64)
  | reserve (epoch : UInt64) (pageId : UInt32)
  | retire (epoch : UInt64) (pageId : UInt32)
  | detachFree (epoch : UInt64) (pageId : UInt32)
  | finish (epoch : UInt64)
  deriving DecidableEq, Repr

def PageOwnershipRecord.fields : PageOwnershipRecord → UInt8 × UInt64 × UInt32
  | .begin epoch => (1, epoch, 0)
  | .reserve epoch pageId => (2, epoch, pageId)
  | .retire epoch pageId => (3, epoch, pageId)
  | .finish epoch => (4, epoch, 0)
  | .detachFree epoch pageId => (5, epoch, pageId)

def PageOwnershipRecord.ofFields (kind : UInt8) (epoch : UInt64) (pageId : UInt32) :
    Option PageOwnershipRecord :=
  match kind, decide (pageId = 0) with
  | 1, true => some (.begin epoch)
  | 2, false => some (.reserve epoch pageId)
  | 3, false => some (.retire epoch pageId)
  | 4, true => some (.finish epoch)
  | 5, false => some (.detachFree epoch pageId)
  | _, _ => none

namespace OwnershipJournal

def encode (ext : External) (record : PageOwnershipRecord) : Except IoError Bytes :=
  let (kind, epoch, pageId) := record.fields
  if epoch = 0 ∨ ((kind = 2 ∨ kind = 3 ∨ kind = 5) ∧ pageId = 0) then
    .error (.invalidInput "invalid ownership record")
  else
    let bytes := magic ++ [version, kind, 0, 0] ++ toLeBytes 8 epoch.toNat ++
      toLeBytes 4 pageId.toNat ++ List.replicate 8 0
    .ok (bytes ++ toLeBytes 4 (ext.crc32 bytes).toNat)

def decode (ext : External) (bytes : Bytes) : Except IoError PageOwnershipRecord :=
  let invalid := IoError.invalidData "invalid ownership record"
  if bytes.length ≠ recordSize then .error (.invalidData "incomplete ownership record")
  else if bytes.take 4 ≠ magic ∨ bytes.getD 4 0 ≠ version ∨ (bytes.drop 6).take 2 ≠ [0, 0] ∨
      (bytes.drop 20).take 8 ≠ List.replicate 8 0 then .error invalid
  else if (ext.crc32 (bytes.take 28)).toNat ≠ fromLeBytes (bytes.drop 28) then .error invalid
  else
    let epoch := UInt64.ofNat (fromLeBytes ((bytes.drop 8).take 8))
    let pageId := ofNat (fromLeBytes ((bytes.drop 16).take 4))
    if epoch = 0 then .error invalid
    else
      match PageOwnershipRecord.ofFields (bytes.getD 5 0) epoch pageId with
      | some record => .ok record
      | none => .error invalid

end OwnershipJournal

inductive MainWalRecordType
  | begin
  | commit
  | rollback
  | pageWrite
  | checkpoint
  | pageWriteCompressed
  | txCommitBatch
  | fullPageImage
  | vectorInsert
  | probabilisticDelta
  | pageOwnership
  deriving DecidableEq, Repr

def MainWalRecordType.asU8 : MainWalRecordType → UInt8
  | .begin => 1
  | .commit => 2
  | .rollback => 3
  | .pageWrite => 4
  | .checkpoint => 5
  | .pageWriteCompressed => 6
  | .txCommitBatch => 7
  | .fullPageImage => 8
  | .vectorInsert => 9
  | .probabilisticDelta => 10
  | .pageOwnership => 11

def MainWalRecordType.fromU8 (value : UInt8) : Option MainWalRecordType :=
  match value with
  | 1 => some .begin
  | 2 => some .commit
  | 3 => some .rollback
  | 4 => some .pageWrite
  | 5 => some .checkpoint
  | 6 => some .pageWriteCompressed
  | 7 => some .txCommitBatch
  | 8 => some .fullPageImage
  | 9 => some .vectorInsert
  | 10 => some .probabilisticDelta
  | 11 => some .pageOwnership
  | _ => none

inductive MainWalCompression
  | none
  | zstd
  deriving DecidableEq, Repr

def MainWalCompression.asU8 : MainWalCompression → UInt8
  | .none => 0
  | .zstd => 1

def MainWalCompression.fromU8 (value : UInt8) : Option MainWalCompression :=
  match value with
  | 0 => some .none
  | 1 => some .zstd
  | _ => Option.none

/-- The elements of a vector are `f32` values by their bits. -/
inductive MainWalRecordFrame
  | pageOwnership (record : PageOwnershipRecord)
  | begin (txId : UInt64)
  | commit (txId : UInt64)
  | rollback (txId : UInt64)
  | pageWrite (txId : UInt64) (pageId : UInt32) (data : Bytes)
  | txCommitBatch (txId : UInt64) (actions : List Bytes)
  | fullPageImage (txId : UInt64) (pageId : UInt32) (ckptEpoch : UInt64) (data : Bytes)
  | vectorInsert (collection : String) (entityId : UInt64) (vector : List UInt32)
  | probabilisticDelta (kind operation : UInt8) (name : String) (operands : List Bytes)
  | checkpoint (lsn : UInt64)
  deriving DecidableEq, Repr

structure MainWalRecordAuthority where
  term : UInt64
  ownershipEpoch : Option UInt64
  deriving DecidableEq, Repr

def mainWalDefaultCompressThreshold : Nat := 256

def maxMainWalPayload : Nat := 256 * 1024 * 1024

def maxMainWalItems : Nat := 1000000

def u64Bytes (value : UInt64) : Bytes := toLeBytes 8 value.toNat

def u32Bytes (value : UInt32) : Bytes := toLeBytes 4 value.toNat

def writeTypeAndAuthority (recordType : MainWalRecordType) (authority : MainWalRecordAuthority) : Bytes :=
  recordType.asU8 :: (u64Bytes authority.term ++ u64Bytes (authority.ownershipEpoch.getD 0))

def writeU32Len (len : Nat) (label : String) : Except IoError Bytes :=
  if len < 2 ^ 32 then .ok (toLeBytes 4 len) else .error (.invalidInput label)

def writeBytes (bytes : Bytes) (label : String) : Except IoError Bytes := do
  let len ← writeU32Len bytes.length label
  pure (len ++ bytes)

def writeItems (label : String) : List Bytes → Except IoError Bytes
  | [] => pure []
  | item :: items => do
    let first ← writeBytes item label
    let others ← writeItems label items
    pure (first ++ others)

def utf8Bytes (text : String) : Bytes := text.toUTF8.data.toList

section

variable (authority : MainWalRecordAuthority) (txId : UInt64) (pageId : UInt32)

def encodePlainPage (data : Bytes) :
    Except IoError Bytes := do
  let payload ← writeBytes data "main wal page length"
  pure (writeTypeAndAuthority .pageWrite authority ++ u64Bytes txId ++ u32Bytes pageId ++ payload)

def encodeCompressedPage (data compressed : Bytes) : Except IoError Bytes := do
  let original ← writeU32Len data.length "main wal original page length"
  let payload ← writeBytes compressed "main wal compressed page length"
  pure (writeTypeAndAuthority .pageWriteCompressed authority ++ u64Bytes txId ++ u32Bytes pageId ++
    [MainWalCompression.zstd.asU8] ++ original ++ payload)

end

section

variable (ext : External)

variable (frame : MainWalRecordFrame)

variable (authority : MainWalRecordAuthority)

def encodeBody :
    Except IoError Bytes :=
  match frame with
  | .pageOwnership record => do
    let payload ← OwnershipJournal.encode ext record
    pure (writeTypeAndAuthority .pageOwnership authority ++ payload)
  | .begin txId => pure (writeTypeAndAuthority .begin authority ++ u64Bytes txId)
  | .commit txId => pure (writeTypeAndAuthority .commit authority ++ u64Bytes txId)
  | .rollback txId => pure (writeTypeAndAuthority .rollback authority ++ u64Bytes txId)
  | .pageWrite txId pageId data =>
    if mainWalDefaultCompressThreshold ≤ data.length then
      match ext.zstdCompress data with
      | some compressed =>
        if compressed.length < data.length then
          encodeCompressedPage authority txId pageId data compressed
        else encodePlainPage authority txId pageId data
      | none => encodePlainPage authority txId pageId data
    else encodePlainPage authority txId pageId data
  | .txCommitBatch txId actions => do
    let count ← writeU32Len actions.length "main wal action count"
    let items ← writeItems "main wal action length" actions
    pure (writeTypeAndAuthority .txCommitBatch authority ++ u64Bytes txId ++ count ++ items)
  | .fullPageImage txId pageId ckptEpoch data => do
    let payload ← writeBytes data "main wal full-page image length"
    pure (writeTypeAndAuthority .fullPageImage authority ++ u64Bytes txId ++ u32Bytes pageId ++
      u64Bytes ckptEpoch ++ payload)
  | .vectorInsert collection entityId vector => do
    let name ← writeBytes (utf8Bytes collection) "main wal collection name length"
    let count ← writeU32Len vector.length "main wal vector length"
    pure (writeTypeAndAuthority .vectorInsert authority ++ name ++ u64Bytes entityId ++ count ++
      vector.flatMap u32Bytes)
  | .probabilisticDelta kind operation name operands => do
    let label ← writeBytes (utf8Bytes name) "main wal probabilistic name length"
    let count ← writeU32Len operands.length "main wal probabilistic operand count"
    let items ← writeItems "main wal probabilistic operand length" operands
    pure (writeTypeAndAuthority .probabilisticDelta authority ++ [kind, operation] ++ label ++ count ++ items)
  | .checkpoint lsn => pure (writeTypeAndAuthority .checkpoint authority ++ u64Bytes lsn)

def appendCrc (body : Bytes) : Bytes := body ++ u32Bytes (ext.crc32 body)

def encodeMainWalRecordFrame : Except IoError Bytes := do
  let body ← encodeBody ext frame authority
  pure (appendCrc ext body)

end

def readU64Tracked : Program ByteReader IoError UInt64 := do
  pure (UInt64.ofNat (← readLe .unexpectedEof 8))

def readU32Tracked : Program ByteReader IoError UInt32 := do
  pure (ofNat (← readLe .unexpectedEof 4))

def readU8Tracked : Program ByteReader IoError UInt8 := do
  pure ((← readTracked .unexpectedEof 1).headD 0)

def readU32Untracked : Program ByteReader IoError UInt32 := do
  pure (ofNat (fromLeBytes (← readExact .unexpectedEof 4)))

def validateLen (len : Nat) (label : String) : Except IoError Unit :=
  if maxMainWalPayload < len then .error (.invalidData s!"implausible {label}: {len}") else .ok ()

def validateCount (count : Nat) (label : String) : Except IoError Unit :=
  if maxMainWalItems < count then .error (.invalidData s!"implausible {label}: {count}") else .ok ()

def readBytesTracked : Program ByteReader IoError Bytes := do
  let len ← readLe .unexpectedEof 4
  lift (validateLen len "main WAL payload length")
  readTracked .unexpectedEof len

def readCounted {α : Type} (item : Program ByteReader IoError α) (label : String) :
    Program ByteReader IoError (List α) := do
  let count ← readLe .unexpectedEof 4
  lift (validateCount count label)
  repeatRead item count

def readCompressionTracked : Program ByteReader IoError MainWalCompression := do
  let value ← readU8Tracked
  match MainWalCompression.fromU8 value with
  | some compression => pure compression
  | none => fail (.invalidData s!"Unknown WAL compression algorithm: {value}")

def readUtf8Tracked (ext : External) (label : String) : Program ByteReader IoError String := do
  let bytes ← readBytesTracked
  match String.fromUTF8? ⟨bytes.toArray⟩ with
  | some text => pure text
  | none => fail (.invalidData s!"invalid {label} utf8: {ext.utf8Error bytes}")

section

variable (recordType : MainWalRecordType)

def strictOwnership (error : IoError) : IoError :=
  if recordType = .pageOwnership ∧ error = .unexpectedEof then
    .invalidData "incomplete page ownership WAL record"
  else error

def readAuthority (formatVersion : UInt8)
    (defaultAuthority : MainWalRecordAuthority) : Program ByteReader IoError MainWalRecordAuthority :=
  if formatVersion = walFileVersion then do
    let term ← readU64Tracked.mapError (strictOwnership recordType)
    let ownershipEpoch ← readU64Tracked.mapError (strictOwnership recordType)
    pure ⟨term, if ownershipEpoch = 0 then none else some ownershipEpoch⟩
  else if formatVersion = walFileVersionV2 then pure defaultAuthority
  else fail (.invalidData s!"Unsupported WAL version: {formatVersion}")

end

section

variable (ext : External)

variable (formatVersion : UInt8)

def readFrame : MainWalRecordType → Program ByteReader IoError MainWalRecordFrame
  | .pageOwnership =>
    if formatVersion ≠ walFileVersion then
      fail (.invalidData "page ownership record in old WAL")
    else do
      let payload ← (readTracked .unexpectedEof OwnershipJournal.recordSize).mapError
        (strictOwnership .pageOwnership)
      let record ← lift (OwnershipJournal.decode ext payload)
      pure (.pageOwnership record)
  | .begin => do pure (.begin (← readU64Tracked))
  | .commit => do pure (.commit (← readU64Tracked))
  | .rollback => do pure (.rollback (← readU64Tracked))
  | .pageWrite => do
    let txId ← readU64Tracked
    let pageId ← readU32Tracked
    let data ← readBytesTracked
    pure (.pageWrite txId pageId data)
  | .pageWriteCompressed => do
    let txId ← readU64Tracked
    let pageId ← readU32Tracked
    let compression ← readCompressionTracked
    let originalLen ← readLe .unexpectedEof 4
    lift (validateLen originalLen "main WAL original page length")
    let compressed ← readBytesTracked
    match compression with
    | .zstd =>
      match ext.zstdDecompress compressed originalLen with
      | .ok data => pure (.pageWrite txId pageId data)
      | .error message => fail (.invalidData s!"WAL zstd decompress failed: {message}")
    | .none => pure (.pageWrite txId pageId compressed)
  | .txCommitBatch => do
    let txId ← readU64Tracked
    let actions ← readCounted readBytesTracked "main WAL action count"
    pure (.txCommitBatch txId actions)
  | .fullPageImage => do
    let txId ← readU64Tracked
    let pageId ← readU32Tracked
    let ckptEpoch ← readU64Tracked
    let data ← readBytesTracked
    pure (.fullPageImage txId pageId ckptEpoch data)
  | .vectorInsert => do
    let collection ← readUtf8Tracked ext "collection"
    let entityId ← readU64Tracked
    let vector ← readCounted readU32Tracked "main WAL vector length"
    pure (.vectorInsert collection entityId vector)
  | .probabilisticDelta => do
    let kind ← readU8Tracked
    let operation ← readU8Tracked
    let name ← readUtf8Tracked ext "probabilistic name"
    let operands ← readCounted readBytesTracked "main WAL probabilistic operand count"
    pure (.probabilisticDelta kind operation name operands)
  | .checkpoint => do pure (.checkpoint (← readU64Tracked))

def readCrc (recordType : MainWalRecordType) : Program ByteReader IoError Unit := do
  let checksumBytes ← trackedBytes
  let storedCrc ← readU32Untracked.mapError (strictOwnership recordType)
  if ext.crc32 checksumBytes ≠ storedCrc then
    fail (.invalidData "WAL record checksum mismatch")
  else pure ()

variable (defaultAuthority : MainWalRecordAuthority)

def readChecked (recordType : MainWalRecordType) :
    Program ByteReader IoError (MainWalRecordAuthority × MainWalRecordFrame) := do
  let authority ← readAuthority recordType formatVersion defaultAuthority
  let frame ← readFrame ext formatVersion recordType
  readCrc ext recordType
  pure (authority, frame)

def decodeMainWalRecordFrame :
    Program ByteReader IoError (Option (MainWalRecordAuthority × MainWalRecordFrame)) := do
  Program.modify fun s => { s with tracked := [] }
  match ← (readTracked .unexpectedEof 1).attempt with
  | .error .unexpectedEof => pure none
  | .error e => fail e
  | .ok typeBuf =>
    match MainWalRecordType.fromU8 (typeBuf.headD 0) with
    | none => fail (.invalidData "Invalid record type")
    | some recordType => do
      let record ← readChecked ext formatVersion defaultAuthority recordType
      pure (some record)

end

end RedDB.Wal
