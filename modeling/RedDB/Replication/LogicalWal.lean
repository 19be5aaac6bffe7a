import RedDB.Wal.Record

namespace RedDB.Replication

open Library Library.ByteReader

abbrev Bytes := List UInt8

/-- `RDLW` -/
def logicalWalSpoolMagic : Bytes := [0x52, 0x44, 0x4C, 0x57]

def logicalWalSpoolVersionV1 : UInt8 := 1

def logicalWalSpoolVersionV2 : UInt8 := 2

def logicalWalSpoolVersionV3 : UInt8 := 3

def logicalWalSeekIndexInterval : Nat := 64

def maxPlausiblePayload : Nat := 256 * 1024 * 1024

structure LogicalWalEntry where
  term : UInt64
  ownershipEpoch : Option UInt64
  lsn : UInt64
  timestampMs : UInt64
  data : Bytes
  version : UInt8
  deriving DecidableEq, Repr

inductive FrameError
  | torn
  | implausiblePayload (payloadLen : Nat)
  | crcMismatch (stored expected : Nat)
  deriving DecidableEq, Repr

section

variable (crc32 : Bytes → UInt32)

def u64Bytes (value : UInt64) : Bytes := toLeBytes 8 value.toNat

variable (file : Bytes) (version : UInt8) (bytes : Bytes)

def computeLogicalV3Crc (term : UInt64) (ownershipEpoch : Option UInt64) (lsn timestampMs : UInt64)
    (payload : Bytes) : UInt32 :=
  crc32 (version :: (u64Bytes term ++ u64Bytes (ownershipEpoch.getD 0) ++ u64Bytes lsn ++ u64Bytes timestampMs ++
    toLeBytes 4 payload.length ++ payload))

def computeLogicalV2Crc (lsn timestampMs : UInt64) (payload : Bytes) : UInt32 :=
  crc32 (version :: (u64Bytes lsn ++ u64Bytes timestampMs ++ toLeBytes 4 payload.length ++ payload))

def encodeLogicalWalV3 (term : UInt64) (ownershipEpoch : Option UInt64) (lsn timestampMs : UInt64) (data : Bytes) :
    Except Wal.IoError Bytes :=
  if data.length > 2 ^ 32 - 1 then
    .error (.invalidInput s!"logical WAL payload of {data.length} bytes exceeds 4 GiB framing limit")
  else
    let crc := computeLogicalV3Crc crc32 logicalWalSpoolVersionV3 term ownershipEpoch lsn timestampMs data
    .ok (logicalWalSpoolMagic ++ logicalWalSpoolVersionV3 :: (u64Bytes term ++ (u64Bytes (ownershipEpoch.getD 0) ++
      (u64Bytes lsn ++ (u64Bytes timestampMs ++ (toLeBytes 4 data.length ++ (data ++ toLeBytes 4 crc.toNat)))))))

def readU64 : Program ByteReader FrameError UInt64 := do
  pure (UInt64.ofNat (← readLe .torn 8))

def readPayload (payloadLen : Nat) : Program ByteReader FrameError Bytes :=
  if payloadLen > maxPlausiblePayload then Program.fail (.implausiblePayload payloadLen)
  else readTracked .torn payloadLen

def checkCrc (stored expected : Nat) (entry : LogicalWalEntry) : Program ByteReader FrameError LogicalWalEntry :=
  if stored ≠ expected then Program.fail (.crcMismatch stored expected) else pure entry

def epochOf (epoch : UInt64) : Option UInt64 := if epoch = 0 then none else some epoch

def readOneV3 : Program ByteReader FrameError LogicalWalEntry := do
  let term ← readU64
  let epoch ← readU64
  let lsn ← readU64
  let timestampMs ← readU64
  let payloadLen ← readLe .torn 4
  let payload ← readPayload payloadLen
  let stored ← readLe .torn 4
  let expected := computeLogicalV3Crc crc32 logicalWalSpoolVersionV3 term (epochOf epoch) lsn timestampMs payload
  checkCrc stored expected.toNat
    { term, ownershipEpoch := epochOf epoch, lsn, timestampMs, data := payload, version := logicalWalSpoolVersionV3 }

def readOneV2 : Program ByteReader FrameError LogicalWalEntry := do
  let lsn ← readU64
  let timestampMs ← readU64
  let payloadLen ← readLe .torn 4
  let payload ← readPayload payloadLen
  let stored ← readLe .torn 4
  let expected := computeLogicalV2Crc crc32 logicalWalSpoolVersionV2 lsn timestampMs payload
  checkCrc stored expected.toNat
    { term := 0, ownershipEpoch := none, lsn, timestampMs, data := payload, version := logicalWalSpoolVersionV2 }

def readOneV1 : Program ByteReader FrameError LogicalWalEntry := do
  let lsn ← readU64
  let payloadLen ← readU64
  let payload ← readPayload payloadLen.toNat
  pure { term := 0, ownershipEpoch := none, lsn, timestampMs := 0, data := payload, version := logicalWalSpoolVersionV1 }

inductive FrameRead
  | eof
  | corrupt
  | entry (entry : LogicalWalEntry) (rest : Bytes)

def readBody (reader : Program ByteReader FrameError LogicalWalEntry) (body : Bytes) : FrameRead :=
  match reader ⟨body, []⟩ with
  | (.ok entry, s) => .entry entry s.rest
  | (.error _, _) => .corrupt

def readFrame : FrameRead :=
  if bytes.length < 4 then .eof
  else if bytes.take 4 ≠ logicalWalSpoolMagic then .corrupt
  else
    match bytes.drop 4 with
    | [] => .corrupt
    | version :: body =>
      if version = logicalWalSpoolVersionV3 then readBody (readOneV3 crc32) body
      else if version = logicalWalSpoolVersionV2 then readBody (readOneV2 crc32) body
      else if version = logicalWalSpoolVersionV1 then readBody readOneV1 body
      else .corrupt

structure Scan where
  entries : List LogicalWalEntry
  rest : Bytes
  corrupt : Bool

def scanLoop : Nat → Bytes → Scan
  | 0, bytes => ⟨[], bytes, false⟩
  | fuel + 1, bytes =>
    match readFrame crc32 bytes with
    | .eof => ⟨[], bytes, false⟩
    | .corrupt => ⟨[], bytes, true⟩
    | .entry entry rest =>
      let scan := scanLoop fuel rest
      ⟨entry :: scan.entries, scan.rest, scan.corrupt⟩

def scan : Scan := scanLoop crc32 (bytes.length + 1) bytes

def readAndRepairLogicalWalEntries : List LogicalWalEntry × Bytes :=
  let found := scan crc32 file
  let lastGoodOffset := file.length - found.rest.length
  (found.entries, if found.corrupt ∧ lastGoodOffset < file.length then file.take lastGoodOffset else file)

def readLogicalWalEntriesFrom (startOffset : Nat) : List LogicalWalEntry :=
  (scan crc32 (file.drop startOffset)).entries

def pushCheckpoint (index : List (UInt64 × Nat)) (ordinal : Nat) (lsn : UInt64) (offset : Nat) : List (UInt64 × Nat) :=
  if ordinal % logicalWalSeekIndexInterval = 0 ∧ index.getLast?.map Prod.fst ≠ some lsn then index ++ [(lsn, offset)]
  else index

structure SeekIndex where
  index : List (UInt64 × Nat)
  writeOffset : Nat
  ordinal : Nat

def buildLoop : Nat → Bytes → SeekIndex → SeekIndex
  | 0, _, built => built
  | fuel + 1, bytes, built =>
    match readFrame crc32 bytes with
    | .entry entry rest =>
      buildLoop fuel rest
        { index := pushCheckpoint built.index built.ordinal entry.lsn built.writeOffset
          writeOffset := built.writeOffset + (bytes.length - rest.length)
          ordinal := built.ordinal + 1 }
    | _ => built

def buildLogicalWalSeekIndex : SeekIndex := buildLoop crc32 (file.length + 1) file ⟨[], 0, 0⟩

def encodeEntry (entry : LogicalWalEntry) : Except Wal.IoError Bytes :=
  encodeLogicalWalV3 crc32 entry.term entry.ownershipEpoch entry.lsn entry.timestampMs entry.data

def rewriteLogicalWalEntries (entries : List LogicalWalEntry) : Except Wal.IoError (Bytes × UInt64) := do
  let frames ← entries.mapM (encodeEntry crc32)
  pure (frames.flatten, entries.foldl (fun lsn entry => max lsn entry.lsn) 0)

end

end RedDB.Replication
