import RedDB.Library.LittleEndian
import RedDB.Storage.Store

namespace RedDB.Storage

open Library Program

section

inductive ValueFlag
  | raw
  | lz4
  deriving DecidableEq, Repr

def valueCodecEncode (lz4 : Lz4) (input : Bytes) : ValueFlag × Bytes :=
  if input = [] then (.raw, [])
  else if (lz4.compress input).length + 4 < input.length then
    (.lz4, toLeBytes 4 input.length ++ lz4.compress input)
  else (.raw, input)

def decodedLength (flag : ValueFlag) (bytes : Bytes) : Except ValueCodecError Nat :=
  match flag with
  | .raw => .ok bytes.length
  | .lz4 => if bytes.length < 4 then .error .truncatedHeader else .ok (fromLeBytes (bytes.take 4))

def valueCodecDecode (lz4 : Lz4) (flag : ValueFlag) (bytes : Bytes) : Except ValueCodecError Bytes :=
  match flag with
  | .raw => .ok bytes
  | .lz4 =>
    match decodedLength flag bytes with
    | .error e => .error e
    | .ok rawLen =>
      match lz4.decompress (bytes.drop 4) rawLen with
      | .ok out => .ok out
      | .error message => .error (.lz4Decode message)

end

section

def overflowThreshold : Nat := pageSize / 4

def compressionThreshold : Nat := 1024

def maxValueSize : Nat := 256 * 1024 * 1024

def pointerPayloadLen : Nat := 4 + 8

inductive BTreeValueCell
  | inline (isCompressed : Bool) (payload : Bytes)
  | pointer (isCompressed : Bool) (headPageId totalLen : Nat)
  deriving DecidableEq, Repr

def flagPointer : UInt8 := 1

def flagCompressed : UInt8 := 2

def encodeBTreeInlineRaw (value : Bytes) : Bytes := 0 :: value

def encodeBTreeInlineCompressed (codecBytes : Bytes) : Bytes := flagCompressed :: codecBytes

def encodeBTreePointer (headPageId totalLen : Nat) (isCompressed : Bool) : Bytes :=
  (if isCompressed then flagPointer ||| flagCompressed else flagPointer) ::
    (toLeBytes 4 headPageId ++ toLeBytes 8 totalLen)

def decodeBTreeValueCell : Bytes → Except ValueLayoutError BTreeValueCell
  | [] => .ok (.inline false [])
  | flag :: payload =>
    if flag &&& ~~~(flagPointer ||| flagCompressed) ≠ 0 then .error (.unknownFlag flag)
    else if flag &&& flagPointer = 0 then .ok (.inline (flag &&& flagCompressed ≠ 0) payload)
    else if payload.length ≠ pointerPayloadLen then .error (.truncatedPointer payload.length)
    else
      .ok (.pointer (flag &&& flagCompressed ≠ 0) (fromLeBytes (payload.take 4)) (fromLeBytes (payload.drop 4)))

def pointerHead (stored : Bytes) : Option Nat :=
  match decodeBTreeValueCell stored with
  | .ok (.pointer _ headPageId _) => some headPageId
  | _ => none

end

section

def overflowPayloadPerPage : Nat := contentSize - 8

def pagesNeeded (len : Nat) : Nat :=
  if len = 0 then 1 else (len + overflowPayloadPerPage - 1) / overflowPayloadPerPage

def wrapPager : BTreeError → BTreeError
  | .pager e => .valueLayout (.overflow (.pager e))
  | e => e

def overflowFail {α : Type} (e : OverflowError) : BTreeM α := fail (.valueLayout (.overflow e))

def readChainHeader (page : Page) : Except OverflowError (Nat × Nat) :=
  if page.pageType ≠ .overflow then .error (.notOverflowPage page.pageId)
  else if page.payload.length > overflowPayloadPerPage then
    .error (.payloadTooLarge page.pageId page.payload.length)
  else .ok (page.nextOverflow, page.payload.length)

def allocateChain (env : Env) : Nat → BTreeM (List Nat)
  | 0 => pure []
  | n + 1 => do
    let page ← mapError wrapPager (allocatePage env .overflow)
    let rest ← allocateChain env n
    pure (page.pageId :: rest)

def overflowPage (pageId next : Nat) (chunk : Bytes) : Page :=
  { Page.new .overflow pageId with nextOverflow := next, payload := chunk }

def writeChain : List Nat → Bytes → BTreeM Unit
  | [], _ => pure ()
  | pageId :: rest, bytes => do
    writePage pageId (overflowPage pageId (rest.headD 0) (bytes.take overflowPayloadPerPage))
    writeChain rest (bytes.drop overflowPayloadPerPage)

def storeChain (env : Env) (bytes : Bytes) : BTreeM (Nat × Nat) := do
  let pageIds ← allocateChain env (pagesNeeded bytes.length)
  writeChain pageIds bytes
  pure (pageIds.headD 0, bytes.length)

def readChain : Nat → Nat → Nat → Bytes → BTreeM Bytes
  | 0, _, _, _ => overflowFail .endless
  | fuel + 1, current, totalLen, out =>
    if current = 0 then
      if out.length ≠ totalLen then overflowFail (.lengthMismatch totalLen out.length) else pure out
    else do
      let page ← mapError wrapPager (readPage current)
      match readChainHeader page with
      | .error e => overflowFail e
      | .ok (next, len) =>
        if out.length + len > totalLen then overflowFail (.lengthMismatch totalLen (out.length + len))
        else readChain fuel next totalLen (out ++ page.payload)

def freeChain : Nat → Nat → Bool → BTreeM Unit
  | 0, _, _ => overflowFail .endless
  | fuel + 1, current, first =>
    if current = 0 then pure ()
    else do
      let page ← mapError wrapPager (readPage current)
      if page.pageType ≠ .overflow then
        overflowFail (if first then .invalidHead current else .notOverflowPage current)
      else
        match readChainHeader page with
        | .error e => overflowFail e
        | .ok (next, _) => do
          freePage current
          freeChain fuel next false

def chainBound : BTreeM Nat := fun t => (.ok (t.store.log.length + 1), t)

end

section

def usizeMax : Nat := 2 ^ 64 - 1

def codecCell (flag : ValueFlag) (bytes : Bytes) : Bytes :=
  match flag with
  | .raw => encodeBTreeInlineRaw bytes
  | .lz4 => encodeBTreeInlineCompressed bytes

variable (env : Env)

variable (stored : Bytes) (value : Bytes)

def encodeInlineWithoutPages : Except BTreeError (Option Bytes) :=
  if value.length > maxValueSize then .error (.valueTooLarge value.length)
  else if value.length ≤ compressionThreshold then .ok (some (encodeBTreeInlineRaw value))
  else
    let (flag, bytes) := valueCodecEncode env.lz4 value
    if bytes.length ≤ overflowThreshold then .ok (some (codecCell flag bytes)) else .ok none

def encode : BTreeM Bytes :=
  if value.length > maxValueSize then fail (.valueTooLarge value.length)
  else if value.length ≤ compressionThreshold then pure (encodeBTreeInlineRaw value)
  else
    let (flag, bytes) := valueCodecEncode env.lz4 value
    if bytes.length ≤ overflowThreshold then pure (codecCell flag bytes)
    else do
      let (head, totalLen) ← storeChain env bytes
      pure (encodeBTreePointer head totalLen (flag = .lz4))

def checkReadBudget (requiredBytes limitBytes : Nat) : BTreeM Unit :=
  if requiredBytes > limitBytes then fail (.readLimitExceeded requiredBytes limitBytes) else pure ()

def codecLift {α : Type} (result : Except ValueCodecError α) : BTreeM α :=
  match result with
  | .ok a => pure a
  | .error e => fail (.valueLayout (.codec e))

def decodeWithBudget (limitBytes : Nat) : BTreeM Bytes :=
  match decodeBTreeValueCell stored with
  | .error e => fail (.valueLayout e)
  | .ok (.pointer isCompressed headPageId totalLen) => do
    checkReadBudget totalLen limitBytes
    let fuel ← chainBound
    let chainBytes ← readChain fuel headPageId totalLen []
    if isCompressed then
      let decodedBytes ← codecLift (decodedLength .lz4 chainBytes)
      checkReadBudget (min (totalLen + decodedBytes) usizeMax) limitBytes
      codecLift (valueCodecDecode env.lz4 .lz4 chainBytes)
    else pure chainBytes
  | .ok (.inline isCompressed payload) => do
    let flag := if isCompressed then .lz4 else .raw
    let decodedBytes ← codecLift (decodedLength flag payload)
    checkReadBudget decodedBytes limitBytes
    codecLift (valueCodecDecode env.lz4 flag payload)

def freeChainIfPointer : BTreeM Unit :=
  match pointerHead stored with
  | some head => do
    let fuel ← chainBound
    freeChain fuel head true
  | none => pure ()

end

end RedDB.Storage
