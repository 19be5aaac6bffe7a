import RedDB.Wal.Record

namespace RedDB.Wal

open List Library Library.ByteReader PageOwnershipRecord IoError

theorem reads_u64 (value : UInt64) : Reads .unexpectedEof readU64Tracked (u64Bytes value) value :=
  (reads_readLe value.toNat_lt).map UInt64.ofNat_toNat

/-- A payload after its length, as `writeBytes` lays it out. -/
def framed (bytes : Bytes) : Bytes := toLeBytes 4 bytes.length ++ bytes

variable {written : Bytes} {label : String}

theorem writeU32Len_ok {len : Nat}
    (accepted : writeU32Len len label = .ok written) : len < 2 ^ 32 ∧ written = toLeBytes 4 len := by
  unfold writeU32Len at accepted
  split_ifs at accepted with fits
  cases accepted
  exact ⟨fits, rfl⟩

theorem writeBytes_ok {bytes : Bytes}
    (accepted : writeBytes bytes label = .ok written) : bytes.length < 2 ^ 32 ∧ written = framed bytes := by
  obtain ⟨len, prefixed, appended⟩ := except_bind_ok accepted
  obtain ⟨fits, rfl⟩ := writeU32Len_ok prefixed
  cases appended
  exact ⟨fits, rfl⟩

theorem writeItems_ok {items : List Bytes} (accepted : writeItems label items = .ok written) :
    (∀ item ∈ items, item.length < 2 ^ 32) ∧ written = items.flatMap framed := by
  induction items generalizing written with
  | nil =>
    cases accepted
    simp
  | cons item items ih =>
    obtain ⟨head, first, continued⟩ := except_bind_ok accepted
    obtain ⟨tail, others, appended⟩ := except_bind_ok continued
    obtain ⟨fits, rfl⟩ := writeBytes_ok first
    obtain ⟨smaller, rfl⟩ := ih others
    cases appended
    exact ⟨forall_mem_cons.mpr ⟨fits, smaller⟩, rfl⟩

theorem reads_bytes {bytes : Bytes} (fits : bytes.length ≤ maxMainWalPayload) :
    Reads .unexpectedEof readBytesTracked (framed bytes) bytes := by
  have valid : validateLen bytes.length "main WAL payload length" = .ok () := if_neg (not_lt.mpr fits)
  have small : bytes.length < 256 ^ 4 := by
    unfold maxMainWalPayload at fits
    omega
  apply (reads_readLe small).bind _ rfl
  exact (reads_lift valid).bind (reads_readTracked rfl) rfl

theorem reads_counted {α : Type} {m : Program ByteReader IoError α} {write : α → Bytes}
    {items : List α} (reads : ∀ a ∈ items, Reads .unexpectedEof m (write a) a)
    (fits : items.length ≤ maxMainWalItems) :
    Reads .unexpectedEof (readCounted m label) (toLeBytes 4 items.length ++ items.flatMap write) items := by
  have valid : validateCount items.length label = .ok () := if_neg (not_lt.mpr fits)
  have small : items.length < 256 ^ 4 := by
    unfold maxMainWalItems at fits
    omega
  apply (reads_readLe small).bind _ rfl
  exact (reads_lift valid).bind (reads_repeatRead reads) rfl

def cutError (recordType : MainWalRecordType) : IoError := strictOwnership recordType .unexpectedEof

theorem reads_authority (recordType : MainWalRecordType) {authority : MainWalRecordAuthority}
    (defaultAuthority : MainWalRecordAuthority) (epoch : authority.ownershipEpoch ≠ some 0) :
    Reads (cutError recordType) (readAuthority recordType walFileVersion defaultAuthority)
      (u64Bytes authority.term ++ u64Bytes (authority.ownershipEpoch.getD 0)) authority := by
  have value : (⟨authority.term, if authority.ownershipEpoch.getD 0 = 0 then none
      else some (authority.ownershipEpoch.getD 0)⟩ : MainWalRecordAuthority) = authority := by
    rcases authority with ⟨term, _ | owner⟩
    · rfl
    · have owned : owner ≠ 0 := fun zero => epoch (congrArg some zero)
      simp [owned]
  apply (reads_u64 authority.term).mapError.bind _ rfl
  exact (reads_u64 _).mapError.map value

def MainWalRecordFrame.WithinLimits : MainWalRecordFrame → Prop
  | .pageWrite _ _ data => data.length ≤ maxMainWalPayload
  | .fullPageImage _ _ _ data => data.length ≤ maxMainWalPayload
  | .txCommitBatch _ actions =>
    actions.length ≤ maxMainWalItems ∧ ∀ action ∈ actions, action.length ≤ maxMainWalPayload
  | .vectorInsert collection _ vector =>
    (utf8Bytes collection).length ≤ maxMainWalPayload ∧ vector.length ≤ maxMainWalItems
  | .probabilisticDelta _ _ name operands =>
    (utf8Bytes name).length ≤ maxMainWalPayload ∧ operands.length ≤ maxMainWalItems ∧
      ∀ operand ∈ operands, operand.length ≤ maxMainWalPayload
  | _ => True

instance (frame : MainWalRecordFrame) : Decidable frame.WithinLimits :=
  match frame with
  | .pageWrite .. | .fullPageImage .. => inferInstanceAs (Decidable (_ ≤ _))
  | .txCommitBatch .. | .vectorInsert .. | .probabilisticDelta .. => inferInstanceAs (Decidable (_ ∧ _))
  | .pageOwnership _ | .begin _ | .commit _ | .rollback _ | .checkpoint _ => inferInstanceAs (Decidable True)

/-- The bytes of a frame before its checksum are a record type, an authority and what the decoder reads
back as the frame. -/
def EncodedAs (ext : External) (recordType : MainWalRecordType) (frame : MainWalRecordFrame)
    (authority : MainWalRecordAuthority) (body : Bytes) : Prop :=
  ∃ payload, body = writeTypeAndAuthority recordType authority ++ payload ∧
    Reads (cutError recordType) (readFrame ext walFileVersion recordType) payload frame

section

variable {ext : External} {authority : MainWalRecordAuthority} {body : Bytes} {txId : UInt64}

theorem encodedAs_commitBatch {actions : List Bytes}
    (accepted : encodeBody ext (.txCommitBatch txId actions) authority = .ok body)
    (limits : (MainWalRecordFrame.txCommitBatch txId actions).WithinLimits) :
    EncodedAs ext .txCommitBatch (.txCommitBatch txId actions) authority body := by
  obtain ⟨count, counted, continued⟩ := except_bind_ok accepted
  obtain ⟨items, listed, appended⟩ := except_bind_ok continued
  obtain ⟨-, rfl⟩ := writeU32Len_ok counted
  obtain ⟨-, rfl⟩ := writeItems_ok listed
  cases appended
  refine ⟨u64Bytes txId ++ (toLeBytes 4 actions.length ++ actions.flatMap framed), by simp, ?_⟩
  apply (reads_u64 txId).bind _ rfl
  exact (reads_counted (fun action listed => reads_bytes (limits.2 action listed)) limits.1).map rfl

variable {frame : MainWalRecordFrame}

theorem consumes_u32Untracked (value : UInt32) {tracked : Bytes} :
    Consumes .unexpectedEof readU32Untracked tracked (u32Bytes value) value tracked := by
  have stored : UInt32.ofNat (fromLeBytes (u32Bytes value)) = value := by
    rw [u32Bytes, fromLeBytes_toLeBytes value.toNat_lt, UInt32.ofNat_toNat]
  apply (consumes_readExact (length_toLeBytes 4 value.toNat)).bind _ (append_nil _)
  rw [u32Bytes] at stored
  rw [stored]
  exact consumes_pure value

theorem consumes_readCrc (recordType : MainWalRecordType) :
    Consumes (cutError recordType) (readCrc ext recordType) body (u32Bytes (ext.crc32 body)) () body := by
  apply consumes_trackedBytes.bind _ (nil_append _)
  apply (consumes_u32Untracked (ext.crc32 body)).mapError.bind _ (append_nil _)
  rw [if_neg (not_not.mpr rfl)]
  exact consumes_pure ()

variable {recordType : MainWalRecordType}

theorem EncodedAs.consumes
    (encoded : EncodedAs ext recordType frame authority body) (defaultAuthority : MainWalRecordAuthority)
    (epoch : authority.ownershipEpoch ≠ some 0) :
    ∃ content, body = recordType.asU8 :: content ∧
      Consumes (cutError recordType) (readChecked ext walFileVersion defaultAuthority recordType)
        [recordType.asU8] (content ++ u32Bytes (ext.crc32 body)) (authority, frame) body := by
  obtain ⟨payload, rfl, reads⟩ := encoded
  refine ⟨(u64Bytes authority.term ++ u64Bytes (authority.ownershipEpoch.getD 0)) ++ payload, rfl, ?_⟩
  apply (reads_authority recordType defaultAuthority epoch [recordType.asU8]).bind _ (append_assoc ..).symm
  apply (reads _).bind _ rfl
  rw [append_assoc]
  exact (consumes_readCrc recordType).bind (consumes_pure (authority, frame)) (append_nil _)

theorem fromU8_asU8 (recordType : MainWalRecordType) :
    MainWalRecordType.fromU8 recordType.asU8 = some recordType := by
  cases recordType <;> rfl

theorem decode_type (recordType : MainWalRecordType) (version : UInt8)
    (defaultAuthority : MainWalRecordAuthority) (rest tracked : Bytes) :
    decodeMainWalRecordFrame ext version defaultAuthority ⟨recordType.asU8 :: rest, tracked⟩ =
      (do pure (some (← readChecked ext version defaultAuthority recordType)) :
        Program ByteReader IoError _) ⟨rest, [recordType.asU8]⟩ := by
  have read : readTracked unexpectedEof 1 ⟨recordType.asU8 :: rest, []⟩ =
      (.ok [recordType.asU8], ⟨rest, [recordType.asU8]⟩) := by
    have reads : Reads .unexpectedEof (readTracked unexpectedEof 1) [recordType.asU8] [recordType.asU8] :=
      reads_readTracked rfl
    exact (reads []).whole rest
  simp only [decodeMainWalRecordFrame, bind, Program.modify, Program.attempt, read, headD_cons, fromU8_asU8]

section

variable (encoded : EncodedAs ext recordType frame authority body) (defaultAuthority : MainWalRecordAuthority)
  (epoch : authority.ownershipEpoch ≠ some 0)
include encoded defaultAuthority epoch

theorem EncodedAs.decode (rest tracked : Bytes) :
    decodeMainWalRecordFrame ext walFileVersion defaultAuthority ⟨appendCrc ext body ++ rest, tracked⟩ =
      (.ok (some (authority, frame)), ⟨rest, body⟩) := by
  obtain ⟨content, split, consumes⟩ := encoded.consumes defaultAuthority epoch
  have bytes : appendCrc ext body ++ rest = recordType.asU8 :: ((content ++ u32Bytes (ext.crc32 body)) ++ rest) := by
    simp [appendCrc, split]
  rw [bytes, decode_type]
  simp only [bind, consumes.whole rest]
  rfl

end

end

end RedDB.Wal
