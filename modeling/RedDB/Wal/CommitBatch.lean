import RedDB.Wal.RoundTrip

namespace RedDB.Wal

open List Library Library.ByteReader

def Rejects {α : Type} (m : Program ByteReader IoError α) (s : ByteReader) : Prop :=
  ∃ message s', m s = (.error (.invalidData message), s')

section

variable {items : List Bytes} {s : ByteReader}

theorem Rejects.bind {α β : Type} {m : Program ByteReader IoError α}
    (f : α → Program ByteReader IoError β) (rejects : Rejects m s) : Rejects (m >>= f) s := by
  obtain ⟨message, s', failed⟩ := rejects
  exact ⟨message, s', by simp only [Bind.bind, failed]⟩

theorem Rejects.after {α β : Type} {m : Program ByteReader IoError α}
    {f : α → Program ByteReader IoError β} {eof : IoError} {tracked bytes rest tracked' : Bytes} {a : α}
    (first : Consumes eof m tracked bytes a tracked') (rejects : Rejects (f a) ⟨rest, tracked'⟩) :
    Rejects (m >>= f) ⟨bytes ++ rest, tracked⟩ := by
  obtain ⟨message, s', failed⟩ := rejects
  exact ⟨message, s', by simp only [Bind.bind, first.whole, failed]⟩

theorem rejects_lift {α : Type} {result : Except IoError α} {message : String}
    (failed : result = .error (.invalidData message)) : Rejects (Program.lift result) s :=
  ⟨message, s, by rw [failed, Program.lift]⟩

theorem rejects_long_payload {bytes : Bytes} (long : maxMainWalPayload < bytes.length)
    (small : bytes.length < 2 ^ 32) (rest tracked : Bytes) :
    Rejects readBytesTracked ⟨framed bytes ++ rest, tracked⟩ := by
  rw [framed, append_assoc]
  apply Rejects.after (reads_readLe small tracked)
  exact (rejects_lift (if_pos long)).bind _

theorem rejects_items (small : ∀ item ∈ items, item.length < 2 ^ 32)
    (long : ∃ item ∈ items, maxMainWalPayload < item.length) (rest tracked : Bytes) :
    Rejects (repeatRead readBytesTracked items.length) ⟨items.flatMap framed ++ rest, tracked⟩ := by
  induction items generalizing tracked with
  | nil => simp at long
  | cons item items ih =>
    rw [flatMap_cons, append_assoc]
    by_cases fits : item.length ≤ maxMainWalPayload
    · obtain ⟨other, listed, excess⟩ := long
      have later : other ∈ items := by
        rcases mem_cons.mp listed with rfl | later
        · exact absurd excess (not_lt.mpr fits)
        · exact later
      apply Rejects.after (reads_bytes fits tracked)
      apply Rejects.bind
      exact ih (fun b listed => small b (mem_cons_of_mem item listed)) ⟨other, later, excess⟩ _
    · exact (rejects_long_payload (not_le.mp fits) (small item mem_cons_self) _ tracked).bind _

theorem rejects_counted (few : items.length < 2 ^ 32)
    (small : ∀ item ∈ items, item.length < 2 ^ 32)
    (excess : ¬ (items.length ≤ maxMainWalItems ∧ ∀ item ∈ items, item.length ≤ maxMainWalPayload))
    (label : String) (rest tracked : Bytes) :
    Rejects (readCounted readBytesTracked label)
      ⟨toLeBytes 4 items.length ++ (items.flatMap framed ++ rest), tracked⟩ := by
  apply Rejects.after (reads_readLe few tracked)
  by_cases counted : items.length ≤ maxMainWalItems
  · have long : ∃ item ∈ items, maxMainWalPayload < item.length := by
      by_contra none
      push Not at none
      exact excess ⟨counted, none⟩
    have valid : validateCount items.length label = .ok () := if_neg (not_lt.mpr counted)
    rw [valid]
    exact rejects_items small long rest _
  · exact (rejects_lift (if_pos (not_le.mp counted))).bind _

end

section

variable {ext : External} {authority : MainWalRecordAuthority} {txId : UInt64} {actions : List Bytes}
  {frame : Bytes}

theorem commitBatch_bytes
    (accepted : encodeMainWalRecordFrame ext (.txCommitBatch txId actions) authority = .ok frame) :
    actions.length < 2 ^ 32 ∧ (∀ action ∈ actions, action.length < 2 ^ 32) ∧
      ∃ crc, frame = writeTypeAndAuthority .txCommitBatch authority ++
        (u64Bytes txId ++ (toLeBytes 4 actions.length ++ (actions.flatMap framed ++ crc))) := by
  obtain ⟨body, encoded, sealed⟩ := except_bind_ok accepted
  obtain ⟨count, counted, continued⟩ := except_bind_ok encoded
  obtain ⟨items, listed, appended⟩ := except_bind_ok continued
  obtain ⟨few, rfl⟩ := writeU32Len_ok counted
  obtain ⟨small, rfl⟩ := writeItems_ok listed
  cases sealed
  cases appended
  refine ⟨few, small, ?_⟩
  unfold appendCrc
  generalize u32Bytes _ = crc
  exact ⟨crc, by simp only [append_assoc]⟩

structure Written (ext : External) (frame : MainWalRecordFrame) (authority : MainWalRecordAuthority)
    (bytes : Bytes) : Prop where
  accepted : encodeMainWalRecordFrame ext frame authority = .ok bytes
  epoch : authority.ownershipEpoch ≠ some 0

section

variable (defaultAuthority : MainWalRecordAuthority)
  (written : Written ext (.txCommitBatch txId actions) authority frame)
include defaultAuthority written

theorem commitBatch_rejected
    (excess : ¬ (actions.length ≤ maxMainWalItems ∧ ∀ action ∈ actions, action.length ≤ maxMainWalPayload))
    (rest tracked : Bytes) :
    Rejects (decodeMainWalRecordFrame ext walFileVersion defaultAuthority) ⟨frame ++ rest, tracked⟩ := by
  obtain ⟨few, small, crc, rfl⟩ := commitBatch_bytes written.accepted
  have checked : Rejects (readChecked ext walFileVersion defaultAuthority .txCommitBatch)
      ⟨(u64Bytes authority.term ++ u64Bytes (authority.ownershipEpoch.getD 0)) ++ (u64Bytes txId ++
        (toLeBytes 4 actions.length ++ (actions.flatMap framed ++ (crc ++ rest)))),
        [MainWalRecordType.txCommitBatch.asU8]⟩ := by
    apply Rejects.after (reads_authority .txCommitBatch defaultAuthority written.epoch _)
    apply Rejects.bind
    apply Rejects.after (reads_u64 txId _)
    exact (rejects_counted few small excess _ _ _).bind _
  obtain ⟨message, s, failed⟩ := checked
  refine ⟨message, s, ?_⟩
  rw [writeTypeAndAuthority, cons_append, cons_append, decode_type]
  simp only [append_assoc] at failed ⊢
  simp only [bind, failed]

theorem commitBatch_decoded
    (limits : actions.length ≤ maxMainWalItems ∧ ∀ action ∈ actions, action.length ≤ maxMainWalPayload)
    (rest tracked : Bytes) :
    ∃ body, frame = appendCrc ext body ∧
      decodeMainWalRecordFrame ext walFileVersion defaultAuthority ⟨frame ++ rest, tracked⟩ =
        (.ok (some (authority, .txCommitBatch txId actions)), ⟨rest, body⟩) := by
  obtain ⟨body, encoded, sealed⟩ := except_bind_ok written.accepted
  cases sealed
  exact ⟨body, rfl, (encodedAs_commitBatch encoded limits).decode defaultAuthority written.epoch rest tracked⟩

end

end

/-- An accepted batch is read back, and nothing after its frame is touched, exactly when it is within
the sizes the decoder accepts. -/
theorem commitBatch_decodes_iff (ext : External) (authority defaultAuthority : MainWalRecordAuthority)
    (txId : UInt64) (actions : List Bytes) (frame : Bytes)
    (accepted : encodeMainWalRecordFrame ext (.txCommitBatch txId actions) authority = .ok frame)
    (epoch : authority.ownershipEpoch ≠ some 0) :
    (∀ rest, ∃ tracked, decodeMainWalRecordFrame ext walFileVersion defaultAuthority ⟨frame ++ rest, []⟩ =
        (.ok (some (authority, .txCommitBatch txId actions)), ⟨rest, tracked⟩)) ↔
      actions.length ≤ maxMainWalItems ∧ ∀ action ∈ actions, action.length ≤ maxMainWalPayload := by
  constructor
  · intro decodes
    by_contra excess
    obtain ⟨tracked, decoded⟩ := decodes []
    obtain ⟨message, s, failed⟩ := commitBatch_rejected defaultAuthority ⟨accepted, epoch⟩ excess [] []
    rw [failed] at decoded
    cases decoded
  · intro limits rest
    obtain ⟨body, -, decoded⟩ := commitBatch_decoded defaultAuthority ⟨accepted, epoch⟩ limits rest []
    exact ⟨body, decoded⟩

theorem commitBatch_decodes_iff_two_actions :
    ∃ frame, encodeMainWalRecordFrame .uncompressed (.txCommitBatch 9 [[1, 2], []]) ⟨4, some 5⟩ = .ok frame ∧
      ∀ rest, ∃ tracked, decodeMainWalRecordFrame .uncompressed walFileVersion ⟨1, none⟩ ⟨frame ++ rest, []⟩ =
          (.ok (some (⟨4, some 5⟩, .txCommitBatch 9 [[1, 2], []])), ⟨rest, tracked⟩) := by
  refine ⟨_, rfl, ?_⟩
  exact (commitBatch_decodes_iff .uncompressed ⟨4, some 5⟩ ⟨1, none⟩ 9 [[1, 2], []] _ rfl (by decide)).mpr (by decide)

theorem writeItems_small {items : List Bytes} (small : ∀ item ∈ items, item.length < 2 ^ 32) (label : String) :
    writeItems label items = .ok (items.flatMap framed) := by
  induction items with
  | nil => rfl
  | cons item items ih =>
    have first : writeBytes item label = .ok (framed item) := by
      simp only [writeBytes, writeU32Len, if_pos (small item mem_cons_self), framed]
      rfl
    rw [writeItems, first, ih fun b listed => small b (mem_cons_of_mem item listed)]
    rfl

/-- A batch of one action more than the decoder accepts is written and never read back. -/
theorem million_and_one_actions_lost : ∃ actions : List Bytes, actions.length = 1000001 ∧
      ∀ (ext : External) (defaultAuthority : MainWalRecordAuthority),
        ∃ frame, encodeMainWalRecordFrame ext (.txCommitBatch 1 actions) ⟨1, none⟩ = .ok frame ∧
          ∀ rest, Rejects (decodeMainWalRecordFrame ext walFileVersion defaultAuthority) ⟨frame ++ rest, []⟩ := by
  refine ⟨List.replicate 1000001 [], length_replicate, ?_⟩
  intro ext defaultAuthority
  have counted : (List.replicate 1000001 ([] : Bytes)).length = 1000001 := length_replicate
  have empty : ∀ action ∈ List.replicate 1000001 ([] : Bytes), action.length < 2 ^ 32 := by
    intro action listed
    rw [eq_of_mem_replicate listed]
    decide
  generalize List.replicate 1000001 ([] : Bytes) = actions at counted empty
  have accepted : ∃ frame, encodeMainWalRecordFrame ext (.txCommitBatch 1 actions) ⟨1, none⟩ = .ok frame := by
    have few : writeU32Len actions.length "main wal action count" = .ok (toLeBytes 4 actions.length) :=
      if_pos (by omega)
    have encoded : encodeBody ext (.txCommitBatch 1 actions) ⟨1, none⟩ =
        .ok (writeTypeAndAuthority .txCommitBatch ⟨1, none⟩ ++ u64Bytes 1 ++ toLeBytes 4 actions.length ++
          actions.flatMap framed) := by
      simp only [encodeBody, few, writeItems_small empty]
      rfl
    exact ⟨_, by rw [encodeMainWalRecordFrame, encoded]; rfl⟩
  obtain ⟨frame, accepted⟩ := accepted
  refine ⟨frame, accepted, fun rest => ?_⟩
  apply commitBatch_rejected defaultAuthority ⟨accepted, (Option.some_ne_none 0).symm⟩
  intro limits
  have fits := limits.1
  unfold maxMainWalItems at fits
  omega

end RedDB.Wal
