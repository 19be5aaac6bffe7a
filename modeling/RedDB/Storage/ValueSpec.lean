import RedDB.Storage.StoreSpec

namespace RedDB.Storage

open List Library Program Nat Page
open Multiset (cons_coe cons_add add_cons)

variable {t : BTree} {root : Nat} {cache : Option (Nat × Bytes)} {pages rest : Multiset Page}
  {onError : BTreeError → BTree → Prop} {env : Env}

section

theorem le_pagesNeeded_mul (len : Nat) : len ≤ pagesNeeded len * overflowPayloadPerPage := by
  simp only [pagesNeeded, overflowPayloadPerPage, contentSize, pageSize, headerSize]
  split <;> omega

theorem chainPages_length (pageIds : List Nat) (bytes : Bytes) :
    (chainPages pageIds bytes).length = pageIds.length := by
  induction pageIds generalizing bytes with
  | nil => rfl
  | cons pageId rest ih => simp [chainPages, ih]

theorem wp_allocateChain {onOk : List Nat → BTree → Prop} (n : Nat) (holds : At t root cache pages)
    (post : ∀ pageIds t', pageIds.length = n → (∀ pageId ∈ pageIds, ValidPageId pageId) →
      At t' root cache (↑(pageIds.map (new .overflow)) + pages) → onOk pageIds t')
    (failed : ∀ e t' leaked, StoreFailure e → OnlyOverflow leaked → At t' root cache (leaked + pages) → onError e t') :
    wp (allocateChain env n) onOk onError t := by
  induction n generalizing t pages onOk with
  | zero =>
    apply post [] t rfl
    · simp
    · simpa using holds
  | succ n ih =>
    simp only [allocateChain, wp_bind, wp_mapError]
    apply wp_allocatePage holds
    · intro pageId t₁ valid holds₁
      rw [wp_bind]
      apply ih holds₁
      · intro pageIds t₂ length valids holds₂
        apply post (pageId :: pageIds) t₂
        · rw [length_cons, length]
        · intro other member
          rcases mem_cons.mp member with rfl | member
          · exact valid
          · exact valids other member
        · apply holds₂.congr
          rw [map_cons, ← cons_coe, cons_add, add_cons]
      · intro e t₂ leaked failure overflow holds₂
        apply failed e t₂ (new .overflow pageId ::ₘ leaked) failure
        · intro page member
          rcases Multiset.mem_cons.mp member with rfl | member
          · rfl
          · exact overflow page member
        · apply holds₂.congr
          rw [cons_add, add_cons]
    · exact failed _ _ 0 trivial (by simp [OnlyOverflow]) (holds.congr (zero_add _).symm)

variable {onOk : Unit → BTree → Prop}

theorem wp_writeChain (pageIds : List Nat) (bytes : Bytes)
    (holds : At t root cache (↑(pageIds.map (new .overflow)) + pages))
    (post : ∀ t', At t' root cache (↑(chainPages pageIds bytes) + pages) → onOk () t') :
    wp (writeChain pageIds bytes) onOk onError t := by
  induction pageIds generalizing t pages bytes with
  | nil => exact post t holds
  | cons pageId rest ih =>
    simp only [writeChain, wp_bind]
    have front : At t root cache (new .overflow pageId ::ₘ (↑(rest.map (new .overflow)) + pages)) := by
      rwa [map_cons, ← cons_coe, cons_add] at holds
    refine wp_writePage front rfl rfl fun t₁ holds₁ => ?_
    apply ih (bytes.drop overflowPayloadPerPage) (holds₁.congr (add_cons _ _ _).symm)
    intro t₂ holds₂
    apply post
    apply holds₂.congr
    rw [chainPages, ← cons_coe, cons_add, add_cons]

theorem readChainHeader_overflowPage (pageId next : Nat) {chunk : Bytes}
    (fits : chunk.length ≤ overflowPayloadPerPage) :
    readChainHeader (overflowPage pageId next chunk) = .ok (next, chunk.length) := by
  have within : ¬ chunk.length > overflowPayloadPerPage := not_lt.mpr fits
  simp [readChainHeader, overflowPage, new, within]

theorem wp_readChain {onOk : Bytes → BTree → Prop} (pageIds : List Nat) (bytes out : Bytes) (fuel total : Nat)
    (holds : At t root cache pages) (stored : ∀ page ∈ chainPages pageIds bytes, page ∈ pages)
    (valid : ∀ pageId ∈ pageIds, ValidPageId pageId)
    (enough : bytes.length ≤ pageIds.length * overflowPayloadPerPage) (fuelled : pageIds.length < fuel)
    (sum : out.length + bytes.length = total) (post : onOk (out ++ bytes) t) :
    wp (readChain fuel (pageIds.headD 0) total out) onOk onError t := by
  induction pageIds generalizing bytes out fuel with
  | nil =>
    obtain rfl : bytes = [] := eq_nil_of_length_eq_zero (by simpa using enough)
    obtain ⟨fuel, rfl⟩ := exists_eq_succ_of_ne_zero (ne_of_gt fuelled)
    have read : out.length = total := by simpa using sum
    simpa [readChain, read] using post
  | cons pageId rest ih =>
    obtain ⟨fuel, rfl⟩ := exists_eq_succ_of_ne_zero (ne_of_gt (zero_lt_of_lt fuelled))
    have real : pageId ≠ 0 := (valid pageId (by simp)).1
    have chunk : (bytes.take overflowPayloadPerPage).length ≤ overflowPayloadPerPage := length_take_le _ _
    have cut : (bytes.take overflowPayloadPerPage).length + (bytes.drop overflowPayloadPerPage).length =
        bytes.length := by
      rw [← length_append, take_append_drop]
    simp only [headD_cons, readChain, real, if_false, wp_bind, wp_mapError]
    apply wp_readPage holds (stored _ (mem_cons_self)) rfl
    rw [readChainHeader_overflowPage _ _ chunk]
    simp only
    rw [if_neg (by omega)]
    apply ih (bytes.drop overflowPayloadPerPage) (out ++ bytes.take overflowPayloadPerPage)
    · exact fun page member => stored page (mem_cons_of_mem _ member)
    · exact fun id member => valid id (mem_cons_of_mem _ member)
    · rw [length_cons, succ_mul] at enough
      rw [length_drop]
      omega
    · simpa using fuelled
    · rw [length_append]
      omega
    · rwa [append_assoc, take_append_drop]

theorem wp_freeChain (pageIds : List Nat) (bytes : Bytes) (fuel : Nat) (first : Bool)
    (holds : At t root cache (↑(chainPages pageIds bytes) + pages))
    (valid : ∀ pageId ∈ pageIds, ValidPageId pageId) (fuelled : pageIds.length < fuel)
    (post : ∀ t', At t' root cache pages → onOk () t') :
    wp (freeChain fuel (pageIds.headD 0) first) onOk onError t := by
  induction pageIds generalizing t bytes fuel first with
  | nil =>
    obtain ⟨fuel, rfl⟩ := exists_eq_succ_of_ne_zero (ne_of_gt fuelled)
    simp only [headD_nil, freeChain, if_true, wp_pure]
    exact post t (by simpa [chainPages] using holds)
  | cons pageId rest ih =>
    obtain ⟨fuel, rfl⟩ := exists_eq_succ_of_ne_zero (ne_of_gt (zero_lt_of_lt fuelled))
    have real : pageId ≠ 0 := (valid pageId (by simp)).1
    have chunk : (bytes.take overflowPayloadPerPage).length ≤ overflowPayloadPerPage := length_take_le _ _
    rw [chainPages, ← cons_coe, cons_add] at holds
    simp only [headD_cons, freeChain, real, if_false, wp_bind, wp_mapError]
    apply wp_readPage holds (Multiset.mem_cons_self _ _) rfl
    have kind : (overflowPage pageId (rest.headD 0) (bytes.take overflowPayloadPerPage)).pageType = .overflow := rfl
    rw [readChainHeader_overflowPage _ _ chunk]
    simp only [kind, ne_eq, not_true, if_false]
    rw [wp_bind]
    apply wp_freePage holds rfl
    intro t₁ holds₁
    exact ih _ fuel false holds₁ (fun id member => valid id (mem_cons_of_mem _ member)) (by simpa using fuelled)

end

section

theorem decode_inlineRaw (value : Bytes) :
    decodeBTreeValueCell (encodeBTreeInlineRaw value) = .ok (.inline false value) := by
  simp [decodeBTreeValueCell, encodeBTreeInlineRaw]

theorem decode_inlineCompressed (bytes : Bytes) :
    decodeBTreeValueCell (encodeBTreeInlineCompressed bytes) = .ok (.inline true bytes) := by
  have flags : flagCompressed &&& ~~~(flagPointer ||| flagCompressed) = 0 := by decide
  have pointer : flagCompressed &&& flagPointer = 0 := by decide
  have compressed : flagCompressed ≠ 0 := by decide
  simp [decodeBTreeValueCell, encodeBTreeInlineCompressed, flags, pointer, compressed]

theorem decode_pointer {headPageId totalLen : Nat} (isCompressed : Bool) (head : headPageId < 2 ^ 32)
    (total : totalLen < 2 ^ 64) :
    decodeBTreeValueCell (encodeBTreePointer headPageId totalLen isCompressed) =
      .ok (.pointer isCompressed headPageId totalLen) := by
  have length : (toLeBytes 4 headPageId ++ toLeBytes 8 totalLen).length = pointerPayloadLen := by
    simp [pointerPayloadLen]
  have front : (toLeBytes 4 headPageId ++ toLeBytes 8 totalLen).take 4 = toLeBytes 4 headPageId :=
    take_left' (length_toLeBytes 4 headPageId)
  have back : (toLeBytes 4 headPageId ++ toLeBytes 8 totalLen).drop 4 = toLeBytes 8 totalLen :=
    drop_left' (length_toLeBytes 4 headPageId)
  have headRead : fromLeBytes (toLeBytes 4 headPageId) = headPageId := fromLeBytes_toLeBytes (by simpa using head)
  have totalRead : fromLeBytes (toLeBytes 8 totalLen) = totalLen := fromLeBytes_toLeBytes (by simpa using total)
  unfold encodeBTreePointer decodeBTreeValueCell
  simp only [length, front, back, headRead, totalRead, ne_eq, not_true, if_false]
  cases isCompressed <;> rfl

variable (lz4 : Lz4)

theorem valueCodecEncode_length (value : Bytes) : (valueCodecEncode lz4 value).2.length ≤ value.length := by
  unfold valueCodecEncode
  split
  · simp
  · split
    · simp only [length_append, length_toLeBytes]
      omega
    · exact le_rfl

theorem valueCodecEncode_cases (value : Bytes) :
    valueCodecEncode lz4 value = (.raw, value) ∨
      valueCodecEncode lz4 value = (.lz4, toLeBytes 4 value.length ++ lz4.compress value) := by
  unfold valueCodecEncode
  split
  · left
    simp [*]
  · split
    · exact .inr rfl
    · exact .inl rfl

theorem decodedLength_encoded {value : Bytes} (small : value.length ≤ maxValueSize) :
    decodedLength (valueCodecEncode lz4 value).1 (valueCodecEncode lz4 value).2 = .ok value.length := by
  have bound : value.length < 256 ^ 4 := by
    unfold maxValueSize at small
    omega
  rcases valueCodecEncode_cases lz4 value with encoded | encoded
  · simp [encoded, decodedLength]
  · have front : (toLeBytes 4 value.length ++ lz4.compress value).take 4 = toLeBytes 4 value.length :=
      take_left' (length_toLeBytes 4 _)
    simp only [encoded, decodedLength, front, fromLeBytes_toLeBytes bound, length_append, length_toLeBytes]
    rw [if_neg (by omega)]

theorem valueCodecDecode_encoded {value : Bytes} (small : value.length ≤ maxValueSize) :
    valueCodecDecode lz4 (valueCodecEncode lz4 value).1 (valueCodecEncode lz4 value).2 = .ok value := by
  have length := decodedLength_encoded lz4 small
  rcases valueCodecEncode_cases lz4 value with encoded | encoded
  · simp [encoded, valueCodecDecode]
  · rw [encoded] at length ⊢
    have back : (toLeBytes 4 value.length ++ lz4.compress value).drop 4 = lz4.compress value :=
      drop_left' (length_toLeBytes 4 _)
    simp only [valueCodecDecode, length, back, lz4.decompress_compress]

end

section

variable {value stored : Bytes} {chain : List Page}

theorem encodeInlineWithoutPages_small {cell : Option Bytes}
    (encoded : encodeInlineWithoutPages env value = .ok cell) : value.length ≤ maxValueSize := by
  unfold encodeInlineWithoutPages at encoded
  split at encoded
  · cases encoded
  · omega

theorem StoredAs.small (holds : StoredAs env value stored chain) : value.length ≤ maxValueSize := by
  cases holds with
  | inline cell => exact encodeInlineWithoutPages_small cell
  | spilled large => exact encodeInlineWithoutPages_small large

theorem encode_eq (env : Env) (value : Bytes) : encode env value = (match encodeInlineWithoutPages env value with
      | .error e => fail e
      | .ok (some stored) => pure stored
      | .ok none => do
        let (head, totalLen) ← storeChain env (valueCodecEncode env.lz4 value).2
        pure (encodeBTreePointer head totalLen ((valueCodecEncode env.lz4 value).1 = .lz4))) := by
  unfold encode encodeInlineWithoutPages
  split
  · rfl
  · split
    · rfl
    · simp only
      split <;> rfl

theorem encodeInlineWithoutPages_error {e : BTreeError} (failed : encodeInlineWithoutPages env value = .error e) :
    maxValueSize < value.length ∧ e = .valueTooLarge value.length := by
  unfold encodeInlineWithoutPages at failed
  split at failed
  · cases failed
    exact ⟨by assumption, rfl⟩
  · split at failed
    · cases failed
    · simp only at failed
      split at failed <;> cases failed

variable {onOk : Bytes → BTree → Prop}

theorem wp_encode (holds : At t root cache pages)
    (post : ∀ stored chain t', StoredAs env value stored chain → At t' root cache (↑chain + pages) → onOk stored t')
    (tooLarge : maxValueSize < value.length → onError (.valueTooLarge value.length) t)
    (failed : ∀ e t' leaked, StoreFailure e → OnlyOverflow leaked → At t' root cache (leaked + pages) → onError e t') :
    wp (encode env value) onOk onError t := by
  rw [encode_eq]
  rcases cell : encodeInlineWithoutPages env value with e | _ | stored
  · obtain ⟨large, rfl⟩ := encodeInlineWithoutPages_error cell
    exact tooLarge large
  · simp only [storeChain, wp_bind]
    apply wp_allocateChain _ holds
    · intro pageIds t₁ enough valid holds₁
      rw [wp_bind]
      apply wp_writeChain pageIds _ holds₁
      intro t₂ holds₂
      exact post _ _ t₂ (.spilled cell enough valid) holds₂
    · exact failed
  · exact post stored [] t (.inline cell) (by simpa using holds)

theorem lt_of_small (small : value.length ≤ maxValueSize) : value.length < 2 ^ 64 := by
  unfold maxValueSize at small
  omega

theorem headD_lt {pageIds : List Nat} (valid : ∀ pageId ∈ pageIds, ValidPageId pageId) :
    pageIds.headD 0 < 2 ^ 32 := by
  cases pageIds with
  | nil => simp
  | cons pageId rest => exact (valid pageId (by simp)).2

theorem At.chain_lt (holds : At t root cache pages) (owned : ↑chain ≤ pages) :
    chain.length < t.store.log.length + 1 := by
  have within := Multiset.card_le_card owned
  have logged := holds.owns.card_le
  rw [Multiset.coe_card] at within
  omega

theorem wp_checkReadBudget {onOk : Unit → BTree → Prop} {required limit : Nat} (post : required ≤ limit → onOk () t)
    (exceeded : limit < required → onError (.readLimitExceeded required limit) t) :
    wp (checkReadBudget required limit) onOk onError t := by
  unfold checkReadBudget
  split
  · next excess => exact exceeded excess
  · next within => exact post (not_lt.mp within)

theorem decode_inline (encoded : encodeInlineWithoutPages env value = .ok (some stored)) :
    ∃ flag bytes, decodeBTreeValueCell stored = .ok (.inline (flag = .lz4) bytes) ∧
      decodedLength flag bytes = .ok value.length ∧ valueCodecDecode env.lz4 flag bytes = .ok value := by
  have small := encodeInlineWithoutPages_small encoded
  unfold encodeInlineWithoutPages at encoded
  rw [if_neg (not_lt.mpr small)] at encoded
  split at encoded
  · obtain rfl : encodeBTreeInlineRaw value = stored := by simpa using encoded
    exact ⟨.raw, value, decode_inlineRaw value, rfl, rfl⟩
  · simp only at encoded
    split at encoded
    · obtain rfl : codecCell _ _ = stored := by simpa using encoded
      refine ⟨_, _, ?_, decodedLength_encoded env.lz4 small, valueCodecDecode_encoded env.lz4 small⟩
      rcases (valueCodecEncode env.lz4 value).1 with _ | _
      · exact decode_inlineRaw _
      · exact decode_inlineCompressed _
    · cases encoded

/-- The bytes that a read of the value holds at once. The chain of a compressed value is held together with
    the value. -/
def heldBytes (env : Env) (value : Bytes) : Nat :=
  match encodeInlineWithoutPages env value, (valueCodecEncode env.lz4 value).1 with
  | .ok none, .lz4 => (valueCodecEncode env.lz4 value).2.length + value.length
  | _, _ => value.length

theorem length_le_heldBytes (env : Env) (value : Bytes) : value.length ≤ heldBytes env value := by
  unfold heldBytes
  split
  · exact Nat.le_add_left _ _
  · exact le_rfl

theorem heldBytes_inline (encoded : encodeInlineWithoutPages env value = .ok (some stored)) :
    heldBytes env value = value.length := by
  simp [heldBytes, encoded]

theorem heldBytes_compressed (large : encodeInlineWithoutPages env value = .ok none)
    (flag : (valueCodecEncode env.lz4 value).1 = .lz4) :
    heldBytes env value = (valueCodecEncode env.lz4 value).2.length + value.length := by
  simp [heldBytes, large, flag]

theorem heldBytes_le (env : Env) {value : Bytes} (small : value.length ≤ maxValueSize) : heldBytes env value ≤ usizeMax := by
  have length := valueCodecEncode_length env.lz4 value
  unfold maxValueSize at small
  unfold heldBytes usizeMax
  split <;> omega

theorem wp_decodeWithBudget (holds : At t root cache pages)
    (cell : StoredAs env value stored chain) (owned : ↑chain ≤ pages) {limit : Nat}
    (post : heldBytes env value ≤ limit → onOk value t)
    (exceeded : ∀ required, limit < heldBytes env value → limit < required →
      onError (.readLimitExceeded required limit) t) :
    wp (decodeWithBudget env stored limit) onOk onError t := by
  have small := cell.small
  have bound := holds.chain_lt owned
  cases cell with
  | inline encoded =>
    obtain ⟨flag, bytes, cell, length, decoded⟩ := decode_inline encoded
    have named : (if decide (flag = .lz4) = true then ValueFlag.lz4 else .raw) = flag := by cases flag <;> rfl
    have held := heldBytes_inline encoded
    unfold decodeWithBudget
    rw [cell]
    simp only [named, length, decoded, codecLift, wp_bind, wp_pure]
    exact wp_checkReadBudget (fun within => post (held ▸ within)) fun excess => exceeded _ (held ▸ excess) excess
  | @spilled pageIds large enough valid =>
    have length := valueCodecEncode_length env.lz4 value
    have decodedLen := decodedLength_encoded env.lz4 small
    have decoded := valueCodecDecode_encoded env.lz4 small
    have space := le_pagesNeeded_mul (valueCodecEncode env.lz4 value).2.length
    have atLeast := length_le_heldBytes env value
    rw [← enough] at space
    rw [chainPages_length] at bound
    unfold decodeWithBudget
    rw [decode_pointer _ (headD_lt valid) (lt_of_le_of_lt length (lt_of_small small))]
    simp only [wp_bind]
    refine wp_checkReadBudget (fun covered => ?_) fun excess => exceeded _ (by omega) excess
    rw [wp_bind]
    apply wp_of_eq (m := chainBound) rfl
    rw [wp_bind]
    apply wp_readChain pageIds (valueCodecEncode env.lz4 value).2 []
    · exact holds
    · exact fun page member => Multiset.mem_of_le owned member
    · exact valid
    · exact space
    · exact bound
    · exact zero_add _
    · rw [nil_append]
      rcases flag : (valueCodecEncode env.lz4 value).1 with _ | _
      · have held : heldBytes env value = value.length := by simp [heldBytes, large, flag]
        rw [flag] at decoded
        simp only [valueCodecDecode, Except.ok.injEq] at decoded
        have within : heldBytes env value ≤ limit := by rwa [held, ← decoded]
        simpa [decoded] using post within
      · have held := heldBytes_compressed large flag
        have most := heldBytes_le env small
        rw [flag] at decodedLen decoded
        simp only [decide_true, if_true, decodedLen, decoded, codecLift, wp_bind, wp_pure]
        rw [held] at most
        rw [min_eq_left most, ← held]
        exact wp_checkReadBudget post fun excess => exceeded _ excess excess

theorem wp_freeChainIfPointer {onOk : Unit → BTree → Prop} (holds : At t root cache (↑chain + pages))
    (cell : StoredAs env value stored chain) (post : ∀ t', At t' root cache pages → onOk () t') :
    wp (freeChainIfPointer stored) onOk onError t := by
  have small := cell.small
  have bound := holds.chain_lt (Multiset.le_add_right _ _)
  cases cell with
  | inline encoded =>
    obtain ⟨flag, bytes, cell, -, -⟩ := decode_inline encoded
    unfold freeChainIfPointer pointerHead
    rw [cell]
    exact post t (by simpa using holds)
  | @spilled pageIds large enough valid =>
    have length := valueCodecEncode_length env.lz4 value
    unfold freeChainIfPointer pointerHead
    rw [decode_pointer _ (headD_lt valid) (lt_of_le_of_lt length (lt_of_small small))]
    rw [chainPages_length] at bound
    simp only [wp_bind]
    apply wp_of_eq (m := chainBound) rfl
    exact wp_freeChain pageIds _ _ true holds valid bound post

end

end RedDB.Storage
