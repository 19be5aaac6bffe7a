import RedDB.Storage.ValueSpec

namespace RedDB.Storage

open Library Program Page

variable {env : Env} {t t' : BTree} {pages : Multiset Page} {value stored : Bytes} {chain : List Page}

theorem result_of_wp {α : Type} {m : BTreeM α} {onOk : α → BTree → Prop} {onError : BTreeError → BTree → Prop}
    {a : α} (holds : wp m onOk onError t) (result : m t = (.ok a, t')) : onOk a t' := by
  rwa [wp, result] at holds

section

variable (cell : StoredAs env value stored chain)
include cell

theorem StoredAs.pointerHead_eq :
    encodeInlineWithoutPages env value = .ok (if (pointerHead stored).isSome then none else some stored) := by
  have small := cell.small
  cases cell with
  | inline encoded =>
    obtain ⟨flag, bytes, cell, -, -⟩ := decode_inline encoded
    simp [pointerHead, cell, encoded]
  | spilled large enough valid =>
    have length := valueCodecEncode_length env.lz4 value
    rw [pointerHead, decode_pointer _ (headD_lt valid) (lt_of_le_of_lt length (lt_of_small small)), large]
    rfl

theorem StoredAs.decodeWithBudget_eq (owns : t.store.Owns ValidPageId pageId (↑chain + pages)) (limit : Nat) :
    (heldBytes env value ≤ limit ∧ decodeWithBudget env stored limit t = (.ok value, t)) ∨
      (limit < heldBytes env value ∧ ∃ required, limit < required ∧
        decodeWithBudget env stored limit t = (.error (.readLimitExceeded required limit), t)) := by
  have holds : At t t.rootPageId t.rightmostLeaf (↑chain + pages) := ⟨owns, rfl, rfl⟩
  have outcome : wp (decodeWithBudget env stored limit)
      (fun read after => heldBytes env value ≤ limit ∧ read = value ∧ after = t)
      (fun e after => limit < heldBytes env value ∧ ∃ required, limit < required ∧
        e = .readLimitExceeded required limit ∧ after = t) t :=
    wp_decodeWithBudget holds cell (Multiset.le_add_right _ _) (fun covers => ⟨covers, rfl, rfl⟩)
      fun required excess more => ⟨excess, required, more, rfl, rfl⟩
  unfold wp at outcome
  rcases run : decodeWithBudget env stored limit t with ⟨e | read, after⟩ <;> rw [run] at outcome
  · obtain ⟨excess, required, more, rfl, rfl⟩ := outcome
    exact .inr ⟨excess, required, more, rfl⟩
  · obtain ⟨covers, rfl, rfl⟩ := outcome
    exact .inl ⟨covers, rfl⟩

theorem StoredAs.freeChainIfPointer_eq (owns : t.store.Owns ValidPageId pageId (↑chain + pages)) :
    ∃ freed, freeChainIfPointer stored t = (.ok (), freed) ∧ freed.store.Owns ValidPageId pageId pages := by
  have holds : At t t.rootPageId t.rightmostLeaf (↑chain + pages) := ⟨owns, rfl, rfl⟩
  have outcome : wp (freeChainIfPointer stored)
      (fun _ after => after.store.Owns ValidPageId pageId pages) (fun _ _ => False) t :=
    wp_freeChainIfPointer holds cell fun _ after => after.owns
  unfold wp at outcome
  rcases run : freeChainIfPointer stored t with ⟨e | _, freed⟩ <;> rw [run] at outcome
  · exact outcome.elim
  · exact ⟨freed, rfl, outcome⟩

end

theorem encode_storedAs (small : value.length ≤ maxValueSize) (owns : t.store.Owns ValidPageId pageId pages) :
    wp (encode env value)
      (fun stored after => ∃ chain, StoredAs env value stored chain ∧
        after.store.Owns ValidPageId pageId (↑chain + pages))
      (fun e _ => StoreFailure e) t := by
  have holds : At t t.rootPageId t.rightmostLeaf pages := ⟨owns, rfl, rfl⟩
  apply wp_encode holds
  · intro stored chain after cell held
    exact ⟨chain, cell, held.owns⟩
  · intro large
    exact absurd small (not_le.mpr large)
  · intro e after leaked failure _ _
    exact failure

theorem storedValue_readsBack (small : value.length ≤ maxValueSize) (owns : t.store.Owns ValidPageId pageId pages) :
    (∀ e t', encode env value t = (.error e, t') → StoreFailure e) ∧
    ∀ stored t', encode env value t = (.ok stored, t') →
      encodeInlineWithoutPages env value = .ok (if (pointerHead stored).isSome then none else some stored) ∧
      ∃ chain : List Page, t'.store.Owns ValidPageId pageId (↑chain + pages) ∧
        ∀ (later : BTree) (others : Multiset Page), later.store.Owns ValidPageId pageId (↑chain + others) →
          decodeWithBudget env stored usizeMax later = (.ok value, later) ∧
          (∀ limit, decodeWithBudget env stored limit later = (.ok value, later) ↔ heldBytes env value ≤ limit) ∧
          (∀ limit, limit < heldBytes env value → ∃ required, limit < required ∧
            decodeWithBudget env stored limit later = (.error (.readLimitExceeded required limit), later)) ∧
          ∃ freed, freeChainIfPointer stored later = (.ok (), freed) ∧
            freed.store.Owns ValidPageId pageId others := by
  have encoded := @encode_storedAs env t pages value small owns
  refine ⟨?_, ?_⟩
  · intro e t' failed
    rwa [wp, failed] at encoded
  · intro stored t' returned
    obtain ⟨chain, cell, held⟩ := result_of_wp encoded returned
    refine ⟨cell.pointerHead_eq, chain, held, ?_⟩
    intro later others owned
    have read (limit : Nat) := cell.decodeWithBudget_eq owned limit
    refine ⟨?_, ?_, ?_, cell.freeChainIfPointer_eq owned⟩
    · rcases read usizeMax with ⟨-, back⟩ | ⟨excess, -⟩
      · exact back
      · exact absurd (heldBytes_le env small) (not_le.mpr excess)
    · intro limit
      rcases read limit with ⟨covers, back⟩ | ⟨excess, required, -, refused⟩
      · exact ⟨fun _ => covers, fun _ => back⟩
      · refine ⟨fun back => ?_, fun covers => absurd covers (not_le.mpr excess)⟩
        rw [refused] at back
        cases congrArg Prod.fst back
    · intro limit excess
      rcases read limit with ⟨covers, -⟩ | ⟨-, refused⟩
      · exact absurd covers (not_le.mpr excess)
      · exact refused

/-- A store whose one live page is the leaf 1. -/
def leafStore : BTree :=
  { BTree.new (fun _ => none) with store := (BTree.new fun _ => none).store.allocate 1 (Page.new .bTreeLeaf 1) }

theorem leafStore_owns : leafStore.store.Owns ValidPageId pageId {Page.new .bTreeLeaf 1} :=
  (Heap.Owns.nil _).allocate (r := Page.new .bTreeLeaf 1) (by decide) (by decide)

theorem encode_spilled (long : value.length = 20000) :
    ∃ t', encode fileEnv value leafStore = (.ok (encodeBTreePointer 2 20000 false), t') := by
  have codec : valueCodecEncode fileEnv.lz4 value = (.raw, value) := by
    have nonempty : value ≠ [] := fun empty => by simp [empty] at long
    simp [valueCodecEncode, nonempty, fileEnv, storedLz4]
  have large : ¬ value.length > maxValueSize := by rw [long]; decide
  have packed : ¬ value.length ≤ compressionThreshold := by rw [long]; decide
  rw [encode, if_neg large, if_neg packed, codec]
  simp only [storeChain, long]
  exact ⟨_, rfl⟩

/-- A value of 20000 bytes spilled to pages 2 and 3 beside the live leaf. -/
theorem storedValue_readsBack_spilled : ∃ (t' : BTree) (chain : List Page),
    encode fileEnv (List.replicate 20000 7) leafStore = (.ok (encodeBTreePointer 2 20000 false), t') ∧
    encodeInlineWithoutPages fileEnv (List.replicate 20000 7) = .ok none ∧
    t'.store.Owns ValidPageId pageId (↑chain + {Page.new .bTreeLeaf 1}) ∧
    ∀ (later : BTree) (others : Multiset Page), later.store.Owns ValidPageId pageId (↑chain + others) →
      decodeWithBudget fileEnv (encodeBTreePointer 2 20000 false) usizeMax later =
        (.ok (List.replicate 20000 7), later) ∧
      (∃ required, 19999 < required ∧ decodeWithBudget fileEnv (encodeBTreePointer 2 20000 false) 19999 later =
        (.error (.readLimitExceeded required 19999), later)) ∧
      ∃ freed, freeChainIfPointer (encodeBTreePointer 2 20000 false) later = (.ok (), freed) ∧
        freed.store.Owns ValidPageId pageId others := by
  have long : (List.replicate 20000 7 : Bytes).length = 20000 := List.length_replicate
  obtain ⟨t', encoded⟩ := encode_spilled long
  obtain ⟨inline, chain, owned, reads⟩ := (storedValue_readsBack (by rw [long]; decide) leafStore_owns).2 _ t' encoded
  refine ⟨t', chain, encoded, inline, owned, fun later others owned => ?_⟩
  obtain ⟨back, -, refused, freed⟩ := reads later others owned
  have held := length_le_heldBytes fileEnv (List.replicate 20000 7)
  rw [long] at held
  exact ⟨back, refused 19999 held, freed⟩

end RedDB.Storage
