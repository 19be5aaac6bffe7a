import RedDB.Library.Digits
import RedDB.Operational.ForkPaths

namespace RedDB.Operational

open List Library

variable {collection : String} {id : Nat}

theorem paddedId_spec (id : Nat) : AllDigits (paddedId id).toList ∧ digitsValue (paddedId id).toList = id := by
  obtain ⟨digits, value, -⟩ := decimalDigits_spec id
  have whole : (paddedId id).toList = replicate (12 - (toString id).length) '0' ++ decimalDigits id := by
    rw [paddedId, String.toList_append, String.toList_ofList]
    exact congrArg _ String.toList_ofList
  rw [whole]
  generalize 12 - (toString id).length = width
  constructor
  · intro c member
    rcases mem_append.mp member with padding | digit
    · rw [eq_of_mem_replicate padding]
      rfl
    · exact digits c digit
  · induction width with
    | zero => exact value
    | succ width ih => rw [replicate_succ, cons_append, digitsValue_zero_cons, ih]

theorem dash_notMem_paddedId : '-' ∉ (paddedId id).toList :=
  fun member => absurd ((paddedId_spec id).1 _ member) (by decide)

theorem slash_notMem_escapeByte (b : UInt8) : '/' ∉ escapeByte b := by
  have table : ∀ n : Fin 256, '/' ∉ escapeByte (UInt8.ofNat n) := by decide +kernel
  simpa using table ⟨b.toNat, b.toNat_lt⟩

theorem slash_notMem_sanitizeComponent (name : String) : '/' ∉ (sanitizeComponent name).toList := by
  rw [sanitizeComponent, String.toList_ofList, mem_flatMap]
  rintro ⟨b, -, member⟩
  exact slash_notMem_escapeByte b member

theorem toList_segmentFileName : (appendOnlySegmentFileName collection id).toList =
    (sanitizeComponent collection).toList ++ '-' :: ((paddedId id).toList ++ ".raos".toList) := by
  simp [appendOnlySegmentFileName]

/-- The name is read from its end: the id has no dash, so the last dash is the one before it. -/
theorem append_dash_inj {a b x y : List Char} (clear : '-' ∉ x) (clearOther : '-' ∉ y)
    (same : a ++ '-' :: x = b ++ '-' :: y) : a = b ∧ x = y := by
  rcases append_eq_append_iff.mp same with ⟨c, rfl, rest⟩ | ⟨c, rfl, rest⟩
  · cases c with
    | nil => simpa using rest
    | cons d c =>
      obtain ⟨-, rfl⟩ := cons.inj rest
      simp at clear
  · cases c with
    | nil => simpa using rest.symm
    | cons d c =>
      obtain ⟨-, rfl⟩ := cons.inj rest
      simp at clearOther

theorem segmentFileName_inj {other : String} {later : Nat}
    (same : appendOnlySegmentFileName collection id = appendOnlySegmentFileName other later) :
    collection = other ∧ id = later := by
  have chars := congrArg String.toList same
  rw [toList_segmentFileName, toList_segmentFileName, ← cons_append, ← cons_append, ← append_assoc, ← append_assoc] at chars
  obtain ⟨names, ids⟩ := append_dash_inj dash_notMem_paddedId dash_notMem_paddedId (append_cancel_right chars)
  refine ⟨sanitizeComponent_injective (String.toList_injective names), ?_⟩
  rw [← (paddedId_spec id).2, ids, (paddedId_spec later).2]

/-- Every artifact has a file name of its own, and the name is one ordinary path component. -/
theorem artifactNames_injective :
    Function.Injective collectionFileName ∧
    (∀ collection other id later, appendOnlySegmentFileName collection id = appendOnlySegmentFileName other later →
      collection = other ∧ id = later) ∧
    (∀ name collection id, collectionFileName name ≠ appendOnlySegmentFileName collection id) ∧
    (∀ name, Ordinary (collectionFileName name) ∧ '/' ∉ (collectionFileName name).toList) ∧
    ∀ collection id, Ordinary (appendOnlySegmentFileName collection id) ∧
      '/' ∉ (appendOnlySegmentFileName collection id).toList := by
  refine ⟨fun name other same => ?_, fun _ _ _ _ => segmentFileName_inj, fun name collection id same => ?_,
    fun name => ⟨ordinary_collectionFileName name, ?_⟩, fun collection id => ⟨ordinary_append _ (by decide), ?_⟩⟩
  · have chars := congrArg String.toList same
    rw [collectionFileName, collectionFileName, String.toList_append, String.toList_append] at chars
    exact sanitizeComponent_injective (String.toList_injective (append_cancel_right chars))
  · have last := congrArg (fun s => s.getLast?) (congrArg String.toList same)
    rw [toList_segmentFileName, ← cons_append, ← append_assoc, collectionFileName, String.toList_append,
      getLast?_append_of_ne_nil _ (by decide), getLast?_append_of_ne_nil _ (by decide)] at last
    exact absurd last (by decide)
  · rw [collectionFileName, String.toList_append, mem_append, not_or]
    exact ⟨slash_notMem_sanitizeComponent name, by decide⟩
  · rw [toList_segmentFileName, mem_append, mem_cons, mem_append, not_or, not_or, not_or]
    refine ⟨slash_notMem_sanitizeComponent collection, by decide, fun digit => ?_, by decide⟩
    exact absurd ((paddedId_spec id).1 _ digit) (by decide)

end RedDB.Operational
