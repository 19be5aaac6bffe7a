import RedDB.Query.RuntimeOrder

namespace RedDB.Query

open List Library RedDB.Types

inductive JoinContent
  | whole (n : Int)
  | quoted (s : List Char)
  | raw (s : List Char)
  | truth (b : Bool)
  | node (s : List Char)
  | edge (s : List Char)
  | table (s : List Char)
  deriving DecidableEq

def joinContent : Value → Option JoinContent
  | .integer v => some (.whole v.toInt)
  | .unsignedInteger v => some (.whole v.toNat)
  | .bigInt v => some (.whole v.toInt)
  | .text s => some (.quoted s.toList)
  | .email s => some (.raw s.toList)
  | .url s => some (.raw s.toList)
  | .assetCode s => some (.raw s.toList)
  | .decimalText s => some (.raw s.toList)
  | .boolean b => some (.truth b)
  | .nodeRef s => some (.node s.toList)
  | .edgeRef s => some (.edge s.toList)
  | .tableRef s => some (.table s.toList)
  | _ => none

namespace JoinContent

def sameClass : JoinContent → JoinContent → Bool
  | .whole _, .whole _ => true
  | .quoted _, .quoted _ => true
  | .raw _, .raw _ => true
  | .truth _, .truth _ => true
  | .node _, .node _ => true
  | .edge _, .edge _ => true
  | .table _, .table _ => true
  | _, _ => false

def shown : JoinContent → List Char
  | .whole n => integerText n
  | .quoted s => quote :: s ++ [quote]
  | .raw s => s
  | .truth b => booleanText b
  | .node s => "node:".toList ++ s
  | .edge s => "edge:".toList ++ s
  | .table s => "table_ref:".toList ++ s

def lookupKey (host : HostOps) : JoinContent → RuntimeJoinKey
  | .whole n => .number (host.floatOfInt n)
  | .truth b => .boolean b
  | .quoted s => .text s
  | .raw s => .text s
  | .node s => .text s
  | .edge s => .text s
  | .table s => .text s

def text : JoinContent → Option (List Char)
  | .whole _ => none
  | .truth b => some (booleanText b)
  | .quoted s => some s
  | .raw s => some s
  | .node s => some s
  | .edge s => some s
  | .table s => some s

theorem booleanText_injective : Function.Injective booleanText := by decide

def readInteger : List Char → Int
  | '-' :: ds => -(digitsValue ds : Int)
  | ds => digitsValue ds

theorem readInteger_integerText (n : Int) : readInteger (integerText n) = n := by
  obtain ⟨digits, value, nonempty⟩ := decimalDigits_spec n.natAbs
  unfold integerText
  split_ifs with negative
  · rw [singleton_append, readInteger, value]
    omega
  · rw [nil_append]
    cases shape : decimalDigits n.natAbs with
    | nil => exact absurd shape nonempty
    | cons c rest =>
      have digit : c.isDigit = true := digits c (shape ▸ mem_cons_self)
      unfold readInteger
      split
      · next same =>
        rw [(List.cons.inj same).1] at digit
        cases digit
      · rw [← shape, value]
        omega

theorem shown_eq_iff {c d : JoinContent} (same : c.sameClass d = true) : c.shown = d.shown ↔ c = d := by
  refine ⟨fun equal => ?_, fun equal => by rw [equal]⟩
  cases c <;> cases d <;> first | (cases same; done) | skip
  · exact congrArg whole (Function.LeftInverse.injective readInteger_integerText equal)
  · exact congrArg quoted (append_cancel_right (List.cons.inj equal).2)
  · exact congrArg raw equal
  · exact congrArg truth (booleanText_injective equal)
  · exact congrArg node (append_cancel_left equal)
  · exact congrArg edge (append_cancel_left equal)
  · exact congrArg table (append_cancel_left equal)

theorem text_eq_iff {c d : JoinContent} {s t : List Char} (same : c.sameClass d = true) (text : c.text = some s)
    (textOther : d.text = some t) : s = t ↔ c = d := by
  cases c <;> cases d <;> first
    | (cases same; done)
    | (cases text; done)
    | (cases text; cases textOther)
  case truth.truth => simp [booleanText_injective.eq_iff]
  all_goals simp

theorem shown_ne_nil {c : JoinContent} (some_ : c ≠ .raw []) : c.shown ≠ [] := by
  cases c with
  | whole n => exact append_ne_nil_of_right_ne_nil _ (decimalDigits_spec n.natAbs).2.2
  | quoted s => exact cons_ne_nil _ _
  | raw s => exact fun empty => some_ (congrArg raw empty)
  | truth b => cases b <;> decide
  | node s | edge s | table s => exact append_ne_nil_of_left_ne_nil (by decide) s

end JoinContent

section

variable (host : HostOps) {a b : Value} {c d : JoinContent}

theorem display_eq (content : joinContent a = some c) : display host a = c.shown := by
  cases a <;> first | (cases content; done) | (cases content; rfl)

theorem runtimeJoinLookupKey_eq (content : joinContent a = some c) :
    runtimeJoinLookupKey host a = some (c.lookupKey host) := by
  cases a <;> first | (cases content; done) | (cases content; rfl)

theorem runtimeValueText_of_str {s : List Char} (text : runtimeValueTextStr a = some s) :
    runtimeValueText host a = some s := by
  cases a <;> first | (cases text; done) | exact text

theorem runtimeValuesEqual_text {s t : List Char} (plain : signedValue a = none) (plain' : unsignedValue a = none)
    (word : runtimeValueNumber host a = none) (text : runtimeValueText host a = some s)
    (textOther : runtimeValueText host b = some t) : runtimeValuesEqual host a b = (s == t) := by
  have inexact : runtimeExactIntegerCmp a b = none := by
    unfold runtimeExactIntegerCmp
    rw [plain, plain']
  unfold runtimeValuesEqual
  rw [inexact, word, text, textOther]
  simp only
  cases held : runtimeValueTextStr a with
  | none => rfl
  | some l =>
    cases heldOther : runtimeValueTextStr b with
    | none => rfl
    | some r =>
      rw [runtimeValueText_of_str host held] at text
      rw [runtimeValueText_of_str host heldOther] at textOther
      cases text
      cases textOther
      rfl

theorem runtimeValuesEqual_whole {m n : Int} (content : joinContent a = some (.whole m))
    (contentOther : joinContent b = some (.whole n)) : runtimeValuesEqual host a b = decide (m = n) := by
  have whole {v : Value} {k : Int} (content : joinContent v = some (.whole k)) : wholeValue v = some k := by
    cases v <;> first | (cases content; done) | (cases content; rfl)
  unfold runtimeValuesEqual
  rw [runtimeExactIntegerCmp_whole (whole content) (whole contentOther), Bool.eq_iff_iff, beq_iff_eq,
    compare_eq_iff_eq, decide_eq_true_eq]

theorem textual {s : List Char} (content : joinContent a = some c) (text : c.text = some s) :
    signedValue a = none ∧ unsignedValue a = none ∧ runtimeValueNumber host a = none ∧
      runtimeValueText host a = some s := by
  cases a <;> first
    | (cases content; done)
    | (cases content; cases text; done)
    | (cases content; cases text; exact ⟨rfl, rfl, rfl, rfl⟩)

theorem runtimeValuesEqual_content (content : joinContent a = some c) (contentOther : joinContent b = some d)
    (same : c.sameClass d = true) : runtimeValuesEqual host a b = decide (c = d) := by
  cases text : c.text with
  | none =>
    cases c <;> first | (cases text; done) | skip
    cases d <;> first | (cases same; done) | skip
    rw [runtimeValuesEqual_whole host content contentOther]
    exact decide_eq_decide.mpr (by simp)
  | some s =>
    cases textOther : d.text with
    | none =>
      cases d <;> first | (cases textOther; done) | skip
      cases c <;> first | (cases same; done) | cases text
    | some t =>
      obtain ⟨signed, unsigned, word, held⟩ := textual host content text
      rw [runtimeValuesEqual_text host signed unsigned word held (textual host contentOther textOther).2.2.2]
      rw [Bool.eq_iff_iff, beq_iff_eq, decide_eq_true_eq]
      exact JoinContent.text_eq_iff same text textOther

end

/-- Both join fields hold keys of one class, or one of them is missing and the other does not display as the
    empty text. -/
def agreeable (left right : Option Value) : Bool :=
  match left, right with
  | some a, some b =>
    match joinContent a, joinContent b with
    | some c, some d => c.sameClass d
    | _, _ => false
  | some a, none => (joinContent a).any (· ≠ .raw [])
  | none, some b => (joinContent b).any (· ≠ .raw [])
  | none, none => false

section

variable {Record Row : Type} (host : HostOps) (join : JoinSpec Record Row)

theorem secretQueryInput_of_not_secret {value : Value} (plain : isSecret value = false) :
    join.secretQueryInput value = some value := by
  unfold JoinSpec.secretQueryInput
  split
  · cases plain
  · rfl

theorem joinConditionMatches_eq (left right : Record) : joinConditionMatches host join left right =
      match join.leftValue left, join.rightValue right with
      | some a, some b => runtimeValuesEqual host a b
      | _, _ => false := by
  unfold joinConditionMatches JoinSpec.leftValue JoinSpec.rightValue
  cases join.leftField left with
  | none => rfl
  | some a =>
    cases join.rightField right with
    | none => cases decrypted : join.secretQueryInput a <;> simp [decrypted]
    | some b =>
      simp only [JoinSpec.compareEqual, Option.bind_some]
      split_ifs with sealed_
      · rfl
      · rw [Bool.not_eq_true, Bool.or_eq_false_iff] at sealed_
        rw [secretQueryInput_of_not_secret join sealed_.1, secretQueryInput_of_not_secret join sealed_.2]

theorem any_ne_raw {a : Value} (keyed : (joinContent a).any (· ≠ .raw []) = true) :
    ∃ c, joinContent a = some c ∧ c ≠ .raw [] := by
  cases content : joinContent a with
  | none => rw [content] at keyed; cases keyed
  | some c =>
    rw [content] at keyed
    exact ⟨c, rfl, by simpa using keyed⟩

theorem hashKey_some {a : Value} {c : JoinContent} (content : joinContent a = some c) :
    hashKey host (some a) = c.shown := display_eq host content

/-- The condition accepts the two records exactly if their hash keys are equal, and then they have a lookup key in
    common. -/
def KeysAgree (left right : Record) : Prop :=
  (joinConditionMatches host join left right = true ↔
    hashKey host (join.rightValue right) = hashKey host (join.leftValue left)) ∧
  (joinConditionMatches host join left right = true → (join.rightValue right).bind (runtimeJoinLookupKey host) =
      (join.leftValue left).bind (runtimeJoinLookupKey host) ∧
    (join.leftValue left).bind (runtimeJoinLookupKey host) ≠ none)

theorem keysAgree_of_agreeable {left right : Record}
    (agree : agreeable (join.leftValue left) (join.rightValue right) = true) : KeysAgree host join left right := by
  unfold KeysAgree
  rw [joinConditionMatches_eq]
  cases leftValue : join.leftValue left with
  | none =>
    rw [leftValue] at agree
    cases rightValue : join.rightValue right with
    | none => rw [rightValue] at agree; cases agree
    | some b =>
      rw [rightValue] at agree
      obtain ⟨d, content, keyed⟩ := any_ne_raw agree
      refine ⟨⟨fun impossible => absurd impossible (by simp), fun same => ?_⟩, fun impossible => absurd impossible (by simp)⟩
      rw [hashKey_some host content] at same
      exact absurd same (JoinContent.shown_ne_nil keyed)
  | some a =>
    rw [leftValue] at agree
    cases rightValue : join.rightValue right with
    | none =>
      rw [rightValue] at agree
      obtain ⟨c, content, keyed⟩ := any_ne_raw agree
      refine ⟨⟨fun impossible => absurd impossible (by simp), fun same => ?_⟩, fun impossible => absurd impossible (by simp)⟩
      rw [hashKey_some host content] at same
      exact absurd same.symm (JoinContent.shown_ne_nil keyed)
    | some b =>
      rw [rightValue] at agree
      simp only [agreeable] at agree
      split at agree
      · next c d content contentOther =>
        simp only [runtimeValuesEqual_content host content contentOther agree, decide_eq_true_eq,
          hashKey_some host content, hashKey_some host contentOther, Option.bind_some,
          runtimeJoinLookupKey_eq host content, runtimeJoinLookupKey_eq host contentOther]
        refine ⟨?_, fun same => ⟨by rw [same], by simp⟩⟩
        rw [eq_comm (a := d.shown), JoinContent.shown_eq_iff agree]
      · cases agree

theorem selected_eq {accept : Record → Record → Bool} {candidates : Record → List Nat} {left : Record}
    {right : List Record} (chosen : Nat → Bool)
    (listed : candidates left = (List.range right.length).filter chosen)
    (agree : ∀ index record, right[index]? = some record →
      ((chosen index && accept left record) = joinConditionMatches host join left record)) :
    selected (joinConditionMatches host join) (fun _ => List.range right.length) right left =
      selected accept candidates right left := by
  unfold selected
  rw [listed, filter_filter]
  apply filter_congr
  intro index member
  obtain ⟨record, held⟩ : ∃ record, right[index]? = some record := ⟨_, getElem?_eq_getElem (mem_range.mp member)⟩
  rw [held, Option.any_some, Option.any_some, ← agree index record held, Bool.and_comm]

section

variable {left right : List Record} (agree : ∀ l ∈ left, ∀ r ∈ right, KeysAgree host join l r) (joinType : JoinType)
include agree

theorem hashJoin_eq : executeRuntimeNestedLoopJoin host join joinType left right =
    executeRuntimeHashJoin host join joinType left right := by
  refine executeRuntimeJoin_congr fun l member => ?_
  refine selected_eq host join _ (Buckets.find_ofKeys _ _ |>.trans (by rw [length_map])) fun index r held => ?_
  obtain ⟨decides, -⟩ := agree l member r (mem_of_getElem? held)
  rw [Bool.and_true, Bool.eq_iff_iff, decide_eq_true_eq, decides, getElem?_map, held]
  simp

theorem indexedJoin_eq : executeRuntimeNestedLoopJoin host join joinType left right =
    executeRuntimeIndexedJoin host join joinType left right := by
  refine executeRuntimeJoin_congr fun l member => ?_
  cases key : (join.leftValue l).bind (runtimeJoinLookupKey host) with
  | none =>
    refine selected_eq host join (fun _ => false) (by simp [key]) fun index r held => ?_
    obtain ⟨-, keeps⟩ := agree l member r (mem_of_getElem? held)
    rw [Bool.false_and, Eq.comm, ← Bool.not_eq_true]
    exact fun matched => (keeps matched).2 key
  | some k =>
    have listed := Buckets.find_ofKeys
      (right.map fun record => (join.rightValue record).bind (runtimeJoinLookupKey host)) k
    rw [length_map] at listed
    refine selected_eq host join _ (by simp only [key]; exact listed) fun index r held => ?_
    obtain ⟨-, keeps⟩ := agree l member r (mem_of_getElem? held)
    rw [getElem?_map, held, Option.map_some, Bool.and_eq_right_iff_imp]
    intro matched
    rw [(keeps matched).1, key]
    exact decide_eq_true rfl

end

theorem innerJoin_single (accept : Record → Record → Bool) (candidates : Record → List Nat) (chosen : Nat → Bool)
    (l r : Record) (listed : candidates l = (List.range 1).filter chosen) :
    executeRuntimeJoin join .inner accept candidates [l] [r] =
      if chosen 0 && accept l r then [join.merge (some l) (some r)] else [] := by
  cases first : chosen 0 <;> cases taken : accept l r <;>
    simp [executeRuntimeJoin, joinLeft, probe, listed, first, taken, JoinType.keepsLeft, JoinType.keepsRight,
      List.range_succ]

theorem keysAgree_of_perm {l r : Record}
    (hashed : (executeRuntimeNestedLoopJoin host join .inner [l] [r]).Perm
      (executeRuntimeHashJoin host join .inner [l] [r]))
    (indexed : (executeRuntimeNestedLoopJoin host join .inner [l] [r]).Perm
      (executeRuntimeIndexedJoin host join .inner [l] [r])) : KeysAgree host join l r := by
  have nested : executeRuntimeNestedLoopJoin host join .inner [l] [r] =
      if joinConditionMatches host join l r then [join.merge (some l) (some r)] else [] :=
    innerJoin_single join _ _ (fun _ => true) l r (by simp)
  have byHash : executeRuntimeHashJoin host join .inner [l] [r] =
      if hashKey host (join.rightValue r) = hashKey host (join.leftValue l) then [join.merge (some l) (some r)]
      else [] := by
    refine (innerJoin_single join _ _ _ l r (Buckets.find_ofKeys _ _)).trans ?_
    simp
  have byIndex : ((join.rightValue r).bind (runtimeJoinLookupKey host) =
        (join.leftValue l).bind (runtimeJoinLookupKey host) ∧
      (join.leftValue l).bind (runtimeJoinLookupKey host) ≠ none) ∨
      executeRuntimeIndexedJoin host join .inner [l] [r] = [] := by
    cases key : (join.leftValue l).bind (runtimeJoinLookupKey host) with
    | none =>
      right
      refine (innerJoin_single join _ _ (fun _ => false) l r (by simp [key])).trans ?_
      simp
    | some k =>
      by_cases same : (join.rightValue r).bind (runtimeJoinLookupKey host) = some k
      · exact .inl ⟨same, by simp⟩
      · right
        refine (innerJoin_single join _ _ _ l r (by simp only [key]; exact Buckets.find_ofKeys _ _)).trans ?_
        simp [same]
  rw [nested, byHash] at hashed
  constructor
  · by_cases matched : joinConditionMatches host join l r = true <;>
      by_cases same : hashKey host (join.rightValue r) = hashKey host (join.leftValue l) <;>
      simp_all
  · intro matched
    rcases byIndex with shared | none
    · exact shared
    · rw [nested, if_pos matched, none] at indexed
      exact absurd indexed.length_eq (by simp)

def fieldJoin : JoinSpec (Option Value) (Option (Option Value) × Option (Option Value)) where
  leftField := id
  rightField := id
  decrypt _ := none
  merge l r := (l, r)

end

end RedDB.Query
