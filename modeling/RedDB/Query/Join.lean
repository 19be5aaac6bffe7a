import RedDB.Library.Buckets
import RedDB.Query.RuntimeValue

namespace RedDB.Query

open Library RedDB.Types List

inductive JoinType
  | inner
  | leftOuter
  | rightOuter
  | fullOuter
  | cross
  deriving DecidableEq

inductive RuntimeJoinKey
  | number (bits : BitVec 64)
  | boolean (b : Bool)
  | text (s : List Char)
  | identity (s : List Char)
  deriving DecidableEq

def runtimeJoinLookupKey (host : HostOps) (value : Value) : Option RuntimeJoinKey :=
  match runtimeValueNumber host value with
  | some number => some (.number number)
  | none =>
    match value with
    | .boolean b => some (.boolean b)
    | _ => (runtimeValueText host value).map .text

/-- What an equi-join reads of its records: the two join fields, the decryption of secrets during the query and
    the merging of records into output rows. -/
structure JoinSpec (Record Row : Type) where
  leftField : Record → Option Value
  rightField : Record → Option Value
  decrypt : List UInt8 → Option Value
  merge : Option Record → Option Record → Row

section

variable {Record Row : Type} (host : HostOps) (join : JoinSpec Record Row)

def JoinSpec.secretQueryInput : Value → Option Value
  | .secret sealed_ => join.decrypt sealed_
  | value => some value

def JoinSpec.leftValue (record : Record) : Option Value := (join.leftField record).bind join.secretQueryInput

def JoinSpec.rightValue (record : Record) : Option Value := (join.rightField record).bind join.secretQueryInput

/-- `compare_runtime_values` for equality. -/
def JoinSpec.compareEqual (left right : Value) : Bool :=
  if isSecret left || isSecret right then
    match join.secretQueryInput left, join.secretQueryInput right with
    | some left, some right => runtimeValuesEqual host left right
    | _, _ => false
  else runtimeValuesEqual host left right

def joinConditionMatches (left right : Record) : Bool :=
  match join.leftField left, join.rightField right with
  | some left, some right => join.compareEqual host left right
  | _, _ => false

def hashKey (value : Option Value) : List Char := (value.map (display host)).getD []

end

section

variable {Record Row : Type}

structure JoinState (Row : Type) where
  matchedRight : List Bool
  records : List Row

variable (join : JoinSpec Record Row)

def probe (accept : Record → Record → Bool) (right : List Record) (left : Record)
    (found : Bool × JoinState Row) (index : Nat) : Bool × JoinState Row :=
  match right[index]? with
  | some record =>
    if accept left record then
      (true, ⟨found.2.matchedRight.set index true, found.2.records ++ [join.merge (some left) (some record)]⟩)
    else found
  | none => found

def JoinType.keepsLeft : JoinType → Bool
  | .leftOuter => true
  | .fullOuter => true
  | _ => false

def JoinType.keepsRight : JoinType → Bool
  | .rightOuter => true
  | .fullOuter => true
  | _ => false

def joinLeft (joinType : JoinType) (accept : Record → Record → Bool)
    (candidates : Record → List Nat) (right : List Record) (state : JoinState Row) (left : Record) :
    JoinState Row :=
  let (matched, state) := (candidates left).foldl (probe join accept right left) (false, state)
  if !matched && joinType.keepsLeft then { state with records := state.records ++ [join.merge (some left) none] }
  else state

def crossJoinRecords (left right : List Record) : List Row :=
  left.flatMap fun l => right.map fun r => join.merge (some l) (some r)

/-- The loop that the executors share. They differ in the candidates they try for a left record and in whether
    a candidate is checked again. -/
def executeRuntimeJoin (joinType : JoinType) (accept : Record → Record → Bool)
    (candidates : Record → List Nat) (left right : List Record) : List Row :=
  if joinType = .cross then crossJoinRecords join left right
  else
    let state := left.foldl (joinLeft join joinType accept candidates right)
      ⟨replicate right.length false, []⟩
    if joinType.keepsRight then
      state.records ++
        ((state.matchedRight.zip right).filter (!·.1)).map fun (_, record) => join.merge none (some record)
    else state.records

variable (host : HostOps) (join : JoinSpec Record Row) (joinType : JoinType) (left right : List Record)

def executeRuntimeNestedLoopJoin : List Row :=
  executeRuntimeJoin join joinType (joinConditionMatches host join) (fun _ => range right.length) left right

def executeRuntimeHashJoin : List Row :=
  let hashTable := Buckets.ofKeys (right.map fun record => some (hashKey host (join.rightValue record)))
  executeRuntimeJoin join joinType (fun _ _ => true)
    (fun record => hashTable.find (hashKey host (join.leftValue record))) left right

def executeRuntimeIndexedJoin : List Row :=
  let rightIndex := Buckets.ofKeys
    (right.map fun record => (join.rightValue record).bind (runtimeJoinLookupKey host))
  executeRuntimeJoin join joinType (joinConditionMatches host join)
    (fun record =>
      match (join.leftValue record).bind (runtimeJoinLookupKey host) with
      | some key => rightIndex.find key
      | none => []) left right

end

section

variable {Record Row : Type} {join : JoinSpec Record Row} {joinType : JoinType} {left right : List Record}
  {accept acceptOther : Record → Record → Bool} {candidates candidatesOther : Record → List Nat}

def selected (accept : Record → Record → Bool) (candidates : Record → List Nat) (right : List Record)
    (record : Record) : List Nat :=
  (candidates record).filter fun index => (right[index]?).any (accept record)

theorem foldl_probe (accept : Record → Record → Bool) (record : Record) (found : Bool × JoinState Row) (indexes : List Nat) :
    indexes.foldl (probe join accept right record) found =
      (indexes.filter fun index => (right[index]?).any (accept record)).foldl
        (probe join (fun _ _ => true) right record) found := by
  rw [foldl_filter]
  congr 1
  funext found index
  unfold probe
  cases right[index]? with
  | none => simp
  | some other => cases taken : accept record other <;> simp [taken]

theorem executeRuntimeJoin_congr (same : ∀ record ∈ left, selected accept candidates right record =
      selected acceptOther candidatesOther right record) :
    executeRuntimeJoin join joinType accept candidates left right =
      executeRuntimeJoin join joinType acceptOther candidatesOther left right := by
  have loops : ∀ start : JoinState Row, left.foldl (joinLeft join joinType accept candidates right) start =
      left.foldl (joinLeft join joinType acceptOther candidatesOther right) start := by
    intro start
    apply foldl_ext
    intro state record member
    unfold joinLeft
    rw [foldl_probe accept, foldl_probe acceptOther]
    have chosen := same record member
    unfold selected at chosen
    rw [chosen]
  unfold executeRuntimeJoin
  simp only [loops]

end

end RedDB.Query
