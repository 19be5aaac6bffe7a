import RedDB.Query.Entity

namespace RedDB.Query

open RedDB.Types

/-- What the generic evaluator takes from elsewhere: decryption, the leaf predicates on values, and with a
    database at hand the evaluation of expressions on the entity's record. -/
structure FilterHost (Expr ε : Type) extends EntityHost where
  trySecretQueryInput : Value → Except ε (Option Value)
  queryError : String → ε
  compareRuntimeValues : Value → Value → CompareOp → Bool
  runtimeValueText : Value → Option String
  likeMatches : String → String → Bool
  runtimeValueContains : Value → String → Bool
  evaluateRecord : Option (UnifiedEntity → Filter Expr → String → String → Except ε Bool)

variable {Expr ε : Type} (host : FilterHost Expr ε)

def jsonMaxNestingDepth : Nat := 128

def trySecretRuntimeInput : Nat → Value → Except ε (Option Value)
  | 0, value =>
    if isSecret value then .error (host.queryError "secret value nesting limit exceeded") else .ok (some value)
  | depth + 1, value =>
    if ¬ isSecret value then .ok (some value)
    else do
      match ← host.trySecretQueryInput value with
      | none => .ok none
      | some decoded => trySecretRuntimeInput depth decoded

def secretInput (value : Value) : Except ε (Option Value) := trySecretRuntimeInput host jsonMaxNestingDepth value

def tryCompareRuntimeValues (left right : Value) (op : CompareOp) : Except ε Bool := do
  match ← secretInput host left with
  | none => .ok false
  | some left =>
    match ← secretInput host right with
    | none => .ok false
    | some right => .ok (host.compareRuntimeValues left right op)

def isNullValue : Value → Bool
  | .null => true
  | _ => false

section

variable (entity : UnifiedEntity) (tableName tableAlias : String)

def tryResolveEntityFilterField (field : FieldRef) : Except ε (Option Value) :=
  match resolveEntityField host.toEntityHost entity field tableName tableAlias with
  | some value => if isSecret value then secretInput host value else .ok (some value)
  | none => .ok none

def onCandidate (field : FieldRef) (test : Value → Except ε Bool) : Except ε Bool := do
  match ← tryResolveEntityFilterField host entity tableName tableAlias field with
  | none => .ok false
  | some candidate => test candidate

/-- `runtime_value_text_cow`, then a test of the text. -/
def textTest (test : String → Bool) (value : Value) : Except ε Bool := .ok ((host.runtimeValueText value).any test)

def anyEqual (candidate : Value) : List Value → Except ε Bool
  | [] => .ok false
  | value :: values => do
    if ← tryCompareRuntimeValues host candidate value .eq then .ok true else anyEqual candidate values

/-- `evaluate_entity_filter_result_with_db`. -/
def evaluateEntityFilterResult : Filter Expr → Except ε Bool
  | .compare field op value =>
    onCandidate host entity tableName tableAlias field fun candidate =>
      tryCompareRuntimeValues host candidate value op
  | .compareFields left op right => do
    let leftVal ← tryResolveEntityFilterField host entity tableName tableAlias left
    let rightVal ← tryResolveEntityFilterField host entity tableName tableAlias right
    match leftVal, rightVal with
    | some l, some r => tryCompareRuntimeValues host l r op
    | _, _ => .ok false
  | .compareExpr lhs op rhs =>
    match host.evaluateRecord with
    | none => .ok true
    | some evaluate => evaluate entity (.compareExpr lhs op rhs) tableName tableAlias
  | .and left right => do
    if ← evaluateEntityFilterResult left then evaluateEntityFilterResult right else .ok false
  | .or left right => do
    if ← evaluateEntityFilterResult left then .ok true else evaluateEntityFilterResult right
  | .not inner => do
    let outcome ← evaluateEntityFilterResult inner
    .ok (!outcome)
  | .isNull field => do
    match ← tryResolveEntityFilterField host entity tableName tableAlias field with
    | none => .ok true
    | some value => .ok (isNullValue value)
  | .isNotNull field =>
    onCandidate host entity tableName tableAlias field fun value => .ok (!isNullValue value)
  | .isIn field values =>
    onCandidate host entity tableName tableAlias field fun candidate => anyEqual host candidate values
  | .between field low high =>
    onCandidate host entity tableName tableAlias field fun candidate => do
      if ← tryCompareRuntimeValues host candidate low .ge then tryCompareRuntimeValues host candidate high .le
      else .ok false
  | .like field pattern =>
    onCandidate host entity tableName tableAlias field (textTest host (host.likeMatches · pattern))
  | .startsWith field start =>
    onCandidate host entity tableName tableAlias field
      (textTest host fun s => start.toList.isPrefixOf s.toList)
  | .endsWith field suffix =>
    onCandidate host entity tableName tableAlias field
      (textTest host fun s => suffix.toList.isSuffixOf s.toList)
  | .contains field substring =>
    onCandidate host entity tableName tableAlias field fun value =>
      .ok (host.runtimeValueContains value substring)

/-- `evaluate_entity_filter_with_db`: an operating failure rejects. -/
def evaluateEntityFilter (filter : Filter Expr) : Bool :=
  (evaluateEntityFilterResult host entity tableName tableAlias filter).toOption.getD false

end

section

variable {host} {entity : UnifiedEntity} {tableName tableAlias : String} {left right : Filter Expr}

theorem and_accepts : evaluateEntityFilterResult host entity tableName tableAlias (.and left right) = .ok true ↔
      evaluateEntityFilterResult host entity tableName tableAlias left = .ok true ∧
        evaluateEntityFilterResult host entity tableName tableAlias right = .ok true := by
  rw [evaluateEntityFilterResult]
  rcases evaluateEntityFilterResult host entity tableName tableAlias left with _ | _ | _ <;>
    simp [Bind.bind, Except.bind]

theorem or_accepts : evaluateEntityFilterResult host entity tableName tableAlias (.or left right) = .ok true ↔
      evaluateEntityFilterResult host entity tableName tableAlias left = .ok true ∨
        evaluateEntityFilterResult host entity tableName tableAlias left = .ok false ∧
          evaluateEntityFilterResult host entity tableName tableAlias right = .ok true := by
  rw [evaluateEntityFilterResult]
  rcases evaluateEntityFilterResult host entity tableName tableAlias left with _ | _ | _ <;>
    simp [Bind.bind, Except.bind]

theorem result_of_accepts (accepted : evaluateEntityFilter host entity tableName tableAlias left = true) :
    evaluateEntityFilterResult host entity tableName tableAlias left = .ok true := by
  unfold evaluateEntityFilter at accepted
  cases evaluated : evaluateEntityFilterResult host entity tableName tableAlias left with
  | error e => simp [evaluated, Except.toOption] at accepted
  | ok outcome => simpa [evaluated, Except.toOption] using accepted

end

end RedDB.Query
