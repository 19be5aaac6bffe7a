import RedDB.Library.StackMachine
import RedDB.Query.Filter

namespace RedDB.Query

open Library RedDB.Types

variable {Expr : Type}

inductive CompiledEntityOp (Expr : Type)
  | compare (kind : EntityFieldKind) (op : CompareOp) (value : Value)
  | between (kind : EntityFieldKind) (low high : Value)
  | inList (kind : EntityFieldKind) (values : List Value)
  | inSet (kind : EntityFieldKind) (set : List Value)
  | inBloom (kind : EntityFieldKind) (set : List Value)
  | like (kind : EntityFieldKind) (pattern : String)
  | startsWith (kind : EntityFieldKind) (start : String)
  | endsWith (kind : EntityFieldKind) (suffix : String)
  | contains (kind : EntityFieldKind) (substring : String)
  | isNull (kind : EntityFieldKind)
  | isNotNull (kind : EntityFieldKind)
  | and
  | or
  | not
  | fallback (filter : Filter Expr)

def needsFallback : EntityFieldKind → Bool
  | .documentPath _ => true
  | .unknown => true
  | _ => false

def inSmallThreshold : Nat := 8

def inBloomThreshold : Nat := 1000

def compileIn (kind : EntityFieldKind) (values : List Value) : CompiledEntityOp Expr :=
  if values.length ≤ inSmallThreshold ∨ values.any isSecret then .inList kind values
  else if values.length ≤ inBloomThreshold then .inSet kind values
  else .inBloom kind values

def onField (filter : Filter Expr) (kind : EntityFieldKind) (op : EntityFieldKind → CompiledEntityOp Expr) :
    CompiledEntityOp Expr :=
  if needsFallback kind then .fallback filter else op kind

def leafOp (classify : FieldRef → EntityFieldKind) (filter : Filter Expr) : CompiledEntityOp Expr :=
  match filter with
  | .compare field op value => onField filter (classify field) (.compare · op value)
  | .between field low high => onField filter (classify field) (.between · low high)
  | .isIn field values => onField filter (classify field) (compileIn · values)
  | .like field pattern => onField filter (classify field) (.like · pattern)
  | .startsWith field start => onField filter (classify field) (.startsWith · start)
  | .endsWith field suffix => onField filter (classify field) (.endsWith · suffix)
  | .contains field substring => onField filter (classify field) (.contains · substring)
  | .isNull field => onField filter (classify field) .isNull
  | .isNotNull field => onField filter (classify field) .isNotNull
  | _ => .fallback filter

def compileInto (classify : FieldRef → EntityFieldKind) (filter : Filter Expr)
    (ops : List (CompiledEntityOp Expr)) : List (CompiledEntityOp Expr) :=
  match filter with
  | .and left right => compileInto classify right (compileInto classify left ops) ++ [.and]
  | .or left right => compileInto classify right (compileInto classify left ops) ++ [.or]
  | .not inner => compileInto classify inner ops ++ [.not]
  | leaf => ops ++ [leafOp classify leaf]

section

def fieldNameBloom (name : String) : BitVec 64 :=
  let b := asBytes name
  match b[b.length / 2]? with
  | none => 0
  | some byte => 1#64 <<< (byte.toNat % 64)

def systemFields : List String :=
  ["rid", "entity_id", "created_at", "updated_at", "red_sequence_id", "red_collection", "red_kind", "row_id"]

def bloomForField : FieldRef → BitVec 64
  | .tableColumn table column =>
    if table ≠ "" ∨ column ∈ systemFields ∨ '.' ∈ column.toList then 0 else fieldNameBloom column
  | _ => 0

def collectRequiredBloom : Filter Expr → BitVec 64
  | .compare field _ _ => bloomForField field
  | .between field _ _ => bloomForField field
  | .isIn field _ => bloomForField field
  | .like field _ => bloomForField field
  | .startsWith field _ => bloomForField field
  | .endsWith field _ => bloomForField field
  | .contains field _ => bloomForField field
  | .isNull _ => 0
  | .isNotNull field => bloomForField field
  | .and left right => collectRequiredBloom left ||| collectRequiredBloom right
  | .or left right => collectRequiredBloom left &&& collectRequiredBloom right
  | .not _ => 0
  | .compareFields _ _ _ => 0
  | .compareExpr _ _ _ => 0

end

structure CompiledEntityFilter (Expr : Type) where
  ops : List (CompiledEntityOp Expr)
  requiredBloom : BitVec 64

inductive CompiledEntityFilterDecision
  | matched
  | reject
  | needsFallback
  deriving DecidableEq

namespace CompiledEntityFilter

/-- `compile`, and with a schema `compile_with_schema`. -/
def compile (filter : Filter Expr) (tableName tableAlias : String) (schemaCols : Option (List String)) :
    CompiledEntityFilter Expr :=
  { ops := compileInto (fun field => classifyFieldInner field tableName tableAlias schemaCols) filter []
    requiredBloom := collectRequiredBloom filter }

section

variable {ε : Type}

def kleeneAnd : Option Bool → Option Bool → Option Bool
  | some false, _ => some false
  | _, some false => some false
  | some true, some true => some true
  | _, _ => none

def kleeneOr : Option Bool → Option Bool → Option Bool
  | some true, _ => some true
  | _, some true => some true
  | some false, some false => some false
  | _, _ => none

def kleeneNot (v : Option Bool) : Option Bool := v.map (! ·)

def stackCap : Nat := 32

open StackMachine in
/-- One operation on the stack. The outcome of a leaf on the row at hand is `test`. -/
def step (test : CompiledEntityOp Expr → Except ε Bool) (stack : List (Option Bool)) :
    CompiledEntityOp Expr → Except ε (List (Option Bool))
  | .and =>
    let (r, stack) := pop (some true) stack
    let (l, stack) := pop (some true) stack
    .ok (push stackCap (kleeneAnd l r) stack)
  | .or =>
    let (r, stack) := pop (some false) stack
    let (l, stack) := pop (some false) stack
    .ok (push stackCap (kleeneOr l r) stack)
  | .not =>
    let (v, stack) := pop none stack
    .ok (push stackCap (kleeneNot v) stack)
  | .fallback _ => .ok (push stackCap none stack)
  | op => (test op).map fun result => push stackCap (some result) stack

def runOps (test : CompiledEntityOp Expr → Except ε Bool) :
    List (CompiledEntityOp Expr) → List (Option Bool) → Except ε (List (Option Bool))
  | [], stack => .ok stack
  | op :: ops, stack => (step test stack op).bind (runOps test ops)

def decision : Option Bool → CompiledEntityFilterDecision
  | some true => .matched
  | some false => .reject
  | none => .needsFallback

variable (test : CompiledEntityOp Expr → Except ε Bool)

def runProgram (ops : List (CompiledEntityOp Expr)) :
    Except ε CompiledEntityFilterDecision :=
  (runOps test ops []).map fun stack => decision (StackMachine.pop (some true) stack).1

def bloomGateRejects (requiredBloom : BitVec 64) (graphEntity : Bool) (fieldBloom : BitVec 64) : Bool :=
  !graphEntity && requiredBloom != 0 && fieldBloom != 0 && (fieldBloom &&& requiredBloom) != requiredBloom

end

end CompiledEntityFilter

end RedDB.Query
