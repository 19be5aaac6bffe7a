import RedDB.Library.Digits
import RedDB.Types.Value

namespace RedDB.Query

open Library RedDB.Types

inductive FieldRef
  | tableColumn (table column : String)
  | nodeProperty (alias_ property : String)
  | edgeProperty (alias_ property : String)
  | nodeId (alias_ : String)
  deriving DecidableEq

inductive CompareOp
  | eq
  | ne
  | lt
  | le
  | gt
  | ge
  deriving DecidableEq

inductive Filter (Expr : Type)
  | compare (field : FieldRef) (op : CompareOp) (value : Value)
  | compareFields (left : FieldRef) (op : CompareOp) (right : FieldRef)
  | compareExpr (lhs : Expr) (op : CompareOp) (rhs : Expr)
  | and (left right : Filter Expr)
  | or (left right : Filter Expr)
  | not (inner : Filter Expr)
  | isNull (field : FieldRef)
  | isNotNull (field : FieldRef)
  | isIn (field : FieldRef) (values : List Value)
  | between (field : FieldRef) (low high : Value)
  | like (field : FieldRef) (pattern : String)
  | startsWith (field : FieldRef) (start : String)
  | endsWith (field : FieldRef) (suffix : String)
  | contains (field : FieldRef) (substring : String)

section

def eqIgnoreAsciiCase (s t : String) : Bool := s.toList.map Char.toLower == t.toList.map Char.toLower

def isUniversalEntitySource (table : String) : Bool :=
  eqIgnoreAsciiCase table "any" || eqIgnoreAsciiCase table "_any" || eqIgnoreAsciiCase table "all" ||
    eqIgnoreAsciiCase table "entity" || eqIgnoreAsciiCase table "universal" ||
    eqIgnoreAsciiCase table "mixed" || table == "*"

def runtimeTableContextMatches (fieldTable : String) (tableName tableAlias : Option String) : Bool :=
  if some fieldTable = tableName ∨ some fieldTable = tableAlias then true
  else if ¬ isUniversalEntitySource fieldTable then false
  else tableName.any isUniversalEntitySource || tableAlias.any isUniversalEntitySource

end

inductive EntityFieldKind
  | systemEntityId
  | systemCreatedAt
  | systemUpdatedAt
  | systemSequenceId
  | systemCollection
  | systemKind
  | systemRowId
  | rowField (name : String)
  | rowFieldFast (name : String) (idx : BitVec 16)
  | rowFieldPosition (idx : Nat)
  | documentPath (path : String)
  | unknown
  deriving DecidableEq

/-- `str::parse::<usize>`. -/
def parseUsize (s : List Char) : Option Nat :=
  let ds :=
    match s with
    | '+' :: rest => rest
    | _ => s
  if ds = [] ∨ ¬ AllDigits ds then none
  else if digitsValue ds < 2 ^ 64 then some (digitsValue ds) else none

def systemField : String → Option EntityFieldKind
  | "rid" => some .systemEntityId
  | "entity_id" => some .systemEntityId
  | "created_at" => some .systemCreatedAt
  | "updated_at" => some .systemUpdatedAt
  | "red_sequence_id" => some .systemSequenceId
  | "red_collection" => some .systemCollection
  | "red_kind" => some .systemKind
  | "row_id" => some .systemRowId
  | _ => none

/-- Positional columns `c0`, `c1` and so on. -/
def positionalField (column : String) : Option Nat :=
  match column.toList with
  | 'c' :: rest => parseUsize rest
  | _ => none

def classifyColumn (column : String) (schemaCols : Option (List String)) : EntityFieldKind :=
  match systemField column with
  | some kind => kind
  | none =>
    if '.' ∈ column.toList then .documentPath column
    else
      match positionalField column with
      | some idx => .rowFieldPosition idx
      | none =>
        match schemaCols.bind fun schema => schema.findIdx? (· == column) with
        | some idx => .rowFieldFast column idx
        | none => .rowField column

def classifyFieldInner (field : FieldRef) (tableName tableAlias : String) (schemaCols : Option (List String)) :
    EntityFieldKind :=
  match field with
  | .tableColumn table column =>
    if table ≠ "" ∧ ¬ runtimeTableContextMatches table (some tableName) (some tableAlias) then
      .documentPath (table ++ "." ++ column)
    else classifyColumn column schemaCols
  | _ => .unknown

end RedDB.Query
