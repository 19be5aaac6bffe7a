import RedDB.Library.Program
import RedDB.Query.EntityFilter
import RedDB.Query.RuntimeValue
import RedDB.Types.ValueCompare

namespace RedDB.Query

open List Library RedDB.Types

inductive FilterOp
  | eq | ne | lt | le | gt | ge | between | isIn | notIn | like | notLike | isNull | isNotNull | contains
  | startsWith | endsWith
  deriving DecidableEq

inductive PredicateValue
  | single (v : Value)
  | range (low high : Value)
  | list (values : List Value)
  | pattern (s : String)
  | none

structure Predicate where
  column : String
  op : FilterOp
  value : PredicateValue

/-- Equality and order of floats, and the first character of a character's lower case. -/
structure PredicateHost where
  ops : HostOps
  f64 : FloatOps
  toLowercase : Char → Char
  deriving Inhabited

inductive ColumnFilter
  | predicate (p : Predicate)
  | and (filters : List ColumnFilter)
  | or (filters : List ColumnFilter)
  | not (filter : ColumnFilter)

inductive CompiledOp
  | predicate (colIdx : Nat) (p : Predicate)
  | andN (n : Nat)
  | orN (n : Nat)
  | not

inductive CompileError
  | unknownColumn (column : String)

section

variable (host : PredicateHost)

def matchLikePattern : List Char → List Char → Bool
  | [], text => text.isEmpty
  | '%' :: pattern, text => text.tails.any (matchLikePattern pattern)
  | '_' :: pattern, _ :: text => matchLikePattern pattern text
  | p :: pattern, t :: text => host.toLowercase p == host.toLowercase t && matchLikePattern pattern text
  | _ :: _, [] => false

def onText (column : Value) (test : String → Bool) : Bool :=
  match column with
  | .text s => test s
  | _ => false

def Predicate.evaluate (p : Predicate) (column : Value) : Bool :=
  let order (v : Value) := partialCompareValues host.f64 column v
  let atMost (v : Value) := (order v).any (·.isLE)
  let atLeast (v : Value) := (order v).any (·.isGE)
  match p.op, p.value with
  | .eq, .single v => valueEq host.ops column v
  | .ne, .single v => !valueEq host.ops column v
  | .lt, .single v => order v == some .lt
  | .le, .single v => atMost v
  | .gt, .single v => order v == some .gt
  | .ge, .single v => atLeast v
  | .between, .range low high => atLeast low && atMost high
  | .isIn, .list values => values.any (valueEq host.ops · column)
  | .notIn, .list values => !values.any (valueEq host.ops · column)
  | .like, .pattern s => onText column fun text => matchLikePattern host s.toList text.toList
  | .notLike, .pattern s => !onText column fun text => matchLikePattern host s.toList text.toList
  | .isNull, .none => isNullValue column
  | .isNotNull, .none => !isNullValue column
  | .contains, .single (.text needle) => onText column fun text => text.toList.tails.any needle.toList.isPrefixOf
  | .startsWith, .pattern s => onText column fun text => s.toList.isPrefixOf text.toList
  | .endsWith, .pattern s => onText column fun text => s.toList.isSuffixOf text.toList
  | _, _ => false

mutual

def ColumnFilter.evaluate (getValue : String → Option Value) : ColumnFilter → Bool
  | .predicate p =>
    match getValue p.column with
    | some value => p.evaluate host value
    | none => p.op == .isNull
  | .and filters => (evaluateEach getValue filters).all id
  | .or filters => (evaluateEach getValue filters).any id
  | .not filter => !filter.evaluate getValue

def evaluateEach (getValue : String → Option Value) : List ColumnFilter → List Bool
  | [] => []
  | filter :: filters => filter.evaluate getValue :: evaluateEach getValue filters

end

mutual

def compileColumns (schema : String → Option Nat) : ColumnFilter → Except CompileError (List CompiledOp)
  | .predicate p =>
    match schema p.column with
    | some colIdx => .ok [.predicate colIdx p]
    | none => .error (.unknownColumn p.column)
  | .and filters => (compileEach schema filters).map (· ++ [.andN filters.length])
  | .or filters => (compileEach schema filters).map (· ++ [.orN filters.length])
  | .not filter => (compileColumns schema filter).map (· ++ [.not])

def compileEach (schema : String → Option Nat) : List ColumnFilter → Except CompileError (List CompiledOp)
  | [] => .ok []
  | filter :: filters =>
    (compileColumns schema filter).bind fun ops => (compileEach schema filters).map (ops ++ ·)

end

/-- One operation; the top of the stack is at the front. -/
def CompiledOp.step (slot : List Value) (stack : List Bool) : CompiledOp → List Bool
  | .predicate colIdx p => p.evaluate host (slot.getD colIdx .null) :: stack
  | .andN n => (stack.take n).all id :: stack.drop n
  | .orN n => (stack.take n).any id :: stack.drop n
  | .not => (!stack.headD true) :: stack.tail

def evaluateSlot (ops : List CompiledOp) (slot : List Value) : Bool :=
  (ops.foldl (CompiledOp.step host slot) []).headD true

variable {host} {schema : String → Option Nat} {slot : List Value}

def slotValue (schema : String → Option Nat) (slot : List Value) (column : String) : Option Value :=
  (schema column).bind (slot[·]?)

theorem length_each (getValue : String → Option Value) (filters : List ColumnFilter) :
    (evaluateEach host getValue filters).reverse.length = filters.length := by
  induction filters with
  | nil => rfl
  | cons filter filters ih => simp_all [evaluateEach]

def Covers (schema : String → Option Nat) (slot : List Value) : Prop :=
  ∀ column i, schema column = some i → i < slot.length

mutual

theorem run_compileColumns (covers : Covers schema slot) (filter : ColumnFilter) {ops : List CompiledOp}
    (compiled : compileColumns schema filter = .ok ops) (stack : List Bool) :
    ops.foldl (CompiledOp.step host slot) stack = filter.evaluate host (slotValue schema slot) :: stack := by
  cases filter with
  | predicate p =>
    cases found : schema p.column with
    | none => simp [compileColumns, found] at compiled
    | some i =>
      have present := covers _ _ found
      simp only [compileColumns, found] at compiled
      cases compiled
      simp [CompiledOp.step, ColumnFilter.evaluate, slotValue, found, present]
  | and filters | or filters =>
    rw [compileColumns] at compiled
    obtain ⟨inner, each, rfl⟩ := except_map_ok compiled
    rw [foldl_append, run_compileEach covers filters each]
    simp only [foldl_cons, foldl_nil, CompiledOp.step, take_left' (length_each _ filters),
      drop_left' (length_each _ filters), ColumnFilter.evaluate, all_reverse, any_reverse]
  | not filter =>
    rw [compileColumns] at compiled
    obtain ⟨inner, operand, rfl⟩ := except_map_ok compiled
    rw [foldl_append, run_compileColumns covers filter operand, ColumnFilter.evaluate]
    rfl

theorem run_compileEach (covers : Covers schema slot) (filters : List ColumnFilter) {ops : List CompiledOp}
    (compiled : compileEach schema filters = .ok ops) (stack : List Bool) :
    ops.foldl (CompiledOp.step host slot) stack =
      (evaluateEach host (slotValue schema slot) filters).reverse ++ stack := by
  cases filters with
  | nil =>
    cases compiled
    rfl
  | cons filter filters =>
    rw [compileEach] at compiled
    cases first : compileColumns schema filter with
    | error e =>
      rw [first] at compiled
      cases compiled
    | ok front =>
      rw [first] at compiled
      obtain ⟨rest, others, rfl⟩ := except_map_ok compiled
      rw [foldl_append, run_compileColumns covers filter first, run_compileEach covers filters others, evaluateEach]
      simp

end

end

theorem valueEq_null_one (ops : HostOps) : valueEq ops .null (.integer 1#64) = false := rfl

end RedDB.Query
