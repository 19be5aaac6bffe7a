import RedDB.Query.CompiledFilter

namespace RedDB.Query

open List Library StackMachine

variable {Expr ε : Type}

namespace Filter

def evaluate (value : Filter Expr → Except ε (Option Bool)) : Filter Expr → Except ε (Option Bool)
  | .and left right =>
    (left.evaluate value).bind fun l => (right.evaluate value).map fun r => CompiledEntityFilter.kleeneAnd l r
  | .or left right =>
    (left.evaluate value).bind fun l => (right.evaluate value).map fun r => CompiledEntityFilter.kleeneOr l r
  | .not inner => (inner.evaluate value).map CompiledEntityFilter.kleeneNot
  | leaf => value leaf

def stackNeed : Filter Expr → Nat
  | .and left right => max left.stackNeed (right.stackNeed + 1)
  | .or left right => max left.stackNeed (right.stackNeed + 1)
  | .not inner => inner.stackNeed
  | _ => 1

end Filter

inductive Connective
  | and
  | or

/-- The nesting of the filter, whatever its leaves are. -/
def Filter.shape : Filter Expr → Tree Unit Unit Connective
  | .and left right => .binary .and left.shape right.shape
  | .or left right => .binary .or left.shape right.shape
  | .not inner => .unary () inner.shape
  | _ => .leaf ()

theorem Filter.shape_need (filter : Filter Expr) : filter.shape.need = filter.stackNeed := by
  induction filter with
  | and left right ihLeft ihRight
  | or left right ihLeft ihRight => rw [shape, Tree.need, stackNeed, ihLeft, ihRight]
  | not inner ih => rw [shape, Tree.need, stackNeed, ih]
  | _ => rfl

namespace CompiledEntityFilter

section

variable (test : CompiledEntityOp Expr → Except ε Bool)

def opValue : CompiledEntityOp Expr → Except ε (Option Bool)
  | .fallback _ => .ok none
  | op => (test op).map some

def toInstr : CompiledEntityOp Expr → Instr (CompiledEntityOp Expr) Unit Connective
  | .and => .binary .and
  | .or => .binary .or
  | .not => .unary ()
  | op => .load op

def meaning :
    Meaning (CompiledEntityOp Expr) Unit Connective (Option Bool) ε where
  load := opValue test
  unary _ := kleeneNot
  unaryMissing _ := none
  binary
    | .and => kleeneAnd
    | .or => kleeneOr
  binaryMissing
    | .and => some true
    | .or => some false

end

def tree (classify : FieldRef → EntityFieldKind) : Filter Expr → Tree (CompiledEntityOp Expr) Unit Connective
  | .and left right => .binary .and (tree classify left) (tree classify right)
  | .or left right => .binary .or (tree classify left) (tree classify right)
  | .not inner => .unary () (tree classify inner)
  | leaf => .leaf (leafOp classify leaf)

variable (test : CompiledEntityOp Expr → Except ε Bool) (classify : FieldRef → EntityFieldKind)

theorem step_eq (stack : List (Option Bool)) (op : CompiledEntityOp Expr) :
    step test stack op = StackMachine.step (meaning test) stackCap stack (toInstr op) := by
  cases op <;> first
    | rfl
    | (simp only [step, toInstr, StackMachine.step, meaning, opValue]
       cases test _ <;> rfl)

theorem runOps_eq (ops : List (CompiledEntityOp Expr)) (stack : List (Option Bool)) :
    runOps test ops stack = exec (meaning test) stackCap (ops.map toInstr) stack := by
  induction ops generalizing stack with
  | nil => rfl
  | cons op ops ih =>
    rw [runOps, map_cons, exec, step_eq]
    congr 1
    funext next
    exact ih next

theorem toInstr_onField (filter : Filter Expr) (kind : EntityFieldKind)
    (op : EntityFieldKind → CompiledEntityOp Expr) (leaf : ∀ kind, toInstr (op kind) = .load (op kind)) :
    toInstr (onField filter kind op) = .load (onField filter kind op) := by
  unfold onField
  split
  · rfl
  · exact leaf kind

theorem toInstr_compileIn (values : List Types.Value) (kind : EntityFieldKind) :
    toInstr (compileIn kind values : CompiledEntityOp Expr) = .load (compileIn kind values) := by
  unfold compileIn
  split_ifs <;> rfl

section

variable (filter : Filter Expr)
include filter

theorem toInstr_leafOp : toInstr (leafOp classify filter) = .load (leafOp classify filter) := by
  cases filter
  case isIn field values => exact toInstr_onField _ _ _ (toInstr_compileIn values)
  all_goals first
    | rfl
    | (simp only [leafOp]
       exact toInstr_onField _ _ _ fun _ => rfl)

variable (ops : List (CompiledEntityOp Expr))

theorem map_append_leafOp :
    (ops ++ [leafOp classify filter]).map toInstr = ops.map toInstr ++ [.load (leafOp classify filter)] := by
  rw [map_append, map_singleton, toInstr_leafOp]

theorem map_compileInto :
    (compileInto classify filter ops).map toInstr = ops.map toInstr ++ (tree classify filter).code := by
  induction filter generalizing ops with
  | and left right ihLeft ihRight | or left right ihLeft ihRight =>
    rw [compileInto, map_append, ihRight, ihLeft, tree, Tree.code]
    simp [toInstr]
  | not inner ih =>
    rw [compileInto, map_append, ih, tree, Tree.code]
    simp [toInstr]
  | _ => exact map_append_leafOp classify _ ops

theorem need_tree : (tree classify filter).need = filter.stackNeed := by
  induction filter with
  | and left right ihLeft ihRight
  | or left right ihLeft ihRight => rw [tree, Tree.need, Filter.stackNeed, ihLeft, ihRight]
  | not inner ih => rw [tree, Tree.need, Filter.stackNeed, ih]
  | _ => rfl

theorem eval_tree :
    (tree classify filter).eval (meaning test) = filter.evaluate fun leaf => opValue test (leafOp classify leaf) := by
  induction filter with
  | and left right ihLeft ihRight
  | or left right ihLeft ihRight => rw [tree, Tree.eval, Filter.evaluate, ihLeft, ihRight]; rfl
  | not inner ih => rw [tree, Tree.eval, Filter.evaluate, ih]; rfl
  | _ => rfl

theorem runOps_compileInto (fits : filter.stackNeed ≤ stackCap) : runOps test (compileInto classify filter []) [] =
      (filter.evaluate fun leaf => opValue test (leafOp classify leaf)).map fun v => [v] := by
  have room : ([] : List (Option Bool)).length + (tree classify filter).need ≤ stackCap := by
    rw [need_tree, length_nil, zero_add]
    exact fits
  have run := exec_code (meaning test) stackCap (tree classify filter) [] [] room
  rw [append_nil] at run
  rw [runOps_eq, map_compileInto, map_nil, nil_append, run, eval_tree]
  cases filter.evaluate fun leaf => opValue test (leafOp classify leaf) <;> rfl

end

def leafValue (tableName tableAlias : String) (schemaCols : Option (List String)) (leaf : Filter Expr) :
    Except ε (Option Bool) :=
  opValue test (leafOp (fun field => classifyFieldInner field tableName tableAlias schemaCols) leaf)

theorem runProgram_fits {filter : Filter Expr} (tableName tableAlias : String) (schemaCols : Option (List String))
    (fits : filter.stackNeed ≤ stackCap) : runProgram test (compile filter tableName tableAlias schemaCols).ops =
      (filter.evaluate (leafValue test tableName tableAlias schemaCols)).map decision := by
  have run := runOps_compileInto test (fun field => classifyFieldInner field tableName tableAlias schemaCols)
    filter fits
  unfold runProgram compile
  rw [run, show (fun leaf => opValue test (leafOp _ leaf)) = leafValue test tableName tableAlias schemaCols from rfl]
  cases filter.evaluate (leafValue test tableName tableAlias schemaCols) <;> rfl

/-- A row with an id, and the leaves that are true and false on it. -/
def ridIs : CompiledEntityOp Expr → Except ε Bool
  | .isNotNull _ => .ok true
  | _ => .ok false

def ridLeaf : Bool → Filter Expr
  | true => .isNotNull (.tableColumn "" "rid")
  | false => .isNull (.tableColumn "" "rid")

def join : Connective → Filter Expr → Filter Expr → Filter Expr
  | .and => .and
  | .or => .or

/-- The operand beside which a connective answers with the other one. -/
def neutral : Connective → Bool
  | .and => true
  | .or => false

section

variable {tableName tableAlias : String} {schemaCols : Option (List String)} {filter left right : Filter Expr}

def ridValue (ε : Type) (tableName tableAlias : String) (schemaCols : Option (List String)) (filter : Filter Expr) :
    Except ε (Option Bool) :=
  filter.evaluate (leafValue ridIs tableName tableAlias schemaCols)

theorem ridValue_leaf (b : Bool) : ridValue ε tableName tableAlias schemaCols (ridLeaf b : Filter Expr) = .ok (some b) := by
  cases b <;> simp [ridValue, ridLeaf, Filter.evaluate, leafValue, leafOp, classifyFieldInner, classifyColumn,
    systemField, onField, needsFallback, opValue, ridIs, Except.map]

theorem ridValue_join (op : Connective) {b : Bool}
    (one : ridValue ε tableName tableAlias schemaCols left = .ok (some (neutral op)) ∧
        ridValue ε tableName tableAlias schemaCols right = .ok (some b) ∨
      ridValue ε tableName tableAlias schemaCols left = .ok (some b) ∧
        ridValue ε tableName tableAlias schemaCols right = .ok (some (neutral op))) :
    ridValue ε tableName tableAlias schemaCols (join op left right) = .ok (some b) := by
  unfold ridValue at one ⊢
  rcases one with ⟨first, second⟩ | ⟨first, second⟩
  all_goals
    cases op <;> cases b <;> simp [join, Filter.evaluate, first, second, neutral, kleeneAnd, kleeneOr, Except.map, Except.bind]

theorem ridValue_not {b : Bool} (inner : ridValue ε tableName tableAlias schemaCols filter = .ok (some !b)) :
    ridValue ε tableName tableAlias schemaCols filter.not = .ok (some b) := by
  unfold ridValue at inner ⊢
  simp [Filter.evaluate, inner, kleeneNot, Except.map]

theorem exists_ridValue (ε : Type) (filter : Filter Expr) (b : Bool) : ∃ labelled : Filter Expr,
    labelled.shape = filter.shape ∧ ridValue ε tableName tableAlias schemaCols labelled = .ok (some b) := by
  induction filter generalizing b with
  | and left right ihLeft ihRight =>
    obtain ⟨first, shape, value⟩ := ihLeft true
    obtain ⟨second, shapeRight, valueRight⟩ := ihRight b
    exact ⟨.and first second, by rw [Filter.shape, shape, shapeRight]; rfl, ridValue_join .and (.inl ⟨value, valueRight⟩)⟩
  | or left right ihLeft ihRight =>
    obtain ⟨first, shape, value⟩ := ihLeft false
    obtain ⟨second, shapeRight, valueRight⟩ := ihRight b
    exact ⟨.or first second, by rw [Filter.shape, shape, shapeRight]; rfl, ridValue_join .or (.inl ⟨value, valueRight⟩)⟩
  | not inner ih =>
    obtain ⟨labelled, shape, value⟩ := ih !b
    exact ⟨.not labelled, by rw [Filter.shape, shape]; rfl, ridValue_not value⟩
  | _ => exact ⟨ridLeaf b, by cases b <;> rfl, ridValue_leaf b⟩

/-- Two labellings with different values between which the program does not distinguish on a stack of height `h`:
    they differ in a leaf that is loaded on the full stack, and so dropped. -/
structure Blind (ε : Type) (tableName tableAlias : String) (schemaCols : Option (List String)) (h : Nat)
    (filter : Filter Expr) (labelled : Bool → Filter Expr) : Prop where
  shape : ∀ b, (labelled b).shape = filter.shape
  value : ∀ b, ridValue ε tableName tableAlias schemaCols (labelled b) = .ok (some b)
  same : ∀ b code stack, stack.length = h →
    exec (meaning (ε := ε) ridIs) stackCap
        ((tree (fun field => classifyFieldInner field tableName tableAlias schemaCols) (labelled b)).code ++ code) stack =
      exec (meaning ridIs) stackCap
        ((tree (fun field => classifyFieldInner field tableName tableAlias schemaCols) (labelled true)).code ++ code) stack

theorem tree_join (classify : FieldRef → EntityFieldKind) (op : Connective) :
    tree classify (join op left right) = .binary op (tree classify left) (tree classify right) := by
  cases op <;> rfl

theorem shape_join (op : Connective) : (join op left right).shape = .binary op left.shape right.shape := by
  cases op <;> rfl

variable {h : Nat}

theorem blind_join (op : Connective) (room : h ≤ stackCap) (deep : stackCap < h + (join op left right).stackNeed)
    (ihLeft : stackCap < h + left.stackNeed → ∃ labelled, Blind ε tableName tableAlias schemaCols h left labelled)
    (ihRight : h + 1 ≤ stackCap → stackCap < h + 1 + right.stackNeed →
      ∃ labelled, Blind ε tableName tableAlias schemaCols (h + 1) right labelled) :
    ∃ labelled, Blind ε tableName tableAlias schemaCols h (join op left right) labelled := by
  by_cases deepLeft : stackCap < h + left.stackNeed
  · obtain ⟨first, blind⟩ := ihLeft deepLeft
    obtain ⟨second, shape, value⟩ := @exists_ridValue Expr tableName tableAlias schemaCols ε right (neutral op)
    refine ⟨fun b => join op (first b) second, fun b => ?_, fun b => ridValue_join op (.inr ⟨blind.value b, value⟩),
      fun b code stack height => ?_⟩
    · rw [shape_join, shape_join, blind.shape, shape]
    · simp only [tree_join, Tree.code, append_assoc]
      exact blind.same b _ stack height
  · have fits : h + left.stackNeed ≤ stackCap := Nat.not_lt.mp deepLeft
    have positive : 0 < left.stackNeed := left.shape_need ▸ left.shape.need_pos
    have need : (join op left right).stackNeed = max left.stackNeed (right.stackNeed + 1) := by cases op <;> rfl
    obtain ⟨second, blind⟩ := ihRight (by omega) (by omega)
    obtain ⟨first, shape, value⟩ := @exists_ridValue Expr tableName tableAlias schemaCols ε left (neutral op)
    refine ⟨fun b => join op first (second b), fun b => ?_, fun b => ridValue_join op (.inl ⟨value, blind.value b⟩),
      fun b code stack height => ?_⟩
    · rw [shape_join, shape_join, shape, blind.shape]
    · simp only [tree_join, Tree.code, append_assoc]
      have roomLeft : stack.length +
          (tree (fun field => classifyFieldInner field tableName tableAlias schemaCols) first).need ≤ stackCap := by
        rw [need_tree, height, ← Filter.shape_need, shape, Filter.shape_need]
        exact fits
      rw [exec_code _ _ _ _ _ roomLeft, exec_code _ _ _ _ _ roomLeft]
      congr 1
      funext v
      exact blind.same b _ _ (by rw [length_cons, height])

theorem exists_blind (filter : Filter Expr) (h : Nat) (room : h ≤ stackCap) (deep : stackCap < h + filter.stackNeed) :
    ∃ labelled, Blind ε tableName tableAlias schemaCols h filter labelled := by
  induction filter generalizing h with
  | and left right ihLeft ihRight => exact blind_join .and room deep (ihLeft h room) (ihRight (h + 1))
  | or left right ihLeft ihRight => exact blind_join .or room deep (ihLeft h room) (ihRight (h + 1))
  | not inner ih =>
    obtain ⟨labelled, blind⟩ := ih h room deep
    refine ⟨fun b => .not (labelled !b), fun b => ?_, fun b => ridValue_not (blind.value !b), fun b code stack height => ?_⟩
    · rw [Filter.shape, blind.shape]
      rfl
    · simp only [tree, Tree.code, append_assoc]
      exact (blind.same _ _ stack height).trans (blind.same _ _ stack height).symm
  | _ =>
    refine ⟨ridLeaf, fun b => by cases b <;> rfl, ridValue_leaf, fun b code stack height => ?_⟩
    have full : ¬ stack.length < stackCap := Nat.not_lt.mpr (height ▸ Nat.le_of_lt_succ deep)
    cases b <;> simp [ridLeaf, tree, Tree.code, leafOp, classifyFieldInner, classifyColumn, systemField, onField,
      needsFallback, exec, StackMachine.step, meaning, opValue, ridIs, Except.map, Except.bind, push, full]

end

/-- The program computes the Kleene value of every labelling of the filter's leaves exactly if the stack holds what
    the filter needs. -/
theorem runProgram_compile (filter : Filter Expr) (tableName tableAlias : String)
    (schemaCols : Option (List String)) :
    (∀ labelled : Filter Expr, labelled.shape = filter.shape → ∀ test : CompiledEntityOp Expr → Except ε Bool,
      runProgram test (compile labelled tableName tableAlias schemaCols).ops =
        (labelled.evaluate (leafValue test tableName tableAlias schemaCols)).map decision) ↔
      filter.stackNeed ≤ stackCap := by
  constructor
  · intro agrees
    by_contra deep
    obtain ⟨labelled, blind⟩ := @exists_blind Expr ε tableName tableAlias schemaCols filter 0 (Nat.zero_le _) (by omega)
    have verdict (b : Bool) : runProgram (ε := ε) ridIs (compile (labelled b) tableName tableAlias schemaCols).ops =
        .ok (decision (some b)) := by
      rw [agrees (labelled b) (blind.shape b)]
      exact congrArg (Except.map decision) (blind.value b)
    have same : runProgram (ε := ε) ridIs (compile (labelled false) tableName tableAlias schemaCols).ops =
        runProgram ridIs (compile (labelled true) tableName tableAlias schemaCols).ops := by
      simp only [runProgram, compile, runOps_eq, map_compileInto, map_nil, nil_append]
      have run := blind.same false [] [] rfl
      rw [append_nil, append_nil] at run
      rw [run]
    rw [verdict, verdict] at same
    cases same
  · intro fits labelled shape test
    refine runProgram_fits test tableName tableAlias schemaCols ?_
    rwa [← Filter.shape_need, shape, Filter.shape_need]

/-- Leaves that compare the column `a` of a row where it is true. -/
def comparesTrue : CompiledEntityOp Unit → Except Unit Bool
  | .compare (.rowField "a") .eq (.boolean b) => .ok b
  | _ => .error ()

def columnIs (b : Bool) : Filter Unit := .compare (.tableColumn "" "a") .eq (.boolean b)

/-- A conjunction of `n` true leaves and a false one, nested to the right. -/
def nestedAnd : Nat → Filter Unit
  | 0 => columnIs false
  | n + 1 => .and (columnIs true) (nestedAnd n)

theorem deep_conjunction_accepted : runProgram comparesTrue (compile (nestedAnd 32) "t" "t" none).ops = .ok .matched ∧
      (nestedAnd 32).evaluate (leafValue comparesTrue "t" "t" none) = .ok (some false) := by
  decide +kernel

end CompiledEntityFilter

end RedDB.Query
