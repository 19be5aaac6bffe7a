import RedDB.Query.EntityFilter
import RedDB.Query.FilterSemantics

namespace RedDB.Query

open List Library.StackMachine RedDB.Types

variable {Expr ε : Type}

namespace Filter

def exprFree : Filter Expr → Bool
  | .compareExpr _ _ _ => false
  | .and left right => left.exprFree && right.exprFree
  | .or left right => left.exprFree && right.exprFree
  | .not inner => inner.exprFree
  | _ => true

/-- The nesting of the filter, and which of its leaves are expressions. -/
def skeleton : Filter Expr → Tree Bool Unit Connective
  | .and left right => .binary .and left.skeleton right.skeleton
  | .or left right => .binary .or left.skeleton right.skeleton
  | .not inner => .unary () inner.skeleton
  | .compareExpr _ _ _ => .leaf true
  | _ => .leaf false

end Filter

/-- Left to right, `none` for a failure. -/
def Connective.verdict : Connective → Option Bool → Option Bool → Option Bool
  | .and, left, right => if left = some true then right else left
  | .or, left, right => if left = some false then right else left

/-- What filters of this form can answer with the handle and, on the same row, without it. A field predicate answers
    true, false or fails in both; an expression does so with the handle, and is true without it. -/
def verdicts : Tree Bool Unit Connective → Finset (Option Bool × Option Bool)
  | .leaf expression => Finset.univ.image fun outcome => (outcome, if expression then some true else outcome)
  | .unary _ inner => (verdicts inner).image fun p => (p.1.map (!·), p.2.map (!·))
  | .binary op left right =>
    Finset.image₂ (fun p q => (op.verdict p.1 q.1, op.verdict p.2 q.2)) (verdicts left) (verdicts right)

/-- No such filter accepts a row with the handle only. -/
def Filter.KeepsAccepted (filter : Filter Expr) : Prop :=
  ∀ p ∈ verdicts filter.skeleton, p.1 = some true → p.2 = some true

instance (filter : Filter Expr) : Decidable filter.KeepsAccepted := inferInstanceAs (Decidable (∀ p ∈ _, _))

/-- `entity_passes_where_filter`: no handle is passed on. -/
def entityPassesWhereFilter (host : FilterHost Expr ε) (parseWhereFilter : String → Option (Filter Expr))
    (whereFilter : Option String) (entity : UnifiedEntity) (collection : String) : Bool :=
  match whereFilter with
  | none => true
  | some sql =>
    match parseWhereFilter sql with
    | none => true
    | some filter => evaluateEntityFilter { host with evaluateRecord := none } entity collection collection filter

section

variable (host : FilterHost Expr ε) (handle : Option (UnifiedEntity → Filter Expr → String → String → Except ε Bool))
  (entity : UnifiedEntity) (tableName tableAlias : String)

theorem trySecretRuntimeInput_handle (depth : Nat) (value : Value) :
    trySecretRuntimeInput { host with evaluateRecord := handle } depth value =
      trySecretRuntimeInput host depth value := by
  induction depth generalizing value with
  | zero => rfl
  | succ depth ih => simp only [trySecretRuntimeInput, ih]

@[simp] theorem tryCompare_handle (left right : Value) (op : CompareOp) :
    tryCompareRuntimeValues { host with evaluateRecord := handle } left right op =
      tryCompareRuntimeValues host left right op := by
  simp only [tryCompareRuntimeValues, secretInput, trySecretRuntimeInput_handle]

@[simp] theorem tryResolve_handle (field : FieldRef) :
    tryResolveEntityFilterField { host with evaluateRecord := handle } entity tableName tableAlias field =
      tryResolveEntityFilterField host entity tableName tableAlias field := by
  simp only [tryResolveEntityFilterField, secretInput, trySecretRuntimeInput_handle]

@[simp] theorem anyEqual_handle (candidate : Value) (values : List Value) :
    anyEqual { host with evaluateRecord := handle } candidate values = anyEqual host candidate values := by
  induction values with
  | nil => rfl
  | cons value values ih => simp only [anyEqual, tryCompare_handle, ih]

theorem evaluate_exprFree (filter : Filter Expr) (free : filter.exprFree) :
    evaluateEntityFilterResult { host with evaluateRecord := handle } entity tableName tableAlias filter =
      evaluateEntityFilterResult host entity tableName tableAlias filter := by
  induction filter with
  | compareExpr lhs op rhs => cases free
  | and left right ihLeft ihRight | or left right ihLeft ihRight =>
    obtain ⟨leftFree, rightFree⟩ := Bool.and_eq_true_iff.mp free
    simp only [evaluateEntityFilterResult, ihLeft leftFree, ihRight rightFree]
  | not inner ih => simp only [evaluateEntityFilterResult, ih free]
  | _ => simp only [evaluateEntityFilterResult, onCandidate, textTest, tryCompare_handle, tryResolve_handle, anyEqual_handle]

end

section

variable (host : FilterHost Expr ε) (entity : UnifiedEntity) (tableName tableAlias : String)

/-- The outcome on a row, `none` for a failure. -/
def outcome (filter : Filter Expr) : Option Bool :=
  (evaluateEntityFilterResult host entity tableName tableAlias filter).toOption

theorem outcome_and (left right : Filter Expr) : outcome host entity tableName tableAlias (.and left right) =
    Connective.and.verdict (outcome host entity tableName tableAlias left)
      (outcome host entity tableName tableAlias right) := by
  simp only [outcome, evaluateEntityFilterResult]
  rcases evaluateEntityFilterResult host entity tableName tableAlias left with _ | _ | _ <;> rfl

theorem outcome_or (left right : Filter Expr) : outcome host entity tableName tableAlias (.or left right) =
    Connective.or.verdict (outcome host entity tableName tableAlias left)
      (outcome host entity tableName tableAlias right) := by
  simp only [outcome, evaluateEntityFilterResult]
  rcases evaluateEntityFilterResult host entity tableName tableAlias left with _ | _ | _ <;> rfl

theorem outcome_not (inner : Filter Expr) : outcome host entity tableName tableAlias (.not inner) =
    (outcome host entity tableName tableAlias inner).map (!·) := by
  simp only [outcome, evaluateEntityFilterResult]
  rcases evaluateEntityFilterResult host entity tableName tableAlias inner with _ | _ | _ <;> rfl

theorem accepts_iff (filter : Filter Expr) : evaluateEntityFilter host entity tableName tableAlias filter = true ↔
    outcome host entity tableName tableAlias filter = some true := by
  rw [evaluateEntityFilter, ← outcome]
  cases outcome host entity tableName tableAlias filter <;> simp

theorem same_mem (answer : Option Bool) : (answer, answer) ∈ verdicts (.leaf false) :=
  Finset.mem_image.mpr ⟨answer, Finset.mem_univ _, rfl⟩

theorem outcomes_mem (evaluate : UnifiedEntity → Filter Expr → String → String → Except ε Bool) (filter : Filter Expr) :
    (outcome { host with evaluateRecord := some evaluate } entity tableName tableAlias filter,
      outcome { host with evaluateRecord := none } entity tableName tableAlias filter) ∈ verdicts filter.skeleton := by
  induction filter with
  | and left right ihLeft ihRight =>
    rw [outcome_and, outcome_and]
    exact Finset.mem_image₂.mpr ⟨_, ihLeft, _, ihRight, rfl⟩
  | or left right ihLeft ihRight =>
    rw [outcome_or, outcome_or]
    exact Finset.mem_image₂.mpr ⟨_, ihLeft, _, ihRight, rfl⟩
  | not inner ih =>
    rw [outcome_not, outcome_not]
    exact Finset.mem_image.mpr ⟨_, ih, rfl⟩
  | compareExpr lhs op rhs => exact Finset.mem_image.mpr ⟨_, Finset.mem_univ _, rfl⟩
  | _ =>
    rw [outcome, outcome, evaluate_exprFree host (some evaluate) _ _ _ _ rfl, evaluate_exprFree host none _ _ _ _ rfl]
    exact same_mem _

end

section

variable (Expr) (failure : ε)

/-- A host that cannot decrypt, and evaluates expressions by their operator. -/
def sealedHost : FilterHost Expr ε where
  decodeValue _ := .error ""
  documentPathFromValue _ _ := none
  timeseriesTagsJsonValue _ := .null
  floatOfFloat32 _ := 0
  timestampContext := none
  trySecretQueryInput _ := .error failure
  queryError _ := failure
  compareRuntimeValues _ _ _ := true
  runtimeValueText _ := none
  likeMatches _ _ := false
  runtimeValueContains _ _ := false
  evaluateRecord := some fun _ filter _ _ =>
    match filter with
    | .compareExpr _ .eq _ => .ok true
    | .compareExpr _ .ne _ => .ok false
    | _ => .error failure

end

def emptyRow : UnifiedEntity where
  id := 1
  logicalId? := none
  kind := .tableRow "t" 1
  createdAt := 0
  updatedAt := 0
  data := .row ⟨[], none, none⟩
  sequenceId := 0
  fieldBloom := 0

/-- A field predicate with the given outcome on the empty row, and the operator of an expression with it. -/
def fieldLeaf : Option Bool → Filter Expr
  | some true => .isNull (.tableColumn "" "a")
  | some false => .isNotNull (.tableColumn "" "a")
  | none => .compare (.tableColumn "" "rid") .eq (.secret [])

def exprOp : Option Bool → CompareOp
  | some true => .eq
  | some false => .ne
  | none => .lt

theorem exists_outcomes (failure : ε) (filter : Filter Expr) {p : Option Bool × Option Bool}
    (possible : p ∈ verdicts filter.skeleton) : ∃ labelled : Filter Expr, labelled.skeleton = filter.skeleton ∧
      outcome (sealedHost Expr failure) emptyRow "t" "t" labelled = p.1 ∧
      outcome { sealedHost Expr failure with evaluateRecord := none } emptyRow "t" "t" labelled = p.2 := by
  induction filter generalizing p with
  | and left right ihLeft ihRight | or left right ihLeft ihRight =>
    obtain ⟨q, first, r, second, rfl⟩ := Finset.mem_image₂.mp possible
    obtain ⟨labelled, shape, with_, without⟩ := ihLeft first
    obtain ⟨other, shapeOther, withOther, withoutOther⟩ := ihRight second
    first
      | refine ⟨.and labelled other, by simp only [Filter.skeleton, shape, shapeOther], ?_, ?_⟩
        · rw [outcome_and, with_, withOther]
        · rw [outcome_and, without, withoutOther]
      | refine ⟨.or labelled other, by simp only [Filter.skeleton, shape, shapeOther], ?_, ?_⟩
        · rw [outcome_or, with_, withOther]
        · rw [outcome_or, without, withoutOther]
  | not inner ih =>
    obtain ⟨q, inside, rfl⟩ := Finset.mem_image.mp possible
    obtain ⟨labelled, shape, with_, without⟩ := ih inside
    refine ⟨.not labelled, by simp only [Filter.skeleton, shape], ?_, ?_⟩
    · rw [outcome_not, with_]
    · rw [outcome_not, without]
  | compareExpr lhs op rhs =>
    obtain ⟨answer, -, rfl⟩ := Finset.mem_image.mp possible
    refine ⟨.compareExpr lhs (exprOp answer) rhs, rfl, ?_, rfl⟩
    rcases answer with _ | _ | _ <;> rfl
  | _ =>
    obtain ⟨answer, -, rfl⟩ := Finset.mem_image.mp possible
    refine ⟨fieldLeaf answer, ?_, ?_, ?_⟩
    all_goals rcases answer with _ | _ | _ <;> rfl

/-- An expression may stand in conjunctions and disjunctions, but not as a first conjunct to the left of an OR. -/
example : let x : Filter Unit := .isNull (.tableColumn "" "a")
    let e : Filter Unit := .compareExpr () .eq ()
    (Filter.or x (.and x e)).KeepsAccepted ∧ (Filter.or (.and x e) (.not (.not e))).KeepsAccepted ∧
      ¬ (Filter.or (.and e x) x).KeepsAccepted := by
  decide

def falseExpressions : FilterHost Unit Unit :=
  { sealedHost Unit () with
    trySecretQueryInput := fun _ => .ok none
    evaluateRecord := some fun _ _ _ _ => .ok false }

end RedDB.Query
