import RedDB.Query.EntityFilter
import RedDB.Query.RuntimeValue

namespace RedDB.Query

open List RedDB.Types DocumentBody CompiledEntityFilter

section

def Covered (required bloom : BitVec 64) : Prop := bloom &&& required = required

theorem covered_zero (bloom : BitVec 64) : Covered 0 bloom := BitVec.and_zero

variable {left right bloom : BitVec 64}

theorem covered_iff : Covered left bloom ↔ ∀ i, left.getLsbD i = true → bloom.getLsbD i = true := by
  constructor
  · intro covered i set
    rw [← covered, BitVec.getLsbD_and, Bool.and_eq_true] at set
    exact set.1
  · intro set
    apply BitVec.eq_of_getLsbD_eq
    intro i _
    rw [BitVec.getLsbD_and]
    cases bit : left.getLsbD i with
    | false => simp
    | true => simp [set i bit]

theorem Covered.or (first : Covered left bloom) (second : Covered right bloom) : Covered (left ||| right) bloom := by
  rw [covered_iff] at first second ⊢
  intro i set
  rw [BitVec.getLsbD_or, Bool.or_eq_true] at set
  exact set.elim (first i) (second i)

theorem Covered.and_left (covered : Covered left bloom) (right : BitVec 64) : Covered (left &&& right) bloom := by
  rw [covered_iff] at covered ⊢
  intro i set
  rw [BitVec.getLsbD_and, Bool.and_eq_true] at set
  exact covered i set.1

theorem Covered.and_right (covered : Covered right bloom) (left : BitVec 64) : Covered (left &&& right) bloom := by
  rw [BitVec.and_comm]
  exact covered.and_left left

theorem covered_foldl {name : String} (names : List String) (acc : BitVec 64)
    (held : Covered (fieldNameBloom name) acc ∨ name ∈ names) :
    Covered (fieldNameBloom name) (names.foldl (fun acc name => acc ||| fieldNameBloom name) acc) := by
  induction names generalizing acc with
  | nil => exact held.resolve_right not_mem_nil
  | cons first names ih =>
    apply ih
    rcases held with held | held
    · left
      rw [covered_iff] at held ⊢
      intro i set
      rw [BitVec.getLsbD_or, held i set, Bool.true_or]
    · rcases mem_cons.mp held with rfl | later
      · left
        rw [covered_iff]
        intro i set
        rw [BitVec.getLsbD_or, set, Bool.or_true]
      · exact .inr later

theorem covered_bloomOfNames {name : String} {names : List String} (held : name ∈ names) :
    Covered (fieldNameBloom name) (bloomOfNames names) :=
  covered_foldl names 0 (.inr held)

end

section

def ownNames : EntityData → List String
  | .row row =>
    if row.schema.isSome then []
    else
      match row.named with
      | some named => named.keys ++ bodyNames named
      | none => []
  | .node properties => properties.keys
  | .edge properties _ => properties.keys
  | _ => []

variable (data : EntityData)

theorem computeEntityFieldBloom_eq :
    computeEntityFieldBloom data = bloomOfNames (ownNames data) := by
  cases data with
  | row row =>
    simp only [computeEntityFieldBloom, ownNames]
    split
    · rfl
    · cases row.named <;> rfl
  | node properties => rfl
  | edge properties weight => rfl
  | vector => rfl
  | timeSeries ts => rfl
  | queueMessage => rfl

def isEdge : EntityData → Bool
  | .edge _ _ => true
  | _ => false

def namesField (column : String) : Bool :=
  column != "id" && (positionalField column).isNone && !(isEdge data && column == "weight")

def answeredByName : FieldRef → Bool
  | .tableColumn table column => table != "" || column ∈ ownNames data || namesField data column
  | _ => true

def bodyListed : EntityData → Bool
  | .row row =>
    match row.getField "body" with
    | some (.json bytes) => !isBinaryContainer bytes || (fieldNames bytes).isOk
    | _ => true
  | _ => true

end

section

variable {host : EntityHost} {entity : UnifiedEntity} {column tableName tableAlias : String} {value : Value}

theorem systemField_eq_none (user : column ∉ systemFields) : systemField column = none := by
  unfold systemField
  split <;> first | rfl | simp [systemFields] at user

theorem kindValue_eq_none {kind : EntityKind} (plain : kind.isGraph = false) (column : String) :
    kindValue kind column = none := by
  cases kind <;> simp_all [EntityKind.isGraph, kindValue]

theorem orElse_cases {first second : Option Value} (found : (first <|> second) = some value) :
    first = some value ∨ second = some value := by
  cases first with
  | none => exact .inr found
  | some other => exact .inl found

theorem rowValue_mem {row : RowData} {named : NamedFields} (names : row.named = some named)
    (listed : bodyListed (.row row) = true) (place : positionalField column = none)
    (found : rowValue host row column = some value) : column ∈ named.keys ++ bodyNames named := by
  have getField : ∀ name, row.getField name = named.get? name := by
    intro name
    simp only [RowData.getField, names]
  simp only [rowValue, place, Option.bind_none, getField] at found
  simp only [bodyListed, getField] at listed
  rw [mem_append]
  rcases orElse_cases found with inBody | found
  · right
    split at inBody
    case h_1 bytes body =>
      rw [body] at listed
      have container : isBinaryContainer bytes = true := by
        by_contra other
        simp [readBodyField, other] at inBody
      simp only [container, Bool.not_true, Bool.false_or] at listed
      cases names : fieldNames bytes with
      | error e => simp [names, Except.isOk, Except.toBool] at listed
      | ok fields =>
        simp only [bodyNames, body, names, Except.toOption, Option.getD_some]
        exact mem_fieldNames names inBody
    case h_2 => simp at inBody
  · left
    rcases orElse_cases found with stored | impossible
    · exact NamedFields.mem_keys stored
    · simp at impossible

theorem dataValue_mem {data : EntityData} (listed : bodyListed data = true)
    (nonzero : computeEntityFieldBloom data ≠ 0) (named : namesField data column = true)
    (found : dataValue host data column = some value) : column ∈ ownNames data := by
  simp only [namesField, Bool.and_eq_true, Option.isNone_iff_eq_none] at named
  obtain ⟨⟨-, place⟩, edge⟩ := named
  cases data with
  | row row =>
    simp only [computeEntityFieldBloom] at nonzero
    simp only [ownNames]
    by_cases schema : row.schema.isSome = true
    · simp [schema] at nonzero
    · rw [if_neg schema] at nonzero ⊢
      cases names : row.named with
      | none => simp [names] at nonzero
      | some fields => exact rowValue_mem names listed place found
  | node properties => exact NamedFields.mem_keys found
  | edge properties weight =>
    have other : column ≠ "weight" := by simpa [isEdge] using edge
    simp only [dataValue, if_neg other] at found
    exact NamedFields.mem_keys found
  | vector => simp [dataValue] at found
  | timeSeries ts => simp [computeEntityFieldBloom] at nonzero
  | queueMessage => simp [dataValue] at found

/-- The entity's bloom is not the empty one and has the names its fields are read by. -/
structure Summarised (entity : UnifiedEntity) : Prop where
  stored : entity.fieldBloom = computeEntityFieldBloom entity.data
  plain : entity.kind.isGraph = false
  nonzero : entity.fieldBloom ≠ 0
  listed : bodyListed entity.data = true

theorem resolveEntityField_covered (summarised : Summarised entity) {field : FieldRef}
    (known : answeredByName entity.data field = true)
    (found : resolveEntityField host entity field tableName tableAlias = some value) :
    Covered (bloomForField field) entity.fieldBloom := by
  cases field with
  | tableColumn table column =>
    simp only [bloomForField]
    split
    case isTrue => exact covered_zero _
    case isFalse own =>
      simp only [not_or, not_not] at own
      obtain ⟨unqualified, user, single⟩ := own
      rw [summarised.stored, computeEntityFieldBloom_eq]
      apply covered_bloomOfNames
      simp only [answeredByName, unqualified, bne_self_eq_false, Bool.false_or, Bool.or_eq_true,
        decide_eq_true_eq] at known
      rcases known with held | named
      · exact held
      · simp only [resolveEntityField, unqualified, ne_eq, not_true_eq_false, false_and, if_false, resolveColumn,
          systemField_eq_none user, if_neg single, kindValue_eq_none summarised.plain] at found
        have other : column ≠ "id" := by
          simp only [namesField, Bool.and_eq_true, bne_iff_ne] at named
          exact named.1.1
        rcases orElse_cases found with fromData | elsewhere
        · exact dataValue_mem summarised.listed (summarised.stored ▸ summarised.nonzero) named fromData
        · simp [aliasValue, other] at elsewhere
  | nodeProperty | edgeProperty | nodeId => exact covered_zero _

end

section

variable {Expr ε : Type} {host : FilterHost Expr ε} {entity : UnifiedEntity} {tableName tableAlias : String}

def Filter.gatedFields : Filter Expr → List FieldRef
  | .compare field _ _ => [field]
  | .between field _ _ => [field]
  | .isIn field _ => [field]
  | .like field _ => [field]
  | .startsWith field _ => [field]
  | .endsWith field _ => [field]
  | .contains field _ => [field]
  | .isNotNull field => [field]
  | .and left right => left.gatedFields ++ right.gatedFields
  | .or left right => left.gatedFields ++ right.gatedFields
  | _ => []

theorem onCandidate_found {field : FieldRef} {test : Value → Except ε Bool}
    (accepted : onCandidate host entity tableName tableAlias field test = .ok true) :
    ∃ value, resolveEntityField host.toEntityHost entity field tableName tableAlias = some value := by
  cases found : resolveEntityField host.toEntityHost entity field tableName tableAlias with
  | some value => exact ⟨value, rfl⟩
  | none => simp [onCandidate, tryResolveEntityFilterField, found, bind, Except.bind] at accepted

theorem collectRequiredBloom_covered {filter : Filter Expr}
    (known : ∀ field ∈ filter.gatedFields, ∀ value,
      resolveEntityField host.toEntityHost entity field tableName tableAlias = some value →
      Covered (bloomForField field) entity.fieldBloom)
    (accepted : evaluateEntityFilterResult host entity tableName tableAlias filter = .ok true) :
    Covered (collectRequiredBloom filter) entity.fieldBloom := by
  -- what every leaf on one field has in common
  have leaf : ∀ {field : FieldRef} {test : Value → Except ε Bool},
      (∀ value, resolveEntityField host.toEntityHost entity field tableName tableAlias = some value →
        Covered (bloomForField field) entity.fieldBloom) →
      onCandidate host entity tableName tableAlias field test = .ok true →
      Covered (bloomForField field) entity.fieldBloom := by
    intro field test known accepted
    obtain ⟨value, found⟩ := onCandidate_found accepted
    exact known value found
  induction filter with
  | compare field op value => exact leaf (known field (by simp [Filter.gatedFields])) accepted
  | compareFields left op right | compareExpr lhs op rhs => exact covered_zero _
  | and left right ihLeft ihRight =>
    simp only [Filter.gatedFields, mem_append] at known
    obtain ⟨leftAccepted, rightAccepted⟩ := and_accepts.mp accepted
    exact (ihLeft (fun field held => known field (.inl held)) leftAccepted).or
      (ihRight (fun field held => known field (.inr held)) rightAccepted)
  | or left right ihLeft ihRight =>
    simp only [Filter.gatedFields, mem_append] at known
    rcases or_accepts.mp accepted with leftAccepted | ⟨-, rightAccepted⟩
    · exact (ihLeft (fun field held => known field (.inl held)) leftAccepted).and_left _
    · exact (ihRight (fun field held => known field (.inr held)) rightAccepted).and_right _
  | not inner | isNull field => exact covered_zero _
  | isNotNull field | isIn field values
  | between field low high | like field pattern
  | startsWith field start | endsWith field suffix
  | contains field substring => exact leaf (known field (by simp [Filter.gatedFields])) accepted

/-- A host under which every comparison of two readable values succeeds. -/
def agreeingHost (failure : ε) (reader : EntityHost) : FilterHost Expr ε where
  toEntityHost := reader
  trySecretQueryInput _ := .ok (some .null)
  queryError _ := failure
  compareRuntimeValues _ _ _ := true
  runtimeValueText _ := none
  likeMatches _ _ := true
  runtimeValueContains _ _ := true
  evaluateRecord := none

theorem agreeingHost_accepts (failure : ε) {reader : EntityHost} {field : FieldRef} {value : Value}
    (found : resolveEntityField reader entity field tableName tableAlias = some value) :
    evaluateEntityFilter (agreeingHost failure reader : FilterHost Expr ε) entity tableName tableAlias
      (.compare field .eq .null) = true := by
  have null : secretInput (agreeingHost failure reader : FilterHost Expr ε) .null = .ok (some .null) := rfl
  have readable (value : Value) : ∃ decoded, isSecret decoded = false ∧
      (if isSecret value then secretInput (agreeingHost failure reader : FilterHost Expr ε) value else .ok (some value)) =
        .ok (some decoded) := by
    by_cases secret : isSecret value = true
    · have bare : isSecret .null = false := rfl
      exact ⟨.null, bare, by simp [secret, bare, secretInput, jsonMaxNestingDepth, trySecretRuntimeInput, agreeingHost,
        bind, Except.bind]⟩
    · exact ⟨value, by simpa using secret, by simp [secret]⟩
  obtain ⟨decoded, plain, read⟩ := readable value
  have again : secretInput (agreeingHost failure reader : FilterHost Expr ε) decoded = .ok (some decoded) := by
    simp [secretInput, jsonMaxNestingDepth, trySecretRuntimeInput, plain]
  have resolved : tryResolveEntityFilterField (agreeingHost failure reader : FilterHost Expr ε) entity tableName
      tableAlias field = .ok (some decoded) := by
    rw [← read]
    simp only [tryResolveEntityFilterField, agreeingHost, found]
  simp only [evaluateEntityFilter, evaluateEntityFilterResult, onCandidate, resolved, tryCompareRuntimeValues, again, null,
    bind, Except.bind]
  rfl

/-- Among the filters on the given columns every accepted one passes the gate, whatever the host, exactly if the gate
    lets the entity pass anyway or the bloom has the bits of every one of the columns that is answered. The columns
    answered by a field of their own name are such. -/
theorem accepted_passes_gate (failure : ε) (stored : entity.fieldBloom = computeEntityFieldBloom entity.data)
    (fields : List FieldRef) (tableName tableAlias : String) :
    ((∀ (host : FilterHost Expr ε) (filter : Filter Expr) (schemaCols : Option (List String)),
        filter.gatedFields ⊆ fields → evaluateEntityFilter host entity tableName tableAlias filter = true →
        bloomGateRejects (compile filter tableName tableAlias schemaCols).requiredBloom entity.kind.isGraph
          entity.fieldBloom = false) ↔
      entity.kind.isGraph = true ∨ entity.fieldBloom = 0 ∨ ∀ field ∈ fields, ∀ reader value,
        resolveEntityField reader entity field tableName tableAlias = some value →
        Covered (bloomForField field) entity.fieldBloom) ∧
    (entity.kind.isGraph = false → entity.fieldBloom ≠ 0 → bodyListed entity.data = true → ∀ field reader value,
      answeredByName entity.data field = true → resolveEntityField reader entity field tableName tableAlias = some value →
      Covered (bloomForField field) entity.fieldBloom) := by
  refine ⟨⟨fun passes => ?_, fun covers host filter schemaCols within accepted => ?_⟩, fun plain nonzero listed => ?_⟩
  · by_contra uncovered
    simp only [not_or, not_forall] at uncovered
    obtain ⟨plain, nonzero, field, member, reader, value, found, missing⟩ := uncovered
    have passed := passes (agreeingHost failure reader) (.compare field .eq .null) none (by simpa [Filter.gatedFields])
      (agreeingHost_accepts failure found)
    have required : bloomForField field ≠ 0 := fun zero => missing (zero ▸ covered_zero _)
    simp only [bloomGateRejects, compile, collectRequiredBloom, plain, Bool.not_false, Bool.true_and,
      Bool.and_eq_false_iff, bne_eq_false_iff_eq] at passed
    rcases passed with (zero | zero) | covered
    · exact required zero
    · exact nonzero zero
    · exact missing covered
  · unfold bloomGateRejects
    rcases covers with graph | zero | covers
    · simp [graph]
    · simp [zero]
    · have covered : entity.fieldBloom &&& collectRequiredBloom filter = collectRequiredBloom filter :=
        collectRequiredBloom_covered (fun field held value => covers field (within held) host.toEntityHost value)
          (result_of_accepts accepted)
      simp only [compile, covered, bne_self_eq_false, Bool.and_false]
  · exact fun field reader value known => resolveEntityField_covered ⟨stored, plain, nonzero, listed⟩ known

end

section

def integerHost : FilterHost Unit Unit where
  decodeValue _ := .error ""
  documentPathFromValue _ _ := none
  timeseriesTagsJsonValue _ := .null
  floatOfFloat32 _ := 0
  timestampContext := none
  trySecretQueryInput value := .ok (some value)
  queryError _ := ()
  compareRuntimeValues left right op := op == .eq && runtimeExactIntegerCmp left right == some .eq
  runtimeValueText _ := none
  likeMatches _ _ := false
  runtimeValueContains _ _ := false
  evaluateRecord := none

def keyValueRow : UnifiedEntity where
  id := 7
  logicalId? := none
  kind := .tableRow "settings" 1
  createdAt := 0
  updatedAt := 0
  data := .row ⟨[], some ⟨[("key", .text "limit"), ("value", .integer 20)], by decide⟩, none⟩
  sequenceId := 0
  fieldBloom :=
    computeEntityFieldBloom
      (.row ⟨[], some ⟨[("key", .text "limit"), ("value", .integer 20)], by decide⟩, none⟩)

theorem accepted_passes_gate_value : bloomGateRejects
      (compile (.compare (.tableColumn "" "value") .eq (.integer 20) : Filter Unit) "settings" "s" none).requiredBloom
      keyValueRow.kind.isGraph keyValueRow.fieldBloom = false := by
  have gate := @accepted_passes_gate Unit Unit keyValueRow () rfl [.tableColumn "" "value"] "settings" "s"
  refine gate.1.mpr (.inr (.inr fun field listed reader value => ?_)) integerHost _ none (by simp [Filter.gatedFields])
    (by decide +kernel)
  obtain rfl := mem_singleton.mp listed
  exact gate.2 rfl (by decide +kernel) rfl _ reader value (by decide +kernel)

/-- `WHERE id = 7` is answered by the logical id, and no field of the row has the bit of `id`. -/
theorem id_alias_rejected : keyValueRow.fieldBloom = computeEntityFieldBloom keyValueRow.data ∧
      evaluateEntityFilter integerHost keyValueRow "settings" "s"
        (.compare (.tableColumn "" "id") .eq (.unsignedInteger 7)) = true ∧
      bloomGateRejects
        (compile (.compare (.tableColumn "" "id") .eq (.unsignedInteger 7) : Filter Unit) "settings" "s"
          none).requiredBloom
        keyValueRow.kind.isGraph keyValueRow.fieldBloom = true :=
  ⟨rfl, by decide +kernel, by decide +kernel⟩

end

end RedDB.Query
