import RedDB.Query.CompiledFilter
import RedDB.Types.DocumentBody

namespace RedDB.Query

open Library RedDB.Types DocumentBody

structure NamedFields where
  entries : List (String × Value)
  unique : (entries.map Prod.fst).Nodup

namespace NamedFields

def keys (fields : NamedFields) : List String := fields.entries.map Prod.fst

def get? (fields : NamedFields) (name : String) : Option Value := fields.entries.lookup name

theorem mem_keys {fields : NamedFields} {name : String} {value : Value} (held : fields.get? name = some value) :
    name ∈ fields.keys := by
  obtain ⟨before, after, split, -⟩ := List.lookup_eq_some_iff.mp held
  simp [keys, split]

end NamedFields

structure RowData where
  columns : List Value
  named : Option NamedFields
  schema : Option (List String)

def RowData.getField (row : RowData) (name : String) : Option Value :=
  match row.named with
  | some named => named.get? name
  | none =>
    match row.schema with
    | some schema => (schema.findIdx? (· == name)).bind (row.columns[·]?)
    | none => none

structure TimeSeriesData where
  metric : String
  timestampNs : BitVec 64
  value : BitVec 64
  tags : List (String × String)

inductive EntityData
  | row (row : RowData)
  | node (properties : NamedFields)
  | edge (properties : NamedFields) (weight : BitVec 32)
  | vector
  | timeSeries (ts : TimeSeriesData)
  | queueMessage

def EntityData.asRow : EntityData → Option RowData
  | .row data => some data
  | _ => none

inductive EntityKind
  | tableRow (table : String) (rowId : BitVec 64)
  | graphNode (label nodeType : String)
  | graphEdge (label fromNode toNode : String)
  | vector (collection : String)
  | timeSeriesPoint (series : String)
  | queueMessage (queue : String)

namespace EntityKind

def storageType : EntityKind → String
  | tableRow _ _ => "table"
  | graphNode _ _ => "graph_node"
  | graphEdge _ _ _ => "graph_edge"
  | vector _ => "vector"
  | timeSeriesPoint _ => "timeseries"
  | queueMessage _ => "queue"

def collection : EntityKind → String
  | tableRow table _ => table
  | graphNode label _ => label
  | graphEdge label _ _ => label
  | vector collection => collection
  | timeSeriesPoint series => series
  | queueMessage queue => queue

/-- `kind_field_query`: the fields of these kinds are not all in the bloom. -/
def isGraph : EntityKind → Bool
  | graphNode _ _ => true
  | graphEdge _ _ _ => true
  | _ => false

end EntityKind

structure UnifiedEntity where
  id : BitVec 64
  logicalId? : Option (BitVec 64)
  kind : EntityKind
  createdAt : BitVec 64
  updatedAt : BitVec 64
  data : EntityData
  sequenceId : BitVec 64
  fieldBloom : BitVec 64

def UnifiedEntity.logicalId (entity : UnifiedEntity) : BitVec 64 := entity.logicalId?.getD entity.id

section

def bloomOfNames (names : List String) : BitVec 64 := names.foldl (fun acc name => acc ||| fieldNameBloom name) 0

/-- The names in the document of a `body` field, none when they cannot be read. -/
def bodyNames (named : NamedFields) : List String :=
  match named.get? "body" with
  | some (.json bytes) => (fieldNames bytes).toOption.getD []
  | _ => []

def computeEntityFieldBloom : EntityData → BitVec 64
  | .row row =>
    if row.schema.isSome then 0
    else
      match row.named with
      | some named => bloomOfNames (named.keys ++ bodyNames named)
      | none => 0
  | .node properties => bloomOfNames properties.keys
  | .edge properties _ => bloomOfNames properties.keys
  | _ => 0

end

/-- What a field lookup takes from elsewhere: the value codec, paths into JSON values, the JSON of tags,
    the widening of floats, and the collection and column under retention maintenance. -/
structure EntityHost where
  decodeValue : List UInt8 → Except String (Value × Nat)
  documentPathFromValue : Value → List String → Option Value
  timeseriesTagsJsonValue : List (String × String) → Value
  floatOfFloat32 : BitVec 32 → BitVec 64
  timestampContext : Option (String × String)

section

def segment (current : List Char) : List String := if current = [] then [] else [String.ofList current]

mutual

def pathSegments : List Char → List Char → List String
  | [], current => segment current
  | ch :: rest, current =>
    if ch = '.' then segment current ++ pathSegments rest []
    else if ch = '[' then segment current ++ indexSegments rest []
    else pathSegments rest (current ++ [ch])

def indexSegments : List Char → List Char → List String
  | [], index => segment index
  | ch :: rest, index =>
    if ch = ']' then segment index ++ pathSegments rest []
    else indexSegments rest (index ++ [ch])

end

def parseRuntimeDocumentPath (path : String) : List String := pathSegments path.toList []

end

variable (host : EntityHost)

section

def checkedI64 (n : Int) : Option Int := if -2 ^ 63 ≤ n ∧ n < 2 ^ 63 then some n else none

variable (entity : UnifiedEntity)

def maintenanceTimestamp (field : String) : Option Value :=
  if host.timestampContext = some (entity.kind.collection, field) ∧ (field = "created_at" ∨ field = "updated_at") then
    let millis :=
      match entity.data.asRow.bind (·.getField field) with
      | some (.timestampMs v) => some v.toInt
      | some (.bigInt v) => some v.toInt
      | some (.integer v) => some v.toInt
      | some (.timestamp v) => checkedI64 (v.toInt * 1000)
      | some (.unsignedInteger v) => checkedI64 v.toNat
      | some _ => none
      | none => do
        let seconds ← checkedI64 (if field = "created_at" then entity.createdAt else entity.updatedAt).toNat
        let millis ← checkedI64 (seconds * 1000)
        checkedI64 (millis + 999)
    some ((millis.map fun m => Value.integer (BitVec.ofInt 64 m)).getD .null)
  else none

def below (value : Value) (tail : List String) : Option Value :=
  if tail = [] then some value else host.documentPathFromValue value tail

def resolveInProperties (properties : NamedFields) (root : String) (tail : List String) : Option Value :=
  match (if root = "properties" then tail.head?.map (·, tail.tail) else some (root, tail)) with
  | none => none
  | some (root, tail) => (properties.get? root).bind (below host · tail)

def resolveEntityDocumentPath (path : String) : Option Value :=
  match parseRuntimeDocumentPath path with
  | [] => none
  | root :: tail =>
    match entity.data with
    | .row row => (row.getField root).bind (below host · tail)
    | .node properties => resolveInProperties host properties root tail
    | .edge properties _ => resolveInProperties host properties root tail
    | .timeSeries ts =>
      if root = "tags" then below host (host.timeseriesTagsJsonValue ts.tags) tail else none
    | _ => none

def systemValue : EntityFieldKind → Option Value
  | .systemEntityId => some (.unsignedInteger entity.logicalId)
  | .systemCreatedAt =>
    some ((maintenanceTimestamp host entity "created_at").getD (.unsignedInteger entity.createdAt))
  | .systemUpdatedAt =>
    some ((maintenanceTimestamp host entity "updated_at").getD (.unsignedInteger entity.updatedAt))
  | .systemSequenceId => some (.unsignedInteger entity.sequenceId)
  | .systemCollection => some (.text entity.kind.collection)
  | .systemKind => some (.text entity.kind.storageType)
  | .systemRowId =>
    match entity.kind with
    | .tableRow _ rowId => some (.unsignedInteger rowId)
    | _ => none
  | _ => none

def rowValue (row : RowData) (column : String) : Option Value :=
  let fromBody :=
    match row.getField "body" with
    | some (.json bytes) => readBodyField host.decodeValue bytes column
    | _ => none
  fromBody <|> row.getField column <|> (positionalField column).bind (row.columns[·]?)

def timeSeriesValue (ts : TimeSeriesData) : String → Option Value
  | "metric" => some (.text ts.metric)
  | "timestamp_ns" => some (.unsignedInteger ts.timestampNs)
  | "timestamp" => some (.unsignedInteger ts.timestampNs)
  | "time" => some (.unsignedInteger ts.timestampNs)
  | "value" => some (.float ts.value)
  | "tags" => some (host.timeseriesTagsJsonValue ts.tags)
  | _ => none

def dataValue (data : EntityData) (column : String) : Option Value :=
  match data with
  | .row row => rowValue host row column
  | .node properties => properties.get? column
  | .edge properties weight =>
    if column = "weight" then some (.float (host.floatOfFloat32 weight)) else properties.get? column
  | .timeSeries ts => timeSeriesValue host ts column
  | _ => none

/-- `str::parse::<u64>` of a node's name. -/
def nodeRid (name : String) : Option Value := (parseUsize name.toList).map fun id => .unsignedInteger id

def kindValue (kind : EntityKind) (column : String) : Option Value :=
  match kind with
  | .graphNode label nodeType =>
    if column = "label" then some (.text label)
    else if column = "node_type" then some (.text nodeType)
    else none
  | .graphEdge label fromNode toNode =>
    if column = "label" then some (.text label)
    else if column = "from_rid" then nodeRid fromNode
    else if column = "to_rid" then nodeRid toNode
    else if column = "from_node" then some (.text fromNode)
    else if column = "to_node" then some (.text toNode)
    else none
  | _ => none

section

variable (entity : UnifiedEntity)

def aliasValue (column : String) : Option Value :=
  if column = "id" then some (.unsignedInteger entity.logicalId) else none

def resolveColumn (column : String) : Option Value :=
  match systemField column with
  | some kind => systemValue host entity kind
  | none =>
    dataValue host entity.data column <|>
      (if '.' ∈ column.toList then resolveEntityDocumentPath host entity column else none) <|>
      kindValue entity.kind column <|> aliasValue entity column

def resolveEntityField (field : FieldRef) (tableName tableAlias : String) :
    Option Value :=
  match field with
  | .tableColumn table column =>
    if table ≠ "" ∧ ¬ runtimeTableContextMatches table (some tableName) (some tableAlias) then
      resolveEntityDocumentPath host entity (table ++ "." ++ column)
    else resolveColumn host entity column
  | _ => none

end

end

end RedDB.Query
