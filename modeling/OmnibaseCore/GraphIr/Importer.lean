import OmnibaseCore.Python.Path
import OmnibaseCore.Receipts.Contract

/-!
# The contract graph

`ModelContractGraphIr` with its nodes and edges, and the semantic diff of normalized contracts.
-/

namespace OmnibaseCore.GraphIr

open OmnibaseCore.Receipts

structure GraphInterpreter extends TextInterpreter where
  /-- `json.dumps(d, sort_keys=True, separators=(",", ":"), ensure_ascii=True, default=str)` -/
  dumps : Mapping → Except PyException String
  /-- `hashlib.sha256(s.encode()).hexdigest()` -/
  sha256 : String → String
  /-- `inspect.getsource` of the functions of the adapter -/
  sources : List String
  /-- `type(v).__name__` -/
  typeName : Value → String

/-- `EnumContractGraphNodeRole`. -/
inductive NodeRole
  | effect
  | compute
  | reducer
  | orchestrator
  | component
  | renderer
  | protocol

/-- `repr(role)`. -/
def NodeRole.repr : NodeRole → String
  | .effect => "<EnumContractGraphNodeRole.EFFECT: 'effect'>"
  | .compute => "<EnumContractGraphNodeRole.COMPUTE: 'compute'>"
  | .reducer => "<EnumContractGraphNodeRole.REDUCER: 'reducer'>"
  | .orchestrator => "<EnumContractGraphNodeRole.ORCHESTRATOR: 'orchestrator'>"
  | .component => "<EnumContractGraphNodeRole.COMPONENT: 'component'>"
  | .renderer => "<EnumContractGraphNodeRole.RENDERER: 'renderer'>"
  | .protocol => "<EnumContractGraphNodeRole.PROTOCOL: 'protocol'>"

/-- `EnumContractGraphEdgeKind`. -/
inductive EdgeKind
  | publishes
  | subscribes
  | implementsProtocol
  | componentRenders
  | actionEmits
  | dataBinds
deriving DecidableEq

structure ModelContractGraphProtocol where
  protocolId : String
  qualifiedName : String
  inputModel : Option String
  outputModel : Option String

structure ModelContractGraphContractRef where
  refId : String
  sourcePath : String
  dialect : String
  sourceContractSha256 : String
  adapterVersionSha256 : String

structure ModelContractGraphNode where
  nodeId : String
  role : NodeRole
  title : String
  sourceRef : ModelContractGraphContractRef
  protocols : List ModelContractGraphProtocol

structure ModelContractGraphEdge where
  edgeId : String
  sourceNodeId : String
  targetNodeId : String
  kind : EdgeKind
  topic : Option String

structure ModelContractGraphSourceSet where
  discoveryRoots : List String
  refs : List ModelContractGraphContractRef

/-- `ModelContractGraphIr`. The version is that of the importer. -/
structure ModelContractGraphIr where
  irVersion : ℕ × ℕ × ℕ
  nodes : List ModelContractGraphNode
  edges : List ModelContractGraphEdge
  sourceSet : ModelContractGraphSourceSet

/-! ## Normalized contracts and their diff -/

inductive FormValue
  | text (s : String)
  | texts (l : List String)
deriving DecidableEq

/-- A normalized contract. -/
abbrev Form := List (String × FormValue)

inductive ChangeType
  | added
  | removed
  | changed
deriving DecidableEq

inductive Severity
  | high
  | medium
  | low

structure ModelDiffEntry where
  changeType : ChangeType
  path : String
  oldValue : Option FormValue
  newValue : Option FormValue
  severity : Severity

structure ModelDiffResult where
  behavioralChanges : List ModelDiffEntry
  added : List ModelDiffEntry
  removed : List ModelDiffEntry
  changed : List ModelDiffEntry

def ModelDiffResult.hasChanges (r : ModelDiffResult) : Bool :=
  !r.behavioralChanges.isEmpty || !r.added.isEmpty || !r.removed.isEmpty || !r.changed.isEmpty

def behavioralFields : List String :=
  ["descriptor.purity", "descriptor.idempotent", "descriptor.timeout_ms",
    "descriptor.retry_policy", "descriptor.circuit_breaker", "descriptor.node_kind",
    "descriptor.node_type", "handlers", "dependencies", "capabilities", "state_machine", "fsm"]

def isBehavioralField (path : String) : Bool :=
  path ∈ behavioralFields || behavioralFields.any fun behavioral =>
    startsWith (behavioral ++ ".") path || startsWith (behavioral ++ "[") path ||
      startsWith (path ++ ".") behavioral

def shouldExcludeFromDiff (path : String) : Bool :=
  path = "_metadata" || startsWith "_metadata." path

def getDiffSeverity (i : TextInterpreter) (path : String) (changeType : ChangeType) : Severity :=
  if isBehavioralField path then .high
  else if occursIn "version" (i.lower path) then .medium
  else if changeType = .removed then .medium
  else .low

def diffEntry (i : TextInterpreter) (changeType : ChangeType) (path severityPath : String)
    (oldValue newValue : Option FormValue) : ModelDiffEntry :=
  { changeType := changeType, path := path, oldValue := oldValue, newValue := newValue,
    severity := getDiffSeverity i severityPath changeType }

/-- `diff_contract_lists`, for lists of texts: they are compared place by place. -/
def diffContractLists (i : TextInterpreter) (old new : List String) (path : String) :
    List ModelDiffEntry :=
  (List.range (max old.length new.length)).flatMap fun k =>
    let itemPath := path ++ "[" ++ toString k ++ "]"
    match old[k]?, new[k]? with
    | none, item => [diffEntry i .added itemPath path none (item.map .text)]
    | item, none => [diffEntry i .removed itemPath path (item.map .text) none]
    | some old, some new =>
      if old ≠ new then
        [diffEntry i .changed itemPath path (some (.text old)) (some (.text new))]
      else []

def diffKey (i : TextInterpreter) (old new : Form) (key : String) : List ModelDiffEntry :=
  if shouldExcludeFromDiff key then []
  else
    match old.lookup key, new.lookup key with
    | none, value => [diffEntry i .added key key none value]
    | value, none => [diffEntry i .removed key key value none]
    | some old, some new =>
      if old ≠ new then
        match old, new with
        | .texts old, .texts new => diffContractLists i old new key
        | old, new => [diffEntry i .changed key key (some old) (some new)]
      else []

/-- `diff_contract_dicts`, for normalized contracts. -/
def diffContractDicts (i : TextInterpreter) (old new : Form) : List ModelDiffEntry :=
  let allKeys := (old.map Prod.fst ++ new.map Prod.fst).dedup
  (sortedAsc id allKeys).flatMap (diffKey i old new)

def categorizeDiffEntries (diffs : List ModelDiffEntry) : ModelDiffResult :=
  diffs.foldl
    (fun result entry =>
      if isBehavioralField entry.path then
        { result with behavioralChanges := result.behavioralChanges ++ [entry] }
      else
        match entry.changeType with
        | .added => { result with added := result.added ++ [entry] }
        | .removed => { result with removed := result.removed ++ [entry] }
        | .changed => { result with changed := result.changed ++ [entry] })
    { behavioralChanges := [], added := [], removed := [], changed := [] }

/-!
## Importing node contracts

`import_node_contract` makes a node and its topic edges of a contract, `import_paths` a graph of
many of them. `round_trip_node_node` goes back from a node and its edges to the normalized
contract, and `round_trip_node_diff` compares this with `normalize_node_contract`, which reads the
contract itself.
-/

/-! ## Identity and topics -/

def nodeTypeToRole : List (String × NodeRole) :=
  [("effect", .effect), ("compute", .compute), ("reducer", .reducer),
    ("orchestrator", .orchestrator), ("EFFECT_GENERIC", .effect), ("COMPUTE_GENERIC", .compute),
    ("REDUCER_GENERIC", .reducer), ("ORCHESTRATOR_GENERIC", .orchestrator)]

def roleToCanonicalNodeType : NodeRole → Option String
  | .effect => some "effect"
  | .compute => some "compute"
  | .reducer => some "reducer"
  | .orchestrator => some "orchestrator"
  | _ => none

/-- `sorted(_NODE_TYPE_TO_ROLE)`, printed. -/
def sortedNodeTypes : String :=
  "['COMPUTE_GENERIC', 'EFFECT_GENERIC', 'ORCHESTRATOR_GENERIC', 'REDUCER_GENERIC', " ++
    "'compute', 'effect', 'orchestrator', 'reducer']"

def nonEmptyText (v : Option Value) : Option String :=
  (v.bind asText).filter fun s => s ≠ ""

/-- The first of `handler_id`, `name` and `node_id` that is a text. -/
def declaredId (data : Mapping) : Option String :=
  nonEmptyText (data.get "handler_id") <|> nonEmptyText (data.get "name") <|>
    nonEmptyText (data.get "node_id")

def nodeIdFromSourcePath (sourcePath : String) : Except PyException String :=
  let stem := pathStem sourcePath
  if stem = "" then
    .error (.valueError (sourcePath ++ ": cannot derive node_id — source path has no stem"))
  else .ok stem

def resolveNodeId (data : Mapping) (sourcePath : String) : Except PyException String :=
  match declaredId data with
  | some nodeId => .ok nodeId
  | none => nodeIdFromSourcePath sourcePath

def rawTopicList (i : GraphInterpreter) (raw : Option Value) (label : String) :
    Except PyException (List String) :=
  match raw with
  | none | some .none => .ok []
  | some (.list entries) =>
    entries.mapM fun entry =>
      match entry with
      | .str topic => .ok topic
      | entry => .error (.valueError
          (i.repr label ++ " entries must be strings, got " ++ i.typeName entry))
  | some raw => .error (.valueError
      (i.repr label ++ " must be a list of topic strings, got " ++ i.typeName raw))

/-- The first topics, and those of the second list that have not been seen. -/
def unionTopics (topics nested : List String) : List String :=
  nested.foldl (fun combined t => if t ∈ combined then combined else combined ++ [t]) topics

def topicList (i : GraphInterpreter) (data : Mapping) (key : String) :
    Except PyException (List String) := do
  let topLevel ← rawTopicList i (data.get key) key
  match data.get "event_bus" with
  | some (.dict eventBus) => do
    let nested ← rawTopicList i (Mapping.get eventBus key) ("event_bus." ++ key)
    if nested.isEmpty then return topLevel else return unionTopics topLevel nested
  | _ => return topLevel

/-! ## Import -/

def canonicalizeContract (data : Mapping) : Mapping :=
  data.filter fun e => !isText "_metadata" e.1

def canonicalContractSha256 (i : GraphInterpreter) (data : Mapping) :
    Except PyException String := do
  let payload ← i.dumps (canonicalizeContract data)
  return "sha256:" ++ i.sha256 payload

def dialectName : String := "node"

def nodeContractAdapterVersion (i : GraphInterpreter) : String :=
  "sha256:" ++ i.sha256 ("\n".intercalate (("adapter:" ++ dialectName) :: i.sources))

/-- The role of a contract that `supports_node_contract` accepts. -/
def supportedRole (data : Mapping) : Option NodeRole :=
  ((data.get "node_type").bind asText).bind fun nodeType => nodeTypeToRole.lookup nodeType

def ioProtocols (data : Mapping) (nodeId : String) : List ModelContractGraphProtocol :=
  let inputModel := (data.get "input_model").bind asText
  let outputModel := (data.get "output_model").bind asText
  if inputModel.isSome || outputModel.isSome then
    [{ protocolId := nodeId ++ "::io", qualifiedName := nodeId ++ "::handler_io",
       inputModel := inputModel, outputModel := outputModel }]
  else []

def topicEdge (i : GraphInterpreter) (nodeId : String) (kind : EdgeKind) (verb topic : String) :
    Except PyException ModelContractGraphEdge :=
  if topic = "" then
    .error (.validationError (i.validationText "ModelContractGraphEdge" ["target_node_id"]))
  else
    .ok { edgeId := nodeId ++ "--" ++ verb ++ "-->" ++ topic, sourceNodeId := nodeId,
          targetNodeId := topic, kind := kind, topic := some topic }

def importNodeContract (i : GraphInterpreter) (data : Mapping) (sourcePath : String) :
    Except PyException (ModelContractGraphNode × List ModelContractGraphEdge) := do
  match supportedRole data with
  | none =>
    throw (.valueError (sourcePath ++ ": not a backend node contract (node_type must be one of " ++
      sortedNodeTypes ++ ")"))
  | some role => do
    let nodeId ← resolveNodeId data sourcePath
    let title := (nonEmptyText (data.get "name")).getD nodeId
    let sha256 ← canonicalContractSha256 i data
    if sourcePath = "" then
      throw (.validationError (i.validationText "ModelContractGraphContractRef" ["source_path"]))
    else do
      let node : ModelContractGraphNode :=
        { nodeId := nodeId, role := role, title := title,
          sourceRef :=
            { refId := nodeId, sourcePath := sourcePath, dialect := dialectName,
              sourceContractSha256 := sha256,
              adapterVersionSha256 := nodeContractAdapterVersion i },
          protocols := ioProtocols data nodeId }
      let publishTopics ← topicList i data "publish_topics"
      let publishes ← publishTopics.mapM (topicEdge i nodeId .publishes "publishes")
      let subscribeTopics ← topicList i data "subscribe_topics"
      let subscribes ← subscribeTopics.mapM (topicEdge i nodeId .subscribes "subscribes")
      return (node, sortedAsc ModelContractGraphEdge.edgeId (publishes ++ subscribes))

/-- `import_paths`, where the files have been loaded, and the UI components imported. -/
def importPaths (i : GraphInterpreter) (discoveryRoots : List String)
    (nodeContracts : List (Mapping × String))
    (uiComponents : List (ModelContractGraphNode × List ModelContractGraphEdge)) :
    Except PyException ModelContractGraphIr := do
  let imported ← nodeContracts.mapM fun c => importNodeContract i c.1 c.2
  let all := imported ++ uiComponents
  let nodes := sortedAsc ModelContractGraphNode.nodeId (all.map Prod.fst)
  let edges := sortedAsc ModelContractGraphEdge.edgeId (all.flatMap Prod.snd)
  if discoveryRoots = [] then
    throw (.validationError (i.validationText "ModelContractGraphSourceSet" ["discovery_roots"]))
  else
    return {
      irVersion := (0, 1, 0)
      nodes := nodes
      edges := edges
      sourceSet :=
        { discoveryRoots := discoveryRoots,
          refs := sortedAsc ModelContractGraphContractRef.sourcePath
            (nodes.map ModelContractGraphNode.sourceRef) } }

/-! ## The normalized contract -/

def textsOf : Option Value → List String
  | some (.list items) => items.filterMap asText
  | _ => []

def collectTopics (canonical : Mapping) (key : String) : List String :=
  let topList := textsOf (canonical.get key)
  let nestedList :=
    match canonical.get "event_bus" with
    | some (.dict eventBus) => textsOf (Mapping.get eventBus key)
    | _ => []
  sortedAsc id (unionTopics topList nestedList)

def topicsField (key : String) (topics : List String) : Form :=
  if topics = [] then [] else [(key, .texts topics)]

def modelField (key : String) (model : Option String) : Form :=
  match model with
  | some model => [(key, .text model)]
  | none => []

def normalizeNodeId (canonical : Mapping) (sourcePath : Option String) :
    Except PyException String :=
  match sourcePath with
  | some sourcePath => resolveNodeId canonical sourcePath
  | none =>
    match declaredId canonical with
    | some nodeId => .ok nodeId
    | none => .error (.valueError ("node contract has no handler_id, name, or node_id, " ++
        "and no source_path was provided"))

def normalizeNodeContract (data : Mapping) (sourcePath : Option String) :
    Except PyException Form := do
  let canonical := canonicalizeContract data
  let nodeId ← normalizeNodeId canonical sourcePath
  match (canonical.get "node_type").bind asText with
  | none => throw (.valueError "node contract has no string node_type")
  | some nodeTypeRaw =>
    let nodeTypeCanonical :=
      match nodeTypeToRole.lookup nodeTypeRaw with
      | some role => (roleToCanonicalNodeType role).getD nodeTypeRaw
      | none => nodeTypeRaw
    return [("handler_id", .text nodeId),
        ("name", .text ((nonEmptyText (canonical.get "name")).getD nodeId)),
        ("node_type", .text nodeTypeCanonical)] ++
      topicsField "publish_topics" (collectTopics canonical "publish_topics") ++
      topicsField "subscribe_topics" (collectTopics canonical "subscribe_topics") ++
      modelField "input_model" ((canonical.get "input_model").bind asText) ++
      modelField "output_model" ((canonical.get "output_model").bind asText)

/-! ## The round trip -/

def edgeTopics (node : ModelContractGraphNode) (kind : EdgeKind)
    (edges : List ModelContractGraphEdge) : List String :=
  sortedAsc id (edges.filterMap fun e =>
    if e.sourceNodeId = node.nodeId ∧ e.kind = kind then e.topic else none)

/-- `result[key] = model`, for a model that is there. -/
def setModel (key : String) (result : Form) : Option String → Form
  | some model => dictSet result key (.text model)
  | none => result

def roundTripNodeNode (node : ModelContractGraphNode) (edges : List ModelContractGraphEdge) :
    Except PyException Form :=
  match roleToCanonicalNodeType node.role with
  | none => .error (.valueError ("node role " ++ node.role.repr ++
      " is not a backend node role; cannot round-trip via this adapter"))
  | some nodeType =>
    let result : Form :=
      [("handler_id", .text node.nodeId), ("name", .text node.title),
        ("node_type", .text nodeType)] ++
      topicsField "publish_topics" (edgeTopics node .publishes edges) ++
      topicsField "subscribe_topics" (edgeTopics node .subscribes edges)
    .ok (node.protocols.foldl
      (fun result protocol =>
        setModel "output_model" (setModel "input_model" result protocol.inputModel)
          protocol.outputModel)
      result)

def edgesFor (ir : ModelContractGraphIr) (nodeId : String) : List ModelContractGraphEdge :=
  ir.edges.filter fun e => e.sourceNodeId = nodeId

def roundTripNodeDiff (i : GraphInterpreter) (ir : ModelContractGraphIr) (nodeId : String)
    (source : Mapping) : Except PyException ModelDiffResult :=
  match ir.nodes.find? fun n => n.nodeId = nodeId with
  | none => .error (.other "StopIteration" "")
  | some node => do
    let roundTripped ← roundTripNodeNode node (edgesFor ir nodeId)
    let baseline ← normalizeNodeContract source (some node.sourceRef.sourcePath)
    return categorizeDiffEntries (diffContractDicts i.toTextInterpreter baseline roundTripped)

end OmnibaseCore.GraphIr
