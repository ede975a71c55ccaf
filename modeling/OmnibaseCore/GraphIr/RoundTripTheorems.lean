import OmnibaseCore.GraphIr.DiffTheorems
import OmnibaseCore.Python.GroupBy

/-!
# Round trips through the contract graph

* `roundTrip_iff`: all contracts of a graph come back exactly when those that share an id have
  nothing to add to the first of them.
-/

namespace OmnibaseCore.GraphIr

open OmnibaseCore.Receipts

variable {i : GraphInterpreter}

/-! ## Reading a contract -/

variable (data : Mapping)

variable {key : String}

theorem get_canonicalizeContract (hkey : key ≠ "_metadata") :
    (canonicalizeContract data).get key = data.get key := by
  unfold Mapping.get canonicalizeContract
  rw [List.find?_filter]
  congr 2
  ext e
  cases e.1 <;> simp [isText]
  rintro rfl
  exact hkey

theorem rawTopicList_eq_ok {raw : Option Value} {label : String} {topics : List String}
    (h : rawTopicList i raw label = .ok topics) : textsOf raw = topics := by
  unfold rawTopicList at h
  split at h
  · exact Except.ok.inj h
  · exact Except.ok.inj h
  · rename_i entries
    show entries.filterMap asText = topics
    induction entries generalizing topics with
    | nil => exact Except.ok.inj h
    | cons entry entries ih =>
      rw [List.mapM_cons] at h
      rcases bind_eq_ok h with ⟨topic, htopic, h⟩
      rcases bind_eq_ok h with ⟨rest, hrest, h⟩
      have hcons : topic :: rest = topics := Except.ok.inj h
      cases entry <;> cases htopic
      rw [← hcons, ← ih hrest]
      rfl
  · exact nomatch h

theorem collectTopics_eq {data : Mapping} {topics : List String}
    (hkey : key ≠ "_metadata") (h : topicList i data key = .ok topics) :
    collectTopics (canonicalizeContract data) key = sortedAsc id topics := by
  unfold topicList at h
  rcases bind_eq_ok h with ⟨topLevel, htop, h⟩
  unfold collectTopics
  rw [get_canonicalizeContract data hkey, get_canonicalizeContract data (by decide),
    rawTopicList_eq_ok htop]
  split at h
  · rename_i eventBus hbus
    rcases bind_eq_ok h with ⟨nested, hnested, h⟩
    show sortedAsc id (unionTopics topLevel (textsOf (Mapping.get eventBus key))) = _
    rw [rawTopicList_eq_ok hnested]
    split_ifs at h with hempty
    · rw [List.isEmpty_iff.mp hempty, ← Except.ok.inj h]
      rfl
    · rw [Except.ok.inj h]
  · rw [← Except.ok.inj h]
    rfl

theorem declaredId_canonicalizeContract :
    declaredId (canonicalizeContract data) = declaredId data := by
  unfold declaredId
  rw [get_canonicalizeContract data (by decide), get_canonicalizeContract data (by decide),
    get_canonicalizeContract data (by decide)]

def canonicalType (role : NodeRole) : String := (roleToCanonicalNodeType role).getD ""

theorem exists_of_supportedRole {data : Mapping} {role : NodeRole}
    (h : supportedRole data = some role) :
    roleToCanonicalNodeType role = some (canonicalType role) ∧
      ∃ raw, (data.get "node_type").bind asText = some raw ∧
        nodeTypeToRole.lookup raw = some role := by
  unfold supportedRole at h
  rcases Option.bind_eq_some_iff.mp h with ⟨raw, hraw, hrole⟩
  have hbackend : ∀ e ∈ nodeTypeToRole, (roleToCanonicalNodeType e.2).isSome = true := by decide
  have hmem : (raw, role) ∈ nodeTypeToRole := by
    rcases List.lookup_eq_some_iff.mp hrole with ⟨before, after, hsplit, -⟩
    rw [hsplit]
    exact List.mem_append_right before List.mem_cons_self
  rcases Option.isSome_iff_exists.mp (hbackend _ hmem) with ⟨nodeType, hnodeType⟩
  refine ⟨?_, raw, hraw, hrole⟩
  unfold canonicalType
  rw [hnodeType]
  rfl

theorem canonicalType_inj {role role' : NodeRole}
    (h : roleToCanonicalNodeType role = some (canonicalType role))
    (h' : roleToCanonicalNodeType role' = some (canonicalType role')) :
    canonicalType role = canonicalType role' ↔ role = role' := by
  constructor
  · intro heq
    have hsame : roleToCanonicalNodeType role = roleToCanonicalNodeType role' := by
      rw [h, h', heq]
    have hsome : (roleToCanonicalNodeType role).isSome = true := by rw [h]; rfl
    cases role <;> cases role' <;>
      first | rfl | exact absurd hsame (by decide) | exact absurd hsome (by decide)
  · exact congrArg canonicalType

/-! ## Imported contracts -/

structure Accepted (i : GraphInterpreter) where
  data : Mapping
  sourcePath : String
  node : ModelContractGraphNode
  edges : List ModelContractGraphEdge
  imported : importNodeContract i data sourcePath = .ok (node, edges)

namespace Accepted

/-- The contract, as it is given to `import_paths`. -/
def source (c : Accepted i) : Mapping × String := (c.data, c.sourcePath)

/-- The topics under a key, those of the event bus included. -/
def topics (c : Accepted i) (key : String) : List String :=
  match topicList i c.data key with
  | .ok topics => topics
  | .error _ => []

def kindTopics (c : Accepted i) : EdgeKind → List String
  | .publishes => c.topics "publish_topics"
  | .subscribes => c.topics "subscribe_topics"
  | _ => []

def inputModel (c : Accepted i) : Option String := (c.data.get "input_model").bind asText

def outputModel (c : Accepted i) : Option String := (c.data.get "output_model").bind asText

/-- The name of a contract, where its node has the id `nodeId`. -/
def title (c : Accepted i) (nodeId : String) : String :=
  (nonEmptyText (c.data.get "name")).getD nodeId

end Accepted

def edgeOf (nodeId : String) (kind : EdgeKind) (verb topic : String) : ModelContractGraphEdge :=
  { edgeId := nodeId ++ "--" ++ verb ++ "-->" ++ topic, sourceNodeId := nodeId,
    targetNodeId := topic, kind := kind, topic := some topic }

structure Imports (c : Accepted i) : Prop where
  role : supportedRole c.data = some c.node.role
  nodeId : resolveNodeId c.data c.sourcePath = .ok c.node.nodeId
  title : c.node.title = c.title c.node.nodeId
  sourcePath : c.node.sourceRef.sourcePath = c.sourcePath
  protocols : c.node.protocols = ioProtocols c.data c.node.nodeId
  publishes : topicList i c.data "publish_topics" = .ok (c.topics "publish_topics")
  subscribes : topicList i c.data "subscribe_topics" = .ok (c.topics "subscribe_topics")
  edges : c.edges = sortedAsc ModelContractGraphEdge.edgeId
    ((c.topics "publish_topics").map (edgeOf c.node.nodeId .publishes "publishes") ++
      (c.topics "subscribe_topics").map (edgeOf c.node.nodeId .subscribes "subscribes"))

variable {kind : EdgeKind}

theorem mapM_topicEdge {nodeId : String} {verb : String} {topics : List String}
    {edges : List ModelContractGraphEdge}
    (h : topics.mapM (topicEdge i nodeId kind verb) = .ok edges) :
    edges = topics.map (edgeOf nodeId kind verb) := by
  refine ((mapM_eq_ok_iff (P := fun topic => topic ≠ "") ?_).mp h).2
  intro topic edge
  unfold topicEdge
  split_ifs with hempty
  · simp [hempty]
  · rw [Except.ok.injEq]
    exact ⟨fun heq => ⟨hempty, heq.symm⟩, fun heq => heq.2.symm⟩

variable (c : Accepted i)

/-- What an accepted contract has in the graph. -/
theorem importNodeContract_spec : Imports c := by
  have himported := c.imported
  unfold importNodeContract at himported
  cases hrole : supportedRole c.data with
  | none =>
    rw [hrole] at himported
    exact nomatch himported
  | some role =>
    rw [hrole] at himported
    rcases bind_eq_ok himported with ⟨nodeId, hnodeId, h⟩
    rcases bind_eq_ok h with ⟨sha256, -, h⟩
    split_ifs at h
    rcases bind_eq_ok h with ⟨publish, hpublish, h⟩
    rcases bind_eq_ok h with ⟨publishes, hpublishes, h⟩
    rcases bind_eq_ok h with ⟨subscribe, hsubscribe, h⟩
    rcases bind_eq_ok h with ⟨subscribes, hsubscribes, h⟩
    have htopics : c.topics "publish_topics" = publish ∧ c.topics "subscribe_topics" = subscribe := by
      unfold Accepted.topics
      rw [hpublish, hsubscribe]
      exact ⟨rfl, rfl⟩
    have hpair := Except.ok.inj h
    rw [Prod.mk.injEq] at hpair
    rcases hpair with ⟨hnode, hedges⟩
    refine ⟨?_, ?_, ?_, ?_, ?_, ?_, ?_, ?_⟩
    · rw [hrole, ← hnode]
    · rw [hnodeId, ← hnode]
    · rw [← hnode]
      rfl
    · rw [← hnode]
    · rw [← hnode]
    · rw [hpublish, htopics.1]
    · rw [hsubscribe, htopics.2]
    · rw [← hedges, mapM_topicEdge hpublishes, mapM_topicEdge hsubscribes, htopics.1, htopics.2,
        ← hnode]

/-! ## Both ways to a normal form -/

/-- A contract that is imported is in normal form but for its id. -/
theorem normalizeNodeContract_eq (sourcePath : String) :
    normalizeNodeContract c.data (some sourcePath) =
      (resolveNodeId c.data sourcePath).map fun nodeId =>
        form nodeId (c.title nodeId) (canonicalType c.node.role)
          (sortedAsc id (c.topics "publish_topics")) (sortedAsc id (c.topics "subscribe_topics"))
          c.inputModel c.outputModel := by
  have hc := importNodeContract_spec c
  rcases exists_of_supportedRole hc.role with ⟨htype, raw, hraw, hrole⟩
  have hresolve : normalizeNodeId (canonicalizeContract c.data) (some sourcePath)
      = resolveNodeId c.data sourcePath := by
    show resolveNodeId (canonicalizeContract c.data) sourcePath = _
    unfold resolveNodeId
    rw [declaredId_canonicalizeContract]
  unfold normalizeNodeContract
  dsimp only
  rw [hresolve, get_canonicalizeContract c.data (by decide),
    get_canonicalizeContract c.data (by decide), get_canonicalizeContract c.data (by decide),
    get_canonicalizeContract c.data (by decide), collectTopics_eq (by decide) hc.publishes,
    collectTopics_eq (by decide) hc.subscribes, hraw]
  cases resolveNodeId c.data sourcePath with
  | error e => rfl
  | ok nodeId =>
    dsimp only
    rw [hrole]
    dsimp only
    rw [htype]
    rfl

theorem dictSet_of_lookup_eq_none {f : Form} (value : FormValue)
    (h : f.lookup key = none) : dictSet f key value = f ++ [(key, value)] := by
  unfold dictSet
  rw [if_neg]
  rw [← isSome_lookup_iff, h]
  exact Bool.false_ne_true

variable {handlerId name nodeType : String} {publish subscribe : List String}

theorem setModel_input (model : Option String) :
    setModel "input_model" (form handlerId name nodeType publish subscribe none none) model =
      form handlerId name nodeType publish subscribe model none := by
  cases model with
  | none => rfl
  | some model =>
    have hnone : (form handlerId name nodeType publish subscribe none none).lookup "input_model"
        = none := by
      rw [lookup_form]
      rfl
    show dictSet _ _ _ = _
    rw [dictSet_of_lookup_eq_none _ hnone]
    simp [form, modelField]

theorem setModel_output (input model : Option String) :
    setModel "output_model" (form handlerId name nodeType publish subscribe input none) model =
      form handlerId name nodeType publish subscribe input model := by
  cases model with
  | none => rfl
  | some model =>
    have hnone : (form handlerId name nodeType publish subscribe input none).lookup "output_model"
        = none := by
      rw [lookup_form]
      rfl
    show dictSet _ _ _ = _
    rw [dictSet_of_lookup_eq_none _ hnone]
    simp [form, modelField]

theorem foldl_ioProtocols (nodeId : String) :
    (ioProtocols data nodeId).foldl
      (fun result protocol =>
        setModel "output_model" (setModel "input_model" result protocol.inputModel)
          protocol.outputModel)
      (form handlerId name nodeType publish subscribe none none) =
      form handlerId name nodeType publish subscribe ((data.get "input_model").bind asText)
        ((data.get "output_model").bind asText) := by
  unfold ioProtocols
  dsimp only
  split_ifs with hmodels
  · rw [List.foldl_cons, List.foldl_nil, setModel_input, setModel_output]
  · rw [Bool.or_eq_true, not_or, Option.not_isSome_iff_eq_none, Option.not_isSome_iff_eq_none]
      at hmodels
    rw [hmodels.1, hmodels.2, List.foldl_nil]

theorem roundTripNodeNode_eq (edges : List ModelContractGraphEdge) :
    roundTripNodeNode c.node edges =
      .ok (form c.node.nodeId (c.title c.node.nodeId) (canonicalType c.node.role)
        (edgeTopics c.node .publishes edges) (edgeTopics c.node .subscribes edges)
        c.inputModel c.outputModel) := by
  have hc := importNodeContract_spec c
  unfold roundTripNodeNode
  rw [(exists_of_supportedRole hc.role).1, hc.protocols]
  dsimp only
  rw [Accepted.inputModel, Accepted.outputModel, ← foldl_ioProtocols c.data c.node.nodeId, hc.title]
  simp only [form, modelField, List.append_nil]

/-! ## The topics of an id -/

theorem perm_filterMap_edges (nodeId : String) (hkind : kind = .publishes ∨ kind = .subscribes) :
    (c.edges.filterMap fun e =>
      if e.sourceNodeId = nodeId ∧ e.kind = kind then e.topic else none).Perm
      (if c.node.nodeId = nodeId then c.kindTopics kind else []) := by
  rw [(importNodeContract_spec c).edges]
  refine ((perm_sortedAsc _ _).filterMap _).trans ?_
  rw [List.filterMap_append, List.filterMap_map, List.filterMap_map]
  by_cases hid : c.node.nodeId = nodeId
  · rcases hkind with rfl | rfl
    · simp [Function.comp_def, edgeOf, hid, Accepted.kindTopics]
    · simp [Function.comp_def, edgeOf, hid, Accepted.kindTopics]
  · simp [edgeOf, hid]

def group (contracts : List (Accepted i)) (nodeId : String) : List (Accepted i) :=
  contracts.filter fun c => c.node.nodeId = nodeId

theorem perm_filterMap_flatMap (contracts : List (Accepted i)) (nodeId : String)
    (hkind : kind = .publishes ∨ kind = .subscribes) :
    ((contracts.flatMap Accepted.edges).filterMap fun e =>
      if e.sourceNodeId = nodeId ∧ e.kind = kind then e.topic else none).Perm
      ((group contracts nodeId).flatMap fun c => c.kindTopics kind) := by
  unfold group
  induction contracts with
  | nil => exact List.Perm.nil
  | cons c contracts ih =>
    rw [List.flatMap_cons, List.filterMap_append]
    refine ((perm_filterMap_edges c nodeId hkind).append ih).trans ?_
    by_cases hid : c.node.nodeId = nodeId
    · rw [if_pos hid, List.filter_cons_of_pos (by simpa using hid), List.flatMap_cons]
    · rw [if_neg hid, List.filter_cons_of_neg (by simpa using hid), List.nil_append]

/-! ## The graph -/

structure GraphOf (contracts : List (Accepted i)) (ir : ModelContractGraphIr) : Prop where
  nodes : ir.nodes = sortedAsc ModelContractGraphNode.nodeId (contracts.map Accepted.node)
  edges : ir.edges = sortedAsc ModelContractGraphEdge.edgeId (contracts.flatMap Accepted.edges)

theorem importPaths_spec {roots : List String} {contracts : List (Accepted i)}
    {ir : ModelContractGraphIr}
    (h : importPaths i roots (contracts.map Accepted.source) [] = .ok ir) :
    GraphOf contracts ir := by
  unfold importPaths at h
  have himported : ((contracts.map Accepted.source).mapM fun c => importNodeContract i c.1 c.2)
      = .ok (contracts.map fun c => (c.node, c.edges)) := by
    rw [List.mapM_map]
    exact mapM_eq_ok_map fun c _ => c.imported
  rw [himported] at h
  rcases bind_eq_ok h with ⟨imported, hok, h⟩
  cases hok
  dsimp only at h
  rw [List.append_nil, List.map_map, List.flatMap_map] at h
  split_ifs at h
  have hir := Except.ok.inj h
  rw [← hir]
  exact ⟨rfl, rfl⟩

def firstOf (contracts : List (Accepted i)) (nodeId : String) : Option (Accepted i) :=
  contracts.find? fun c => c.node.nodeId = nodeId

variable {contracts : List (Accepted i)} {ir : ModelContractGraphIr}

theorem GraphOf.find?_nodes (h : GraphOf contracts ir) (nodeId : String) :
    ir.nodes.find? (fun n => n.nodeId = nodeId) = (firstOf contracts nodeId).map Accepted.node := by
  rw [h.nodes, find?_sortedAsc_key, List.find?_map]
  rfl

theorem GraphOf.edgeTopics_eq (h : GraphOf contracts ir) (node : ModelContractGraphNode)
    (hkind : kind = .publishes ∨ kind = .subscribes) :
    edgeTopics node kind (edgesFor ir node.nodeId) =
      sortedAsc id ((group contracts node.nodeId).flatMap fun c => c.kindTopics kind) := by
  unfold edgeTopics edgesFor
  apply sortedAsc_eq_of_perm id Function.injective_id
  have hfilter : ((ir.edges.filter fun e => e.sourceNodeId = node.nodeId).filterMap fun e =>
      if e.sourceNodeId = node.nodeId ∧ e.kind = kind then e.topic else none)
      = ir.edges.filterMap fun e =>
        if e.sourceNodeId = node.nodeId ∧ e.kind = kind then e.topic else none := by
    rw [List.filterMap_filter]
    apply List.filterMap_congr
    intro e _
    by_cases hsource : e.sourceNodeId = node.nodeId <;> simp [hsource]
  rw [hfilter, h.edges]
  exact ((perm_sortedAsc _ _).filterMap _).trans (perm_filterMap_flatMap contracts _ hkind)

/-! ## What a contract is compared with -/

def RoundTrips (ir : ModelContractGraphIr) (c : Accepted i) : Prop :=
  ∃ r, roundTripNodeDiff i ir c.node.nodeId c.data = .ok r ∧ r.hasChanges = false

theorem exists_noChanges_iff {i : TextInterpreter} {old new : Form} :
    (∃ r, (Except.ok (categorizeDiffEntries (diffContractDicts i old new)) :
      Except PyException ModelDiffResult) = .ok r ∧ r.hasChanges = false) ↔
      diffContractDicts i old new = [] := by
  simp only [Except.ok.injEq, exists_eq_left', hasChanges_categorize, Bool.not_eq_false',
    List.isEmpty_iff]

/-- Two contracts are normalized to the same, but for their topics. A contract without an id of
its own goes by the path of the first one. -/
structure Agrees (first c : Accepted i) : Prop where
  nodeId : resolveNodeId c.data first.sourcePath = .ok c.node.nodeId
  title : first.title c.node.nodeId = c.title c.node.nodeId
  role : supportedRole first.data = supportedRole c.data
  inputModel : first.inputModel = c.inputModel
  outputModel : first.outputModel = c.outputModel

theorem firstOf_nodeId {first : Accepted i} {nodeId : String}
    (h : firstOf contracts nodeId = some first) : first.node.nodeId = nodeId := by
  simpa using List.find?_some h

theorem canonicalType_eq_iff (first c : Accepted i) :
    canonicalType first.node.role = canonicalType c.node.role ↔
      supportedRole first.data = supportedRole c.data := by
  have hfirst := (importNodeContract_spec first).role
  have hc := (importNodeContract_spec c).role
  rw [canonicalType_inj (exists_of_supportedRole hfirst).1 (exists_of_supportedRole hc).1, hfirst,
    hc, Option.some.injEq]

/-- A contract comes back if it agrees with the first one with its id, and the topics of all
contracts with its id are its own. -/
theorem roundTrips_iff_first (h : GraphOf contracts ir) {c first : Accepted i}
    (hfirst : firstOf contracts c.node.nodeId = some first) :
    RoundTrips ir c ↔ Agrees first c ∧
      (∀ kind, kind = .publishes ∨ kind = .subscribes →
        sortedAsc id ((group contracts c.node.nodeId).flatMap fun c => c.kindTopics kind) =
          sortedAsc id (c.kindTopics kind)) := by
  have hid := firstOf_nodeId hfirst
  have hpath := (importNodeContract_spec first).sourcePath
  have htopics := fun (kind : EdgeKind) (hkind : kind = .publishes ∨ kind = .subscribes) =>
    h.edgeTopics_eq first.node hkind
  rw [hid] at htopics
  have hback : roundTripNodeNode first.node (edgesFor ir c.node.nodeId) = .ok _ :=
    roundTripNodeNode_eq first _
  rw [htopics .publishes (Or.inl rfl), htopics .subscribes (Or.inr rfl), hid] at hback
  unfold RoundTrips roundTripNodeDiff
  rw [h.find?_nodes, hfirst, Option.map_some]
  dsimp only
  rw [hback, normalizeNodeContract_eq c, hpath]
  cases hresolve : resolveNodeId c.data first.sourcePath with
  | error e =>
    constructor
    · rintro ⟨r, hr, -⟩
      exact nomatch hr
    · rintro ⟨hagrees, -⟩
      have hnodeId := hagrees.nodeId
      rw [hresolve] at hnodeId
      exact nomatch hnodeId
  | ok nodeId =>
    show (∃ r, (Except.ok (categorizeDiffEntries (diffContractDicts i.toTextInterpreter
      (form _ _ _ _ _ _ _) (form _ _ _ _ _ _ _))) : Except PyException ModelDiffResult) = .ok r ∧
        r.hasChanges = false) ↔ _
    rw [exists_noChanges_iff, diffContractDicts_eq_nil_iff (fun _ hkey => mem_keys_form hkey)
      (fun _ hkey => mem_keys_form hkey), form_lookup_inj]
    constructor
    · rintro ⟨rfl, htitle, htype, hpub, hsub, hin, hout⟩
      refine ⟨⟨hresolve, htitle.symm, (canonicalType_eq_iff first c).mp htype.symm, hin.symm,
        hout.symm⟩, ?_⟩
      rintro kind (rfl | rfl)
      · exact hpub.symm
      · exact hsub.symm
    · rintro ⟨hagrees, hkinds⟩
      have hnodeId := hagrees.nodeId
      rw [hresolve, Except.ok.injEq] at hnodeId
      subst hnodeId
      exact ⟨rfl, hagrees.title.symm, ((canonicalType_eq_iff first c).mpr hagrees.role).symm,
        (hkinds .publishes (Or.inl rfl)).symm, (hkinds .subscribes (Or.inr rfl)).symm,
        hagrees.inputModel.symm, hagrees.outputModel.symm⟩

/-! ## The law -/

/-- Contracts that share an id agree with the first of them and declare no topics. -/
structure Compatible (contracts : List (Accepted i)) : Prop where
  agrees : ∀ c ∈ contracts, ∀ first, firstOf contracts c.node.nodeId = some first →
    Agrees first c
  topics : contracts.Pairwise fun c c' => c.node.nodeId = c'.node.nodeId →
    ∀ key, key = "publish_topics" ∨ key = "subscribe_topics" → c.topics key = [] ∧
      c'.topics key = []

theorem sorted_eq_iff_perm {l l' : List String} :
    sortedAsc id l = sortedAsc id l' ↔ l.Perm l' := by
  constructor
  · intro h
    have hperm := perm_sortedAsc id l
    rw [h] at hperm
    exact hperm.symm.trans (perm_sortedAsc id l')
  · exact sortedAsc_eq_of_perm id Function.injective_id

theorem topics_iff (contracts : List (Accepted i)) (kind : EdgeKind) :
    (∀ c ∈ contracts, sortedAsc id ((group contracts c.node.nodeId).flatMap
      fun c => c.kindTopics kind) = sortedAsc id (c.kindTopics kind)) ↔
      contracts.Pairwise fun c c' => c.node.nodeId = c'.node.nodeId →
        c.kindTopics kind = [] ∧ c'.kindTopics kind = [] := by
  simp only [sorted_eq_iff_perm]
  exact perm_group_iff fun c : Accepted i => c.node.nodeId

theorem exists_firstOf {c : Accepted i} (hc : c ∈ contracts) :
    ∃ first, firstOf contracts c.node.nodeId = some first := by
  rw [← Option.isSome_iff_exists]
  unfold firstOf
  rw [List.find?_isSome]
  exact ⟨c, hc, by simp⟩

/-- All contracts of a graph come back exactly when those that share an id have nothing to add to
the first of them. -/
theorem roundTrip_iff (i : GraphInterpreter) (roots : List String) (contracts : List (Accepted i))
    (ir : ModelContractGraphIr)
    (h : importPaths i roots (contracts.map Accepted.source) [] = .ok ir) :
    (∀ c ∈ contracts, RoundTrips ir c) ↔ Compatible contracts := by
  have hgraph := importPaths_spec h
  have hiff : (∀ c ∈ contracts, RoundTrips ir c) ↔
      (∀ c ∈ contracts, ∀ first, firstOf contracts c.node.nodeId = some first → Agrees first c) ∧
      (∀ c ∈ contracts, ∀ kind, kind = .publishes ∨ kind = .subscribes →
        sortedAsc id ((group contracts c.node.nodeId).flatMap fun c => c.kindTopics kind) =
          sortedAsc id (c.kindTopics kind)) := by
    constructor
    · intro hround
      constructor
      · intro c hc first hfirst
        exact ((roundTrips_iff_first hgraph hfirst).mp (hround c hc)).1
      · intro c hc
        obtain ⟨first, hfirst⟩ := exists_firstOf hc
        exact ((roundTrips_iff_first hgraph hfirst).mp (hround c hc)).2
    · rintro ⟨hagrees, htopics⟩ c hc
      obtain ⟨first, hfirst⟩ := exists_firstOf hc
      exact (roundTrips_iff_first hgraph hfirst).mpr ⟨hagrees c hc first hfirst, htopics c hc⟩
  rw [hiff]
  have hpub := topics_iff contracts .publishes
  have hsub := topics_iff contracts .subscribes
  constructor
  · rintro ⟨hagrees, htopics⟩
    refine ⟨hagrees, ?_⟩
    have hpub' := hpub.mp fun c hc => htopics c hc .publishes (Or.inl rfl)
    have hsub' := hsub.mp fun c hc => htopics c hc .subscribes (Or.inr rfl)
    refine (hpub'.and hsub').imp ?_
    rintro c c' ⟨hp, hs⟩ hsame key (rfl | rfl)
    · exact hp hsame
    · exact hs hsame
  · rintro ⟨hagrees, htopics⟩
    refine ⟨hagrees, ?_⟩
    rintro c hc kind (rfl | rfl)
    · exact hpub.mpr (htopics.imp fun hp hsame => hp hsame _ (Or.inl rfl)) c hc
    · exact hsub.mpr (htopics.imp fun hp hsame => hp hsame _ (Or.inr rfl)) c hc

/-! ### Two contracts with one id -/

def plainGraph : GraphInterpreter where
  toTextInterpreter := asciiText
  dumps _ := .ok "\x7b\x7d"
  sha256 s := s
  sources := []
  typeName _ := "object"

/-- An effect with the id `http` that publishes one topic. -/
def effectData (topic : String) : Mapping :=
  [(.str "node_type", .str "effect"), (.str "handler_id", .str "http"),
    (.str "publish_topics", .list [.str topic])]

def effectNode (sourcePath : String) : ModelContractGraphNode :=
  { nodeId := "http", role := .effect, title := "http",
    sourceRef :=
      { refId := "http", sourcePath := sourcePath, dialect := "node",
        sourceContractSha256 := "sha256:\x7b\x7d", adapterVersionSha256 := "sha256:adapter:node" },
    protocols := [] }

def requestEffect : Accepted plainGraph where
  data := effectData "request"
  sourcePath := "a/contract.yaml"
  node := effectNode "a/contract.yaml"
  edges := [edgeOf "http" .publishes "publishes" "request"]
  imported := rfl

def responseEffect : Accepted plainGraph where
  data := effectData "response"
  sourcePath := "b/contract.yaml"
  node := effectNode "b/contract.yaml"
  edges := [edgeOf "http" .publishes "publishes" "response"]
  imported := rfl

/-- An effect with the id `queue`, without topics. -/
def queueEffect : Accepted plainGraph where
  data := [(.str "node_type", .str "effect"), (.str "handler_id", .str "queue")]
  sourcePath := "b/contract.yaml"
  node := { effectNode "b/contract.yaml" with
    nodeId := "queue", title := "queue"
    sourceRef := { (effectNode "b/contract.yaml").sourceRef with refId := "queue" } }
  edges := []
  imported := rfl

def queueCopy : Accepted plainGraph where
  data := queueEffect.data
  sourcePath := "c/contract.yaml"
  node := { queueEffect.node with
    sourceRef := { queueEffect.node.sourceRef with sourcePath := "c/contract.yaml" } }
  edges := []
  imported := rfl

/-- An effect with a topic, and two effects that share an id, come back. -/
theorem roundTrip_iff_requestEffect :
    ∃ ir, importPaths plainGraph ["."]
        ([requestEffect, queueEffect, queueCopy].map Accepted.source) [] = .ok ir ∧
      ∀ c ∈ [requestEffect, queueEffect, queueCopy], RoundTrips ir c := by
  have hir : ∃ ir, importPaths plainGraph ["."]
      ([requestEffect, queueEffect, queueCopy].map Accepted.source) [] = .ok ir := ⟨_, rfl⟩
  obtain ⟨ir, hir⟩ := hir
  have hcompatible : Compatible [requestEffect, queueEffect, queueCopy] := by
    constructor
    · intro c hc first hfirst
      fin_cases hc <;> obtain rfl := Option.some.inj hfirst <;> exact ⟨rfl, rfl, rfl, rfl, rfl⟩
    · have hqueue : ∀ c ∈ [queueEffect, queueCopy], ∀ key,
          key = "publish_topics" ∨ key = "subscribe_topics" → c.topics key = [] := by
        rintro c hc key (rfl | rfl) <;> fin_cases hc <;> rfl
      refine List.Pairwise.cons (fun c' hc' hsame => ?_) (List.pairwise_pair.mpr fun _ key hkey =>
        ⟨hqueue queueEffect (by simp) key hkey, hqueue queueCopy (by simp) key hkey⟩)
      fin_cases hc' <;> exact absurd hsame (by decide)
  exact ⟨ir, hir, (roundTrip_iff plainGraph ["."] _ ir hir).mpr hcompatible⟩

/-- The first of two contracts with an id does not come back: it has the topics of both. -/
theorem sharedId_changes :
    ¬ ∀ (i : GraphInterpreter) (roots : List String) (contracts : List (Accepted i))
      (ir : ModelContractGraphIr), importPaths i roots (contracts.map Accepted.source) [] = .ok ir →
        ∀ c ∈ contracts, RoundTrips ir c := by
  intro h
  have hir : ∃ ir, importPaths plainGraph ["."]
      ([requestEffect, responseEffect].map Accepted.source) [] = .ok ir := ⟨_, rfl⟩
  obtain ⟨ir, hir⟩ := hir
  have hround := h plainGraph ["."] [requestEffect, responseEffect] ir hir requestEffect (by simp)
  have hfirst : firstOf [requestEffect, responseEffect] requestEffect.node.nodeId
      = some requestEffect := rfl
  have htopics := ((roundTrips_iff_first (importPaths_spec hir) hfirst).mp hround).2 .publishes
    (Or.inl rfl)
  rw [sorted_eq_iff_perm] at htopics
  exact absurd htopics.length_eq (by decide)

end OmnibaseCore.GraphIr
