import OmnibaseCore.Graph.Dfs
import OmnibaseCore.Graph.Kahn
import OmnibaseCore.Python.Sorted
import OmnibaseCore.Resolution.Model

/-!
# The execution resolver

`ExecutionResolver.resolve`: the indices, the dependency graph of the constraints, the cycle
search, and the topological sort with tie-breakers. The cycle search is that of `Graph.Dfs`, the
sort that of `Graph.Kahn` with a list of ready handlers that is sorted before a handler is taken
from it. The set `graph.nodes` is iterated over in the order `σ`.
-/

namespace OmnibaseCore.Resolution

open FiniteGraph

/-! ## Indices -/

structure HandlerInfo where
  handlerId : String
  priority : ℤ
  tags : List String
  capabilityOutputs : List String
  hasMustRun : Bool
  constraints : Option ModelExecutionConstraints

def handlerInfo (contract : ModelHandlerContract) : HandlerInfo :=
  { handlerId := contract.handlerId
    priority := contract.priority
    tags := contract.tags
    capabilityOutputs := contract.capabilityOutputs
    hasMustRun :=
      match contract.executionConstraints with
      | some constraints => constraints.mustRun
      | none => false
    constraints := contract.executionConstraints }

/-- `result[info.handler_id] = info`, on the list of the values of the dictionary. -/
def setHandlerInfo (result : List HandlerInfo) (info : HandlerInfo) : List HandlerInfo :=
  if info.handlerId ∈ result.map HandlerInfo.handlerId then
    result.map fun other => if other.handlerId = info.handlerId then info else other
  else result ++ [info]

def buildHandlerInfoMap (contracts : List ModelHandlerContract) : List HandlerInfo :=
  contracts.foldl (fun result contract => setHandlerInfo result (handlerInfo contract)) []

def buildIndex (names : HandlerInfo → List String) (handlerInfoMap : List HandlerInfo) :
    String → List String :=
  handlerInfoMap.foldl (fun result info =>
    (names info).foldl (fun result name =>
      Function.update result name (result name ++ [info.handlerId])) result) fun _ => []

def buildCapabilityIndex : List HandlerInfo → String → List String :=
  buildIndex HandlerInfo.capabilityOutputs

def buildTagIndex : List HandlerInfo → String → List String := buildIndex HandlerInfo.tags

def countConstraints (handlerInfoMap : List HandlerInfo) : ℕ :=
  (handlerInfoMap.map fun info =>
    match info.constraints with
    | some constraints => constraints.requiresBefore.length + constraints.requiresAfter.length
    | none => 0).sum

/-! ## The dependency graph -/

structure DependencyGraph where
  edges : String → Finset String
  reverseEdges : String → Finset String
  nodes : Finset String

/-- `graph.edges[handler].add(dep)` and `graph.reverse_edges[dep].add(handler)`. -/
def DependencyGraph.addEdge (graph : DependencyGraph) (handler dep : String) : DependencyGraph :=
  { graph with
    edges := Function.update graph.edges handler (insert dep (graph.edges handler))
    reverseEdges := Function.update graph.reverseEdges dep
      (insert handler (graph.reverseEdges dep)) }

/-- The conflict of a reference that nothing matches. -/
def missingDependency (strictMode : Bool) (sourceHandler ref message suggestion : String) :
    ModelExecutionConflict :=
  { conflictType := .missingDependency
    severity := if strictMode then .error else .warning
    message := message
    handlerIds := [sourceHandler]
    constraintRefs := [ref]
    suggestedResolution := some suggestion }

def resolveConstraintRef (handlerInfoMap : List HandlerInfo) (strictMode : Bool)
    (sourceHandler ref : String) : List String × Option ModelExecutionConflict :=
  match splitRef ref with
  | none => ([], none)
  | some (prefix_, value) =>
    if prefix_ = "handler" then
      if value ∈ handlerInfoMap.map HandlerInfo.handlerId then ([value], none)
      else
        ([], some (missingDependency strictMode sourceHandler ref
          ("Handler '" ++ value ++ "' referenced in constraint not found")
          ("Ensure handler '" ++ value ++ "' is included in contracts")))
    else if prefix_ = "capability" then
      let handlers := buildCapabilityIndex handlerInfoMap value
      if handlers ≠ [] then (handlers, none)
      else
        ([], some (missingDependency strictMode sourceHandler ref
          ("No handlers provide capability '" ++ value ++ "'")
          ("Add a handler that provides capability '" ++ value ++ "'")))
    else if prefix_ = "tag" then
      let handlers := buildTagIndex handlerInfoMap value
      if handlers ≠ [] then (handlers, none)
      else
        ([], some (missingDependency strictMode sourceHandler ref
          ("No handlers have tag '" ++ value ++ "'")
          ("Add tag '" ++ value ++ "' to a handler")))
    else ([], none)

/-- The variables `graph` and `conflicts`. -/
structure BuildState where
  graph : DependencyGraph
  conflicts : List ModelExecutionConflict

/-- The body of the loops over references. `add graph dep` adds the edge for one resolved
handler. -/
def processRef (handlerInfoMap : List HandlerInfo) (strictMode : Bool) (handlerId : String)
    (add : DependencyGraph → String → DependencyGraph) (st : BuildState) (ref : String) :
    BuildState :=
  match resolveConstraintRef handlerInfoMap strictMode handlerId ref with
  | (_, some conflict) => { st with conflicts := st.conflicts ++ [conflict] }
  | (depHandlers, none) =>
    { st with
      graph := depHandlers.foldl (fun graph dep =>
        if dep ≠ handlerId then add graph dep else graph) st.graph }

/-- The body of the loop over the handlers. -/
def processHandler (handlerInfoMap : List HandlerInfo) (strictMode : Bool) (st : BuildState)
    (info : HandlerInfo) : BuildState :=
  match info.constraints with
  | none => st
  | some constraints =>
    let st := constraints.requiresBefore.foldl (processRef handlerInfoMap strictMode
      info.handlerId fun graph dep => graph.addEdge info.handlerId dep) st
    constraints.requiresAfter.foldl (processRef handlerInfoMap strictMode
      info.handlerId fun graph dep => graph.addEdge dep info.handlerId) st

def buildDependencyGraph (handlerInfoMap : List HandlerInfo) (strictMode : Bool) : BuildState :=
  handlerInfoMap.foldl (processHandler handlerInfoMap strictMode)
    { graph := {
        edges := fun _ => ∅
        reverseEdges := fun _ => ∅
        nodes := (handlerInfoMap.map HandlerInfo.handlerId).toFinset }
      conflicts := [] }

/-! ## Cycles -/

def sortedSet (s : Finset String) : List String := (SetOrder.ascending String).iter s

/-- The list `path` of `dfs` and the cycle that it returns. -/
structure CycleSearch where
  path : List String
  cycle : List String

/-- `dfs` appends to its path, pops from it, and cuts the cycle out of it. A search from a root
without a cycle leaves the path empty. -/
def cycleBookkeeping : Bookkeeping String CycleSearch where
  root c := { c with path := [] }
  enter node c := { c with path := c.path ++ [node] }
  leave _ c := { c with path := c.path.dropLast }
  found neighbor c := { c with cycle := c.path.drop (c.path.idxOf neighbor) ++ [neighbor] }

/-- `_detect_cycles`. There are no more calls than nodes, so the bound is not reached. -/
def detectCycles (graph : DependencyGraph) : List ModelExecutionConflict :=
  match roots cycleBookkeeping graph.nodes.card (fun node => sortedSet (graph.edges node))
      (sortedSet graph.nodes) (DfsState.init { path := [], cycle := [] }) with
  | .ok (true, st) =>
    let cycle := st.extra.cycle
    [{ conflictType := .cycle
       severity := .error
       message := "Circular dependency detected: " ++ " -> ".intercalate cycle
       handlerIds := cycle.dropLast
       cyclePath := some cycle
       suggestedResolution := some "Remove one of the dependencies to break the cycle" }]
  | _ => []

/-! ## Sorting -/

/-- `handler_info_map[h].priority`. -/
def priorityOf (handlerInfoMap : List HandlerInfo) (handlerId : String) : ℤ :=
  match handlerInfoMap.find? fun info => info.handlerId = handlerId with
  | some info => info.priority
  | none => 0

def sortCandidates (handlerInfoMap : List HandlerInfo) (tieBreaker : TieBreaker)
    (candidates : List String) : List String :=
  match tieBreaker with
  | .priority => sortedAsc (fun h => toLex (priorityOf handlerInfoMap h, h)) candidates
  | .alphabetical => sortedAsc id candidates

def tieBreakReason (handlerInfoMap : List HandlerInfo) (first : String) : TieBreaker → String
  | .priority => first ++ " has priority=" ++ toString (priorityOf handlerInfoMap first)
  | .alphabetical => first ++ " is alphabetically first"

/-- `_apply_tie_breakers`. The loop ends with the first tie-breaker, whichever it is. -/
def applyTieBreakers (handlerInfoMap : List HandlerInfo) (policy : ModelExecutionOrderingPolicy)
    (phase : String) (candidates : List String) :
    List String × Option ModelTieBreakerDecision :=
  match policy.tieBreakers with
  | [] => (candidates, none)
  | tieBreaker :: _ =>
    let sortedCandidates := sortCandidates handlerInfoMap tieBreaker candidates
    let first := sortedCandidates.headD ""
    if first ≠ candidates.headD "" then
      (sortedCandidates, some {
        phase := phase
        handlerIds := candidates
        tieBreakerUsed := tieBreaker
        winningHandler := first
        reason := some (tieBreakReason handlerInfoMap first tieBreaker) })
    else (sortedCandidates, none)

theorem perm_sortCandidates (handlerInfoMap : List HandlerInfo) (tieBreaker : TieBreaker)
    (candidates : List String) :
    (sortCandidates handlerInfoMap tieBreaker candidates).Perm candidates := by
  cases tieBreaker with
  | priority => exact perm_sortedAsc _ candidates
  | alphabetical => exact perm_sortedAsc _ candidates

theorem perm_applyTieBreakers (handlerInfoMap : List HandlerInfo)
    (policy : ModelExecutionOrderingPolicy) (phase : String) (candidates : List String) :
    (applyTieBreakers handlerInfoMap policy phase candidates).1.Perm candidates := by
  unfold applyTieBreakers
  cases policy.tieBreakers with
  | nil => exact List.Perm.refl _
  | cons tieBreaker _ =>
    dsimp only
    split_ifs
    · exact perm_sortCandidates handlerInfoMap tieBreaker candidates
    · exact perm_sortCandidates handlerInfoMap tieBreaker candidates

/-- The variables `ready` and `tie_decisions`. -/
abbrev ReadyState := List String × List ModelTieBreakerDecision

def sortReady (handlerInfoMap : List HandlerInfo) (policy : ModelExecutionOrderingPolicy)
    (st : ReadyState) : ReadyState :=
  if 1 < st.1.length then
    let (readySorted, decision) := applyTieBreakers handlerInfoMap policy "global" st.1
    (readySorted, st.2 ++ decision.toList)
  else st

theorem perm_sortReady (handlerInfoMap : List HandlerInfo)
    (policy : ModelExecutionOrderingPolicy) (st : ReadyState) :
    (sortReady handlerInfoMap policy st).1.Perm st.1 := by
  unfold sortReady
  split_ifs
  · exact perm_applyTieBreakers handlerInfoMap policy "global" st.1
  · exact List.Perm.refl _

def readyList (handlerInfoMap : List HandlerInfo) (policy : ModelExecutionOrderingPolicy) :
    Worklist String where
  Carrier := ReadyState
  elems st := st.1
  empty := ([], [])
  push node st := (st.1 ++ [node], st.2)
  pop st :=
    match sortReady handlerInfoMap policy st with
    | ([], _) => none
    | (node :: ready, decisions) => some (node, (ready, decisions))
  elems_empty := rfl
  push_perm node st := List.perm_append_singleton node st.1
  pop_none st h := by
    have hperm := perm_sortReady handlerInfoMap policy st
    cases hsorted : sortReady handlerInfoMap policy st with
    | mk ready decisions =>
      rw [hsorted] at h hperm
      cases ready with
      | nil => exact hperm.symm.eq_nil
      | cons node ready => cases h
  pop_some st node st' h := by
    have hperm := perm_sortReady handlerInfoMap policy st
    cases hsorted : sortReady handlerInfoMap policy st with
    | mk ready decisions =>
      rw [hsorted] at h hperm
      cases ready with
      | nil => cases h
      | cons first ready =>
        cases h
        exact hperm.symm

def topologicalSort (σ : SetOrder String) (graph : DependencyGraph)
    (handlerInfoMap : List HandlerInfo) (policy : ModelExecutionOrderingPolicy) :
    List String × List ModelTieBreakerDecision :=
  let nodes := σ.iter graph.nodes
  let inDegree : String → ℤ := fun node =>
    ((graph.edges node).filter (· ∈ graph.nodes)).card
  let wl := readyList handlerInfoMap policy
  let final := kahnLoop wl
    (fun node => (sortedSet (graph.reverseEdges node)).filter (· ∈ graph.nodes)) nodes.length
    { inDegree := inDegree, work := initialWork wl inDegree nodes, result := [] }
  (final.result, final.work.2)

/-! ## Plans -/

/-- `phase_name_to_enum.get(name)`. -/
def phaseNameToEnum (name : String) : Option EnumHandlerExecutionPhase :=
  if name = "preflight" then some .preflight
  else if name = "before" then some .before
  else if name = "execute" then some .execute
  else if name = "after" then some .after
  else if name = "emit" then some .emit
  else if name = "finalize" then some .finalize
  else none

def phaseStep (sortedHandlers : List String) (name : String) : Option ModelPhaseStep :=
  match phaseNameToEnum name with
  | none => none
  | some .execute =>
    some {
      phase := .execute
      handlerIds := sortedHandlers
      orderingRationale := some "Topological sort based on dependency constraints" }
  | some phase => some { phase := phase }

def assignToPhases (sortedHandlers : List String) (profilePhases : List String) :
    List ModelPhaseStep :=
  profilePhases.filterMap (phaseStep sortedHandlers)

def computeTieBreakerStatistics (decisions : List ModelTieBreakerDecision) :
    List (TieBreaker × ℕ) :=
  decisions.foldl (fun stats decision =>
    let tieBreaker := decision.tieBreakerUsed
    if tieBreaker ∈ stats.map Prod.fst then
      stats.map fun e => if e.1 = tieBreaker then (e.1, e.2 + 1) else e
    else stats ++ [(tieBreaker, 1)]) []

/-- What the three kinds of plans have in common. -/
def createPlan (profile : ModelExecutionProfile) (phases : List ModelPhaseStep)
    (totalConstraintsEvaluated : ℕ) (decisions : List ModelTieBreakerDecision)
    (conflicts : List ModelExecutionConflict) (isValid : Bool) : ModelExecutionPlan :=
  { phases := phases
    resolutionMetadata := {
      tieBreakerOrder := profile.orderingPolicy.tieBreakers
      tieBreakerDecisions := decisions
      deterministic := profile.orderingPolicy.deterministicSeed
      totalHandlersResolved := (phases.map fun step => step.handlerIds.length).sum
      totalConstraintsEvaluated := totalConstraintsEvaluated
      phasesWithHandlers := phases.countP fun step => step.handlerIds ≠ []
      tieBreakerStatistics := computeTieBreakerStatistics decisions }
    conflicts := conflicts
    isValid := isValid }

def createEmptyPlan (profile : ModelExecutionProfile) : ModelExecutionPlan :=
  createPlan profile [] 0 [] [] true

def createInvalidPlan (profile : ModelExecutionProfile) (totalConstraintsEvaluated : ℕ)
    (conflicts : List ModelExecutionConflict) : ModelExecutionPlan :=
  createPlan profile [] totalConstraintsEvaluated [] conflicts false

def createValidPlan (profile : ModelExecutionProfile) (phases : List ModelPhaseStep)
    (totalConstraintsEvaluated : ℕ) (decisions : List ModelTieBreakerDecision)
    (conflicts : List ModelExecutionConflict) : ModelExecutionPlan :=
  createPlan profile phases totalConstraintsEvaluated decisions conflicts
    (!conflicts.any ModelExecutionConflict.isBlocking)

def resolve (σ : SetOrder String) (profile : ModelExecutionProfile)
    (contracts : List ModelHandlerContract) (strictMode : Option Bool) : ModelExecutionPlan :=
  let effectiveStrictMode := strictMode.getD profile.orderingPolicy.strictMode
  if contracts = [] then createEmptyPlan profile
  else
    let handlerInfoMap := buildHandlerInfoMap contracts
    let built := buildDependencyGraph handlerInfoMap effectiveStrictMode
    let conflicts := built.conflicts ++ detectCycles built.graph
    let totalConstraintsEvaluated := countConstraints handlerInfoMap
    if conflicts.any ModelExecutionConflict.isBlocking then
      createInvalidPlan profile totalConstraintsEvaluated conflicts
    else
      let (sortedHandlers, decisions) :=
        topologicalSort σ built.graph handlerInfoMap profile.orderingPolicy
      createValidPlan profile (assignToPhases sortedHandlers profile.phases)
        totalConstraintsEvaluated decisions conflicts

end OmnibaseCore.Resolution
