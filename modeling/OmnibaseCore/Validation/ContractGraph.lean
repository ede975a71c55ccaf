import OmnibaseCore.Graph.Coloring
import OmnibaseCore.Resolution.Model

/-!
# Validation of several contracts together

`ExpandedContractGraphValidator`: references to handlers that are missing, cycles in the
execution order, and events that nobody consumes.
-/

namespace OmnibaseCore.Validation

open FiniteGraph Resolution

/-! ## Results -/

/-- `EnumSeverity`, the members that the validator uses. -/
inductive EnumSeverity
  | error
  | warning
deriving DecidableEq

/-- `EnumContractValidationErrorCode`, the members that the validator uses. -/
inductive EnumContractValidationErrorCode
  | expandedExecutionGraphCycle
  | expandedExecutionGraphOrphan
  | expandedEventConsumerMissing
deriving DecidableEq

def EnumContractValidationErrorCode.value : EnumContractValidationErrorCode → String
  | .expandedExecutionGraphCycle => "CONTRACT_VALIDATION_EXPANDED_EXECUTION_GRAPH_CYCLE"
  | .expandedExecutionGraphOrphan => "CONTRACT_VALIDATION_EXPANDED_EXECUTION_GRAPH_ORPHAN"
  | .expandedEventConsumerMissing => "CONTRACT_VALIDATION_EXPANDED_EVENT_CONSUMER_MISSING"

structure ModelValidationIssue where
  severity : EnumSeverity
  message : String
  code : Option String := none
  suggestion : Option String := none
deriving DecidableEq

structure ModelValidationResult where
  isValid : Bool
  issues : List ModelValidationIssue := []
  errors : List String := []
  warnings : List String := []
  suggestions : List String := []
  summary : String := "Validation completed"
deriving DecidableEq

def ModelValidationResult.addIssue (result : ModelValidationResult)
    (issue : ModelValidationIssue) : ModelValidationResult :=
  { result with
    issues := result.issues ++ [issue]
    isValid := if issue.severity = .error then false else result.isValid
    errors := if issue.severity = .error then result.errors ++ [issue.message] else result.errors
    warnings :=
      if issue.severity = .warning then result.warnings ++ [issue.message] else result.warnings
    suggestions :=
      match issue.suggestion with
      | some suggestion =>
        if suggestion ≠ "" then result.suggestions ++ [suggestion] else result.suggestions
      | none => result.suggestions }

def ModelValidationResult.addError (result : ModelValidationResult) (error : String)
    (code : EnumContractValidationErrorCode) : ModelValidationResult :=
  result.addIssue { severity := .error, message := error, code := some code.value }

def ModelValidationResult.errorLevelCount (result : ModelValidationResult) : ℕ :=
  (result.issues.filter fun issue => issue.severity = .error).length

/-! ## Contracts -/

/-- `ModelHandlerContract`, with the capabilities of its `capability_inputs`. -/
structure ModelHandlerContract extends Resolution.ModelHandlerContract where
  capabilityInputs : List String := []

/-- `dep.startswith(p)`. -/
def hasPrefix (p dep : String) : Bool := p.toList.isPrefixOf dep.toList

def handlerRef (dep : String) : Option String :=
  if hasPrefix "handler:" dep then (splitRef dep).map Prod.snd else none

/-- The keys of `handler_map`. -/
def handlerMap (contracts : List ModelHandlerContract) : List String :=
  (contracts.map fun c => c.handlerId).eraseDups

/-! ## The checks -/

def detectOrphanReferences (contracts : List ModelHandlerContract)
    (result : ModelValidationResult) : ModelValidationResult :=
  contracts.foldl (fun result contract =>
    match contract.executionConstraints with
    | none => result
    | some constraints =>
      (constraints.requiresBefore ++ constraints.requiresAfter).foldl (fun result dep =>
        match handlerRef dep with
        | none => result
        | some refId =>
          if refId ∉ handlerMap contracts then
            result.addError ("Handler '" ++ contract.handlerId ++ "' references non-existent " ++
              "handler '" ++ refId ++ "' in execution_constraints.") .expandedExecutionGraphOrphan
          else
            result) result) result

/-- `graph[a].add(b)`. -/
def addEdge (graph : String → Finset String) (a b : String) : String → Finset String :=
  Function.update graph a (insert b (graph a))

/-- The loops of `_detect_cycles` that build the graph. -/
def executionGraph (contracts : List ModelHandlerContract) : String → Finset String :=
  contracts.foldl (fun graph contract =>
    match contract.executionConstraints with
    | none => graph
    | some constraints =>
      let graph := constraints.requiresBefore.foldl (fun graph dep =>
        match handlerRef dep with
        | none => graph
        | some refId =>
          if refId ∈ handlerMap contracts then addEdge graph contract.handlerId refId
          else graph) graph
      constraints.requiresAfter.foldl (fun graph dep =>
        match handlerRef dep with
        | none => graph
        | some refId =>
          if refId ∈ handlerMap contracts then addEdge graph refId contract.handlerId
          else graph) graph) fun _ => ∅

/-- The neighbours of a handler, in the order in which the search comes to them. -/
def neighbors (σ : SetOrder String) (contracts : List ModelHandlerContract) (handlerId : String) :
    List String :=
  σ.iter (executionGraph contracts handlerId)

def cycleMessage (cycle : List String) : String :=
  "Circular dependency detected in execution graph: " ++ " -> ".intercalate cycle

def reportCycle (cycle : List String) (result : ModelValidationResult) : ModelValidationResult :=
  result.addError (cycleMessage cycle) .expandedExecutionGraphCycle

/-- `_detect_cycles`. The recursion is never deeper than there are handlers; the limit that the
interpreter sets is left out. `repr` is that of strings. -/
def detectCycles (repr : String → String) (σ : SetOrder String)
    (contracts : List ModelHandlerContract) (result : ModelValidationResult) :
    Except PyException ModelValidationResult :=
  let handlers := handlerMap contracts
  let st : ColorState String ModelValidationResult :=
    { color := fun a => if a ∈ handlers.toFinset then some .white else none
      path := []
      extra := result }
  match colorRoots reportCycle (neighbors σ contracts) (handlers.length + 1) handlers st with
  | .error (.notOnPath a) => .error (.valueError (repr a ++ " is not in list"))
  | .error .outOfFuel => .error (.other "RecursionError" "maximum recursion depth exceeded")
  | .ok st => .ok st.extra

def validateEventConsumers (repr : String → String) (contracts : List ModelHandlerContract)
    (result : ModelValidationResult) : ModelValidationResult :=
  let eventOutputs :=
    ((contracts.flatMap fun c => c.capabilityOutputs).filter (hasPrefix "event.")).toFinset
  if eventOutputs = ∅ then result
  else
    let consumedEvents :=
      ((contracts.flatMap fun c => c.capabilityInputs).filter (hasPrefix "event.")).toFinset
    let unmatched := eventOutputs \ consumedEvents
    if unmatched = ∅ then result
    else
      result.addIssue
        { severity := .warning
          message := "The following events are produced but have no consumers in the graph: [" ++
            ", ".intercalate (((SetOrder.ascending String).iter unmatched).map repr) ++
            "]. These may be consumed by external systems."
          code := some EnumContractValidationErrorCode.expandedEventConsumerMissing.value
          suggestion := some "Verify these events are consumed by external handlers or systems." }

/-- The end of `validate_graph`, which updates the summary. -/
def updateSummary (contracts : List ModelHandlerContract) (result : ModelValidationResult) :
    ModelValidationResult :=
  { result with
    summary :=
      if result.isValid then
        "Graph validation passed for " ++ toString contracts.length ++ " contracts"
      else
        "Graph validation failed with " ++ toString result.errorLevelCount ++ " errors" }

def validateGraph (repr : String → String) (σ : SetOrder String)
    (contracts : List ModelHandlerContract) : Except PyException ModelValidationResult := do
  let result : ModelValidationResult := { isValid := true, summary := "Graph validation started" }
  if contracts = [] then
    return { result with summary := "No contracts to validate" }
  let result := detectOrphanReferences contracts result
  let result ← detectCycles repr σ contracts result
  let result := validateEventConsumers repr contracts result
  return updateSummary contracts result

end OmnibaseCore.Validation
