import OmnibaseCore.Python.Value
import OmnibaseCore.SemVer.Model

/-!
# Contracts, patches and overlays

The data of the contract merge engine: profiles (`ModelContractBase`), patches, the stack of
overlays, and the handler contract that a merge produces with the checks of its constructor.

A profile and a contract strip the whitespace around their texts (`trim`); a patch does not.
-/

namespace OmnibaseCore.Merge

open SemVer (ModelSemVer)

/-! ## Enumerations -/

inductive EnumOverlayScope
  | base
  | org
  | project
  | env
  | user
  | session
deriving DecidableEq

def EnumOverlayScope.value : EnumOverlayScope → String
  | .base => "base"
  | .org => "org"
  | .project => "project"
  | .env => "env"
  | .user => "user"
  | .session => "session"

def scopeOrder : EnumOverlayScope → ℕ
  | .base => 0
  | .org => 1
  | .project => 2
  | .env => 3
  | .user => 4
  | .session => 5

inductive EnumNodeArchetype
  | compute
  | effect
  | reducer
  | orchestrator
deriving DecidableEq

inductive EnumNodeType
  | computeGeneric
  | effectGeneric
  | reducerGeneric
  | orchestratorGeneric
  | runtimeHostGeneric
  | gateway
  | validator
  | transformer
  | aggregator
  | function
  | tool
  | agent
  | model
  | plugin
  | schema
  | node
  | workflow
  | service
  | unknown

inductive Purity
  | pure
  | sideEffecting

inductive ConcurrencyPolicy
  | parallelOk
  | serialized
  | singleflight

inductive IsolationPolicy
  | none
  | process
  | container
  | vm

inductive ObservabilityLevel
  | minimal
  | standard
  | verbose

inductive BackoffStrategy
  | fixed
  | exponential
  | linear

/-! ## Behaviour -/

structure ModelDescriptorRetryPolicy where
  enabled : Bool := true
  maxRetries : ℤ := 3
  backoffStrategy : BackoffStrategy := .exponential
  baseDelayMs : ℤ := 1000
  maxDelayMs : ℤ := 30000
  jitterFactor : PyFloat := .finite (1 / 10)

structure ModelDescriptorCircuitBreaker where
  enabled : Bool := false
  failureThreshold : ℤ := 5
  successThreshold : ℤ := 2
  timeoutMs : ℤ := 60000
  halfOpenRequests : ℤ := 3

structure ModelHandlerBehavior where
  nodeArchetype : EnumNodeArchetype
  purity : Purity := .sideEffecting
  idempotent : Bool := false
  timeoutMs : Option ℤ := none
  retryPolicy : Option ModelDescriptorRetryPolicy := none
  circuitBreaker : Option ModelDescriptorCircuitBreaker := none
  concurrencyPolicy : ConcurrencyPolicy := .serialized
  isolationPolicy : IsolationPolicy := .none
  observabilityLevel : ObservabilityLevel := .standard
  capabilityInputs : List String := []
  capabilityOutputs : List String := []

structure ModelDescriptorPatch where
  purity : Option Purity := none
  idempotent : Option Bool := none
  timeoutMs : Option ℤ := none
  retryPolicy : Option ModelDescriptorRetryPolicy := none
  circuitBreaker : Option ModelDescriptorCircuitBreaker := none
  concurrencyPolicy : Option ConcurrencyPolicy := none
  isolationPolicy : Option IsolationPolicy := none
  observabilityLevel : Option ObservabilityLevel := none

/-! ## Patches -/

structure ModelProfileReference where
  profile : String
  version : String
deriving DecidableEq

structure ModelReference where
  module : String
  className : String
  version : Option String := none

/-- `str(reference)`, the text that `pydantic` prints. -/
def ModelReference.pyStr (i : TextInterpreter) (r : ModelReference) : String :=
  "module=" ++ i.repr r.module ++ " class_name=" ++ i.repr r.className ++ " version=" ++
    match r.version with
    | none => "None"
    | some version => i.repr version

structure ModelCapabilityProvided where
  name : String
  version : Option String := none
  description : Option String := none

/-- What the list validators of a patch leave of a capability name: letters, digits and
underscores, in lower case. -/
def IsOnexName (s : String) : Prop :=
  s ≠ "" ∧ ∀ c ∈ s.toList, c.isLower ∨ c.isDigit ∨ c = '_'

/-! The defaults of a patch pass its validators. -/

theorem unnamed : (none : Option String) ≠ some "" := by decide

theorem unidentified :
    (none : Option String).isSome = (none : Option ModelSemVer).isSome := rfl

theorem no_onexNames : ∀ s, s ∈ (none : Option (List String)).getD [] ∨
    s ∈ (none : Option (List String)).getD [] ∨
    s ∈ ((none : Option (List ModelCapabilityProvided)).getD []).map
      ModelCapabilityProvided.name ∨
    s ∈ (none : Option (List String)).getD [] → IsOnexName s := by simp

theorem no_conflicts :
    (∀ s ∈ (none : Option (List String)).getD [],
      s ∉ (none : Option (List String)).getD []) ∧
    ∀ c ∈ (none : Option (List ModelCapabilityProvided)).getD [],
      c.name ∉ (none : Option (List String)).getD [] := by simp

/-- `ModelContractPatch`, with what its validators ensure for the fields that a merge reads. -/
structure ModelContractPatch where
  extends_ : ModelProfileReference
  name : Option String := none
  nodeVersion : Option ModelSemVer := none
  description : Option String := none
  inputModel : Option ModelReference := none
  outputModel : Option ModelReference := none
  descriptor : Option ModelDescriptorPatch := none
  handlersAdd : Option (List Value) := none
  handlersRemove : Option (List String) := none
  dependenciesAdd : Option (List Value) := none
  dependenciesRemove : Option (List String) := none
  consumedEventsAdd : Option (List String) := none
  consumedEventsRemove : Option (List String) := none
  capabilityInputsAdd : Option (List String) := none
  capabilityInputsRemove : Option (List String) := none
  capabilityOutputsAdd : Option (List ModelCapabilityProvided) := none
  capabilityOutputsRemove : Option (List String) := none
  /-- `min_length=1` -/
  name_ne : name ≠ some "" := by first | exact unnamed | decide
  /-- `validate_identity_consistency` -/
  identity : name.isSome = nodeVersion.isSome := by first | exact unidentified | decide
  /-- `validate_onex_name_list` and `validate_name` -/
  onexNames : ∀ s, s ∈ capabilityInputsAdd.getD [] ∨ s ∈ capabilityInputsRemove.getD [] ∨
    s ∈ (capabilityOutputsAdd.getD []).map ModelCapabilityProvided.name ∨
    s ∈ capabilityOutputsRemove.getD [] → IsOnexName s := by
      first | exact no_onexNames | simp
  /-- `validate_no_add_remove_conflicts` -/
  noConflicts : (∀ s ∈ capabilityInputsAdd.getD [], s ∉ capabilityInputsRemove.getD []) ∧
    ∀ c ∈ capabilityOutputsAdd.getD [], c.name ∉ capabilityOutputsRemove.getD [] := by
      first | exact no_conflicts | simp

structure ModelOverlayStackEntry where
  overlayId : String
  overlayPatch : ModelContractPatch
  scope : EnumOverlayScope
  version : String := "1.0.0"
  sourceRef : Option String := none

/-- `ModelOverlayRef` of a merge. -/
structure ModelOverlayRef where
  overlayId : String
  version : String
  contentHash : Option String
  scope : EnumOverlayScope
  orderIndex : ℕ

/-! ## Profiles and contracts -/

inductive EnumHandlerRoutingStrategy
  | payloadTypeMatch
  | operationMatch
  | topicPattern

structure ModelHandlerRef where
  name : String
  module : String

structure ModelHandlerRoutingEntry where
  handler : ModelHandlerRef
  eventModel : Option ModelHandlerRef := none
  operation : Option String := none
  eventType : Option String := none
  messageCategory : Option String := none
  topic : Option String := none

structure ModelHandlerRoutingSubcontract where
  version : ModelSemVer
  routingStrategy : EnumHandlerRoutingStrategy := .payloadTypeMatch
  handlers : List ModelHandlerRoutingEntry := []
  defaultHandler : Option String := none

structure ModelConsumedEventEntry where
  eventType : String
  handlerFunction : Option String := none

structure ModelPublishedEventEntry where
  topic : String
  eventType : String

/-- `ModelContractBase`: the fields that a merge reads. The texts have been stripped. -/
structure ModelContractBase where
  name : String
  contractVersion : ModelSemVer
  description : String
  inputModel : String
  outputModel : String
  behavior : Option ModelHandlerBehavior := none
  tags : List String := []
  handlerRouting : Option ModelHandlerRoutingSubcontract := none
  yamlConsumedEvents : List ModelConsumedEventEntry := []
  yamlPublishedEvents : List ModelPublishedEventEntry := []
  stripped : trim name = name ∧ trim description = description ∧ trim inputModel = inputModel ∧
    trim outputModel = outputModel ∧ ∀ tag ∈ tags, trim tag = tag

/-- `ModelCapabilityDependency` with the defaults of its other fields. -/
structure ModelCapabilityDependency where
  alias_ : String
  capability : String

/-- `ModelHandlerContract`: the fields that a merge writes. -/
structure ModelHandlerContract where
  handlerId : String
  name : String
  contractVersion : ModelSemVer
  description : Option String
  descriptor : ModelHandlerBehavior
  capabilityInputs : List ModelCapabilityDependency
  capabilityOutputs : List String
  inputModel : String
  outputModel : String
  tags : List String
  handlerRouting : Option ModelHandlerRoutingSubcontract
  yamlConsumedEvents : List ModelConsumedEventEntry
  yamlPublishedEvents : List ModelPublishedEventEntry

/-! ## Constructors -/

/-- `^[a-z][a-z0-9_]*$`, where `$` is the end of the text. -/
def isAlias (s : String) : Bool :=
  match s.toList with
  | [] => false
  | c :: rest => c.isLower && rest.all fun d => d.isLower || d.isDigit || d = '_'

def validateCapabilityFormat (i : TextInterpreter) (v : String) : Bool :=
  strip v ≠ "" && (splitAt '.' v).all fun segment =>
    match segment.toList with
    | [] => false
    | c :: _ => i.isAlpha c && segment.toList.all fun d => i.isAlnum d || d = '_'

/-- `ModelCapabilityDependency(alias=..., capability=...)`. -/
def ModelCapabilityDependency.make (i : TextInterpreter) (alias_ capability : String) :
    Except PyException ModelCapabilityDependency :=
  let alias_ := trim alias_
  let capability := trim capability
  let aliasValid := 1 ≤ alias_.length ∧ alias_.length ≤ 64 ∧ isAlias alias_
  let capabilityValid := 1 ≤ capability.length ∧ capability.length ≤ 128 ∧
    validateCapabilityFormat i capability
  let wrong := (if aliasValid then [] else ["alias"]) ++
    if capabilityValid then [] else ["capability"]
  if wrong = [] then .ok { alias_, capability }
  else .error (.validationError (i.validationText "ModelCapabilityDependency" wrong))

/-- `min_length`, `max_length` and `validate_handler_id_format`. -/
def validateHandlerId (i : TextInterpreter) (v : String) : Bool :=
  1 ≤ v.length && v.length ≤ 256 && strip v ≠ "" &&
    2 ≤ (splitAt '.' v).length && (splitAt '.' v).all fun segment =>
      match segment.toList with
      | [] => false
      | c :: _ => i.isAlpha c || c = '_'

/-- `prefix_to_archetype.get(prefix)`. -/
def prefixToArchetype (prefix_ : String) : Option EnumNodeArchetype :=
  if prefix_ = "compute" then some .compute
  else if prefix_ = "effect" then some .effect
  else if prefix_ = "reducer" then some .reducer
  else if prefix_ = "orchestrator" then some .orchestrator
  else none

def EnumNodeArchetype.value : EnumNodeArchetype → String
  | .compute => "compute"
  | .effect => "effect"
  | .reducer => "reducer"
  | .orchestrator => "orchestrator"

def validateDescriptorNodeArchetypeConsistency (i : TextInterpreter) (c : ModelHandlerContract) :
    Except PyException Unit :=
  let prefix_ := i.lower ((splitAt '.' c.handlerId).headD "")
  match prefixToArchetype prefix_ with
  | none => .ok ()
  | some expected =>
    if c.descriptor.nodeArchetype = expected then .ok ()
    else .error (.modelOnexError {
      errorCode := .validationError
      message := "Handler ID prefix '" ++ prefix_ ++ "' implies node_archetype='" ++
        expected.value ++ "' but descriptor has node_archetype='" ++
        c.descriptor.nodeArchetype.value ++ "'"
      context := [("handler_id", .str c.handlerId), ("expected_archetype", .str expected.value),
        ("actual_archetype", .str c.descriptor.nodeArchetype.value)] })

/-- `str_strip_whitespace`. -/
def ModelHandlerContract.stripped (c : ModelHandlerContract) : ModelHandlerContract :=
  { c with
    handlerId := trim c.handlerId
    name := trim c.name
    description := c.description.map trim
    capabilityOutputs := c.capabilityOutputs.map trim
    inputModel := trim c.inputModel
    outputModel := trim c.outputModel
    tags := c.tags.map trim }

/-- The fields that fail their checks, `validate_unique_aliases` among them. -/
def ModelHandlerContract.wrongFields (i : TextInterpreter) (c : ModelHandlerContract) :
    List String :=
  let checks := [
    ("handler_id", validateHandlerId i c.handlerId),
    ("name", decide (1 ≤ c.name.length ∧ c.name.length ≤ 128)),
    ("description", decide (∀ description ∈ c.description, description.length ≤ 1000)),
    ("capability_inputs", decide (c.capabilityInputs.map (·.alias_)).Nodup),
    ("input_model", decide (1 ≤ c.inputModel.length)),
    ("output_model", decide (1 ≤ c.outputModel.length))]
  (checks.filter fun check => !check.2).map Prod.fst

def ModelHandlerContract.make (i : TextInterpreter) (c : ModelHandlerContract) :
    Except PyException ModelHandlerContract :=
  let c := c.stripped
  let wrong := c.wrongFields i
  if wrong ≠ [] then .error (.validationError (i.validationText "ModelHandlerContract" wrong))
  else
    match validateDescriptorNodeArchetypeConsistency i c with
    | .error e => .error e
    | .ok () => .ok c

end OmnibaseCore.Merge
