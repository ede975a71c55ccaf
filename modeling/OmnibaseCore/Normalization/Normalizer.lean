import OmnibaseCore.Json.Value
import OmnibaseCore.Python.PyDict

/-!
# The contract normalizers

The steps of `compose_normalization_pipeline` on a contract as it is read from its file. A step
that changes a field in place is a change of the value at its key.
-/

namespace OmnibaseCore.Normalization

abbrev RawContract := PyDict String (Json JsonPrimitive)

def str (s : String) : Json JsonPrimitive := .prim (.strict (.str s))

/-- A number. -/
def int (n : ℤ) : Json JsonPrimitive := .prim (.strict (.int n))

/-! ## Legacy blocks -/

def legacyMetadataKeys : List String := ["metadata", "contract_name", "node_name"]

def legacyEventBusKeys : List String := ["event_bus", "subscribe_topics", "publish_topics", "topics"]

def stripLegacyMetadata (raw : RawContract) : RawContract :=
  raw.filterKeys fun k => k ∉ legacyMetadataKeys

def normalizeEventBus (raw : RawContract) : RawContract :=
  raw.filterKeys fun k => k ∉ legacyEventBusKeys

/-! ## Model references -/

def normalizeSingleIoRef : Json JsonPrimitive → Option String
  | .prim (.strict (.str s)) => some s
  | .dict value =>
    match value.lookup "module", value.lookup "name" with
    | some (.prim (.strict (.str module))), some (.prim (.strict (.str name))) =>
      if module ≠ "" ∧ name ≠ "" then some (module ++ "." ++ name) else none
    | _, _ => none
  | _ => none

/-- A reference of `normalize_io_model_ref`, normalized if it can be. -/
def normalizeIoRef (value : Json JsonPrimitive) : Json JsonPrimitive :=
  match normalizeSingleIoRef value with
  | none => value
  | some normalized => str normalized

def normalizeIoModelRef (raw : RawContract) : RawContract :=
  (raw.modify "input_model" normalizeIoRef).modify "output_model" normalizeIoRef

/-! ## Handler routing -/

def defaultHandlerRoutingVersion : Json JsonPrimitive :=
  .dict [("major", int 1), ("minor", int 0), ("patch", int 0)]

def normalizationFlagKey : String := "_normalization_flag"

def multiOpFlag : String := "multi_operation_requires_human_review"

abbrev Items := List (String × Json JsonPrimitive)

def operationFromRoutingKey (nh : Items) : Items :=
  if "operation" ∈ Dict.keys nh then nh
  else
    match nh.lookup "routing_key" with
    | some (.prim (.strict (.str routingKey))) =>
      if routingKey ≠ "" then Dict.setItem nh ("operation", str routingKey) else nh
    | _ => nh

/-- The operation from the supported operations, or from the type of the handler. -/
def operationFromSupported (nh : Items) : Items :=
  if "operation" ∈ Dict.keys nh then nh
  else
    let ops :=
      match nh.lookup "supported_operations" with
      | some (.list ops) => ops
      | _ => []
    match ops with
    | [op] => Dict.setItem nh ("operation", op)
    | op :: _ :: _ =>
      Dict.setItem (Dict.setItem nh ("operation", op)) (normalizationFlagKey, str multiOpFlag)
    | [] =>
      match nh.lookup "handler_type" with
      | some handlerType => Dict.setItem nh ("operation", handlerType)
      | none => nh

def handlerFromKey (nh : Items) : Items :=
  match nh.lookup "handler_key" with
  | some (.prim (.strict (.str handlerKey))) =>
    if handlerKey ≠ "" then
      Dict.setItem nh ("handler", .dict [("name", str handlerKey), ("module", str "")])
    else nh
  | _ => nh

def withHandler (nh : Items) : Items :=
  match nh.lookup "handler" with
  | some (.dict nested) =>
    if "name" ∉ Dict.keys nested then handlerFromKey nh
    else if "module" ∉ Dict.keys nested then
      Dict.setItem nh ("handler", .dict (Dict.setItem nested ("module", str "")))
    else nh
  | _ => handlerFromKey nh

/-- An entry of `handlers`. -/
def normalizeHandler : Json JsonPrimitive → Json JsonPrimitive
  | .dict h => .dict (withHandler (operationFromSupported (operationFromRoutingKey h)))
  | h => h

/-- The block `handler_routing`. -/
def normalizeRoutingBlock : Json JsonPrimitive → Json JsonPrimitive
  | .dict hr =>
    let hr :=
      if "version" ∈ Dict.keys hr then hr
      else Dict.setItem hr ("version", defaultHandlerRoutingVersion)
    match (hr.lookup "handlers").getD (.list []) with
    | .list handlers => .dict (Dict.setItem hr ("handlers", .list (handlers.map normalizeHandler)))
    | _ => .dict hr
  | hr => hr

def normalizeHandlerRouting (raw : RawContract) : RawContract :=
  raw.modify "handler_routing" normalizeRoutingBlock

/-! ## Contracts of the first version -/

def isOmnimarketV0 (raw : RawContract) : Bool :=
  match raw.get "handler" with
  | some (.dict handler) => "class" ∈ Dict.keys handler
  | _ => false

/-- The reference of the block `handler` that is hoisted. -/
def hoistedInputModel (raw : RawContract) : Option (Json JsonPrimitive) :=
  match raw.get "handler" with
  | some (.dict handlerBlock) => handlerBlock.lookup "input_model"
  | _ => none

def normalizeOmnimarketV0Contract (raw : RawContract) : RawContract :=
  let result := ((raw.delItem "handler").delItem "descriptor").delItem "terminal_event"
  match hoistedInputModel raw with
  | none => result
  | some inputModel =>
    if result.contains "input_model" then result else result.setItem "input_model" inputModel

/-! ## Evidence -/

def dodKindToType : List (String × String) :=
  [("test", "unit_test"), ("unit_test", "unit_test"), ("integration_test", "integration_test"),
    ("pr_merged", "pr_merged"), ("file_exists", "file_exists")]

def dodType : Json JsonPrimitive → Json JsonPrimitive
  | .prim (.strict (.str kindValue)) => str ((dodKindToType.lookup kindValue).getD kindValue)
  | kindValue => kindValue

/-- An entry of `dod_evidence`. -/
def normalizeDodItem : Json JsonPrimitive → Json JsonPrimitive
  | .dict item =>
    match item.lookup "kind" with
    | none => .dict item
    | some kindValue =>
      if "type" ∈ Dict.keys item then .dict item
      else .dict (Dict.setItem (item.filter fun e => e.1 ≠ "kind") ("type", dodType kindValue))
  | item => item

/-- The value of `dod_evidence`. -/
def normalizeDodItems : Json JsonPrimitive → Json JsonPrimitive
  | .list items => .list (items.map normalizeDodItem)
  | items => items

def normalizeDodEvidence (raw : RawContract) : RawContract :=
  raw.modify "dod_evidence" normalizeDodItems

/-! ## Other fields -/

/-- The fields of `ModelContractBase`. -/
def contractBaseFields : List String :=
  ["name", "contract_version", "node_version", "description", "node_type", "input_model",
    "output_model", "performance", "lifecycle", "dependencies", "protocol_interfaces",
    "protocol_dependencies", "validation_rules", "author", "documentation_url", "tags",
    "annotations", "feature_flags", "golden_path", "dod_evidence", "config", "execution",
    "behavior", "concurrency", "behavior_spec", "handler_routing", "yaml_consumed_events",
    "yaml_published_events"]

/-- The further fields of `ModelContractEffect`. -/
def contractEffectFields : List String :=
  ["correlation_id", "execution_id", "node_name", "tool_specification", "service_configuration",
    "input_state", "output_state", "actions", "infrastructure", "infrastructure_services",
    "io_operations", "transaction_management", "retry_policies", "external_services",
    "backup_config", "idempotent_operations", "side_effect_logging_enabled",
    "audit_trail_enabled", "consistency_validation_enabled", "event_type", "caching", "routing"]

/-- The further fields of `ModelContractCompute`. -/
def contractComputeFields : List String :=
  ["node_name", "tool_specification", "service_configuration", "input_state", "output_state",
    "actions", "infrastructure", "infrastructure_services", "algorithm", "parallel_processing",
    "input_validation", "output_transformation", "deterministic_execution",
    "memory_optimization_enabled", "intermediate_result_caching", "event_type", "caching"]

/-- The further fields of `ModelContractReducer`. -/
def contractReducerFields : List String :=
  ["correlation_id", "fingerprint", "node_type", "node_name", "tool_specification",
    "service_configuration", "input_state", "output_state", "actions", "infrastructure",
    "infrastructure_services", "validation_rules", "reduction_operations", "streaming",
    "conflict_resolution", "memory_management", "order_preserving", "incremental_processing",
    "result_caching_enabled", "partial_results_enabled", "state_machine", "event_type",
    "aggregation", "state_management", "caching", "workflow_coordination"]

/-- The further fields of `ModelContractOrchestrator`. -/
def contractOrchestratorFields : List String :=
  ["correlation_id", "node_type", "action_emission", "workflow_coordination",
    "conditional_branching", "event_registry", "published_events", "consumed_events",
    "event_coordination", "load_balancing_enabled", "failure_isolation_enabled",
    "monitoring_enabled", "metrics_collection_enabled"]

/-- `_derive_known_contract_keys`. -/
def knownContractKeys : List String :=
  contractBaseFields ++ contractEffectFields ++ contractComputeFields ++ contractReducerFields ++
    contractOrchestratorFields

section
variable {α : Type} (knownKeys : List String) (raw : PyDict String (Json α))

def existingAnnotations : List (String × Json α) :=
  match raw.get "annotations" with
  | some (.dict annotations) => annotations
  | _ => []

def normalizeMiscExtraFields : PyDict String (Json α) :=
  let extra := raw.filterKeys fun k => k ∉ knownKeys
  if extra.entries = [] then raw
  else
    let result := raw.filterKeys fun k => k ∈ knownKeys
    result.setItem "annotations" (.dict (Dict.update (existingAnnotations raw) extra.entries))

end

/-! ## The pipeline -/

/-- The families of `EnumNormalizationFamily` that the pipeline reports. -/
inductive EnumNormalizationFamily
  | legacyInputOutputModel
  | legacyEventBus
  | legacyMetadata
  | legacyHandlerRouting
  | miscExtraFields
  | handlerBlock
  | descriptorBlock
  | terminalEvent
  | dodEvidenceSchema

def EnumNormalizationFamily.value : EnumNormalizationFamily → String
  | .legacyInputOutputModel => "family_legacy_input_output_model"
  | .legacyEventBus => "family_legacy_event_bus"
  | .legacyMetadata => "family_legacy_metadata"
  | .legacyHandlerRouting => "family_legacy_handler_routing"
  | .miscExtraFields => "family_misc_extra_fields"
  | .handlerBlock => "family_handler_block"
  | .descriptorBlock => "family_descriptor_block"
  | .terminalEvent => "family_terminal_event"
  | .dodEvidenceSchema => "family_dod_evidence_schema"

def normalizationPipelineVersion : String := "migration_normalization_v1"

def versionedFamilyFlag (family : EnumNormalizationFamily) : String :=
  normalizationPipelineVersion ++ ":" ++ family.value

def versionedEmbeddedFlag (flag : String) : String :=
  normalizationPipelineVersion ++ ":flag:" ++ flag

def appendUnique (flags : List String) (flag : String) : List String :=
  if flag ∈ flags then flags else flags ++ [flag]

def collectEmbeddedNormalizationFlags : Json JsonPrimitive → List String :=
  Json.foldValues [] (fun _ => [])
    (fun items => items.foldl (fun flags item => item.2.foldl appendUnique flags) [])
    fun entries =>
      let flags :=
        match (entries.lookup normalizationFlagKey).map Prod.fst with
        | some (.prim (.strict (.str rawFlag))) => [versionedEmbeddedFlag rawFlag]
        | _ => []
      entries.foldl (fun flags e => e.2.2.foldl appendUnique flags) flags

/-- `after != before`. A value is equal to itself, whatever it is. -/
def differs (before after : RawContract) : Bool :=
  !Json.pyEq (fun a b => a = b || a.pyEq b) (.dict after.entries) (.dict before.entries)

def reportFamily (flags : List String) (changed : Bool) (family : EnumNormalizationFamily) :
    List String :=
  if changed then appendUnique flags (versionedFamilyFlag family) else flags

def normalizeContractWithFlags (raw : RawContract) : RawContract × List String :=
  let out := stripLegacyMetadata raw
  let flags := reportFamily [] (differs raw out) .legacyMetadata
  let before := out
  let out := normalizeEventBus out
  let flags := reportFamily flags (differs before out) .legacyEventBus
  let before := out
  let out := normalizeIoModelRef out
  let flags := reportFamily flags (differs before out) .legacyInputOutputModel
  let before := out
  let out := normalizeHandlerRouting out
  let flags := reportFamily flags (differs before out) .legacyHandlerRouting
  let (out, flags) :=
    if isOmnimarketV0 out then
      let flags := reportFamily flags (out.contains "handler") .handlerBlock
      let flags := reportFamily flags (out.contains "descriptor") .descriptorBlock
      let flags := reportFamily flags (out.contains "terminal_event") .terminalEvent
      (normalizeOmnimarketV0Contract out, flags)
    else (out, flags)
  let before := out
  let out := normalizeDodEvidence out
  let flags := reportFamily flags (differs before out) .dodEvidenceSchema
  let before := out
  let out := normalizeMiscExtraFields knownContractKeys out
  let flags := reportFamily flags (differs before out) .miscExtraFields
  (out, (collectEmbeddedNormalizationFlags (.dict out.entries)).foldl appendUnique flags)

def composeNormalizationPipeline (raw : RawContract) : RawContract :=
  (normalizeContractWithFlags raw).1

end OmnibaseCore.Normalization
