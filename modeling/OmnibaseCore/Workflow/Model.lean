import OmnibaseCore.Python.Basic

/-!
# Workflow definitions and their steps

The data that the workflow executor and the workflow validator read: the steps of a workflow
with their dependencies, its metadata, and the limits taken from the environment.
-/

namespace OmnibaseCore.Workflow

/-- `step_type`. The value `conditional` is not in the field's type, but the executor checks
for it in steps that were built without validation. -/
inductive StepType
  | compute
  | effect
  | reducer
  | orchestrator
  | parallel
  | custom
  | conditional
deriving DecidableEq

def StepType.value : StepType → String
  | .compute => "compute"
  | .effect => "effect"
  | .reducer => "reducer"
  | .orchestrator => "orchestrator"
  | .parallel => "parallel"
  | .custom => "custom"
  | .conditional => "conditional"

inductive ErrorAction
  | stop
  | «continue»
  | retry
  | compensate
deriving DecidableEq

structure ModelWorkflowStep where
  correlationId : UUID
  stepId : UUID
  stepName : String
  stepType : StepType
  timeoutMs : ℤ
  retryCount : ℤ
  enabled : Bool
  skipOnFailure : Bool
  continueOnError : Bool
  errorAction : ErrorAction
  maxMemoryMb : Option ℤ
  maxCpuPercent : Option ℤ
  priority : ℤ
  orderIndex : ℤ
  dependsOn : List UUID
  parallelGroup : Option String
  maxParallelInstances : ℤ
deriving DecidableEq

/-- A step with the defaults of the model; the identifiers have no fixed default. -/
def ModelWorkflowStep.default (correlationId stepId : UUID) (stepName : String)
    (stepType : StepType) : ModelWorkflowStep where
  correlationId := correlationId
  stepId := stepId
  stepName := stepName
  stepType := stepType
  timeoutMs := 30000
  retryCount := 3
  enabled := true
  skipOnFailure := false
  continueOnError := false
  errorAction := .stop
  maxMemoryMb := none
  maxCpuPercent := none
  priority := 100
  orderIndex := 0
  dependsOn := []
  parallelGroup := none
  maxParallelInstances := 1

/-- `ModelWorkflowDefinitionMetadata`, the fields the executor reads. -/
structure ModelWorkflowDefinitionMetadata where
  workflowName : String
  executionMode : String
  timeoutMs : ℤ

/-- `ModelWorkflowDefinition`, the part the executor reads. -/
structure ModelWorkflowDefinition where
  workflowMetadata : ModelWorkflowDefinitionMetadata

/-! ## Limits -/

/-- `_get_limit_from_env`, for a variable whose text has been read as an integer (`none` if it
is not set or not an integer). -/
def getLimitFromEnv (value : Option ℤ) (default minVal maxVal : ℕ) : ℕ :=
  match value with
  | none => default
  | some n => (max (minVal : ℤ) (min n maxVal)).toNat

/-- The limits of `constants_workflow.py`. -/
structure Limits where
  maxWorkflowSteps : ℕ
  maxStepPayloadSizeBytes : ℕ
  maxTotalPayloadSizeBytes : ℕ

/-- The limits for given values of `ONEX_MAX_WORKFLOW_STEPS`,
`ONEX_MAX_STEP_PAYLOAD_SIZE_BYTES` and `ONEX_MAX_TOTAL_PAYLOAD_SIZE_BYTES`. -/
def Limits.ofEnv (steps stepPayload totalPayload : Option ℤ) : Limits where
  maxWorkflowSteps := getLimitFromEnv steps 1000 1 100000
  maxStepPayloadSizeBytes :=
    getLimitFromEnv stepPayload (64 * 1024) 1024 (10 * 1024 * 1024)
  maxTotalPayloadSizeBytes :=
    getLimitFromEnv totalPayload (10 * 1024 * 1024) 1024 (1024 * 1024 * 1024)

def maxDfsIterations : ℕ := 10000

def minTimeoutMs : ℤ := 100

def reservedStepTypes : List StepType := [.conditional]

/-! ## Step identifiers and dependencies -/

/-- `{step.step_id for step in workflow_steps}`. -/
def stepIds (steps : List ModelWorkflowStep) : Finset UUID :=
  (steps.map ModelWorkflowStep.stepId).toFinset

/-- The loop over the dependencies that refer to existing steps,
`for step in workflow_steps: for dep_id in step.depends_on: if dep_id in step_ids: ...`. -/
def forEachDependency {β : Type} (steps : List ModelWorkflowStep)
    (body : β → ModelWorkflowStep → UUID → β) (init : β) : β :=
  steps.foldl (fun acc step =>
    step.dependsOn.foldl (fun acc depId =>
      if depId ∈ stepIds steps then body acc step depId else acc) acc) init

/-- A step with the identifier `a` lists the existing step `b` among its dependencies. -/
def DependsOn (steps : List ModelWorkflowStep) (a b : UUID) : Prop :=
  b ∈ stepIds steps ∧ ∃ step ∈ steps, step.stepId = a ∧ b ∈ step.dependsOn

/-- The dependencies between existing steps, one pair for each time the loop runs its body. -/
def dependencyPairs (steps : List ModelWorkflowStep) : List (ModelWorkflowStep × UUID) :=
  steps.flatMap fun step =>
    (step.dependsOn.filter fun depId => depId ∈ stepIds steps).map fun depId => (step, depId)

variable {steps : List ModelWorkflowStep}

theorem mem_stepIds {a : UUID} : a ∈ stepIds steps ↔ ∃ step ∈ steps, step.stepId = a := by
  rw [stepIds, List.mem_toFinset, List.mem_map]

theorem mem_dependencyPairs {p : ModelWorkflowStep × UUID} :
    p ∈ dependencyPairs steps ↔ p.1 ∈ steps ∧ p.2 ∈ p.1.dependsOn ∧ p.2 ∈ stepIds steps := by
  obtain ⟨step, depId⟩ := p
  simp only [dependencyPairs, List.mem_flatMap, List.mem_map, List.mem_filter,
    decide_eq_true_eq, Prod.mk.injEq]
  constructor
  · rintro ⟨s, hs, d, ⟨hd, hid⟩, rfl, rfl⟩
    exact ⟨hs, hd, hid⟩
  · rintro ⟨hs, hd, hid⟩
    exact ⟨step, hs, depId, ⟨hd, hid⟩, rfl, rfl⟩

theorem dependsOn_iff {a b : UUID} :
    DependsOn steps a b ↔ ∃ p ∈ dependencyPairs steps, p.1.stepId = a ∧ p.2 = b := by
  constructor
  · rintro ⟨hb, step, hstep, rfl, hdep⟩
    exact ⟨(step, b), mem_dependencyPairs.mpr ⟨hstep, hdep, hb⟩, rfl, rfl⟩
  · rintro ⟨p, hp, rfl, rfl⟩
    obtain ⟨hstep, hdep, hid⟩ := mem_dependencyPairs.mp hp
    exact ⟨hid, p.1, hstep, rfl, hdep⟩

theorem forEachDependency_eq {β : Type} (steps : List ModelWorkflowStep)
    (body : β → ModelWorkflowStep → UUID → β) (init : β) :
    forEachDependency steps body init
      = (dependencyPairs steps).foldl (fun acc p => body acc p.1 p.2) init := by
  have hfilter : ∀ (step : ModelWorkflowStep) (deps : List UUID) (acc : β),
      deps.foldl (fun acc depId =>
        if depId ∈ stepIds steps then body acc step depId else acc) acc
      = ((deps.filter fun depId => depId ∈ stepIds steps).map fun depId => (step, depId)).foldl
          (fun acc p => body acc p.1 p.2) acc := by
    intro step deps
    induction deps with
    | nil => intro acc; rfl
    | cons d deps ih =>
      intro acc
      rw [List.foldl_cons]
      by_cases hd : d ∈ stepIds steps
      · rw [if_pos hd, List.filter_cons_of_pos (by simpa using hd), List.map_cons,
          List.foldl_cons, ih]
      · rw [if_neg hd, List.filter_cons_of_neg (by simpa using hd), ih]
  have hsteps : ∀ (l : List ModelWorkflowStep) (acc : β),
      l.foldl (fun acc step => step.dependsOn.foldl (fun acc depId =>
        if depId ∈ stepIds steps then body acc step depId else acc) acc) acc
      = (l.flatMap fun step => (step.dependsOn.filter fun depId =>
          depId ∈ stepIds steps).map fun depId => (step, depId)).foldl
          (fun acc p => body acc p.1 p.2) acc := by
    intro l
    induction l with
    | nil => intro acc; rfl
    | cons step l ih =>
      intro acc
      rw [List.foldl_cons, List.flatMap_cons, List.foldl_append, ih, hfilter]
  exact hsteps steps init

/-!
## Actions

`_create_action_for_step` turns a step into the action that is emitted for it, or fails. What
it takes from outside the repository (the JSON serializer, fresh identifiers, the text of a
failed field validation) is an argument, `ActionEnv`. Whether the action of a step can be
created is therefore an arbitrary function of the step.
-/

inductive EnumActionType
  | compute
  | effect
  | reduce
  | orchestrate
  | custom

def EnumActionType.value : EnumActionType → String
  | .compute => "compute"
  | .effect => "effect"
  | .reduce => "reduce"
  | .orchestrate => "orchestrate"
  | .custom => "custom"

/-- `ModelActionCategory`, the predefined ones that default actions use. -/
inductive ModelActionCategory
  | transformation
  | operation
  | management

structure ModelNodeActionType where
  name : String
  category : ModelActionCategory
  displayName : String
  description : String

/-- The metadata of a payload: the dictionary with the keys `workflow_id`, `step_id` and
`step_name`. -/
structure StepActionMetadata where
  workflowId : String
  stepId : String
  stepName : String

structure SpecificActionPayload where
  typeName : String
  actionType : ModelNodeActionType
  metadata : StepActionMetadata

/-- `default_names` of `create_action_payload`, with the name in title case. -/
def defaultSemanticAction : EnumActionType → String × String
  | .compute => ("process", "Process")
  | .effect => ("execute", "Execute")
  | .reduce => ("aggregate", "Aggregate")
  | .orchestrate => ("coordinate", "Coordinate")
  | .custom => ("custom", "Custom")

/-- `_ACTION_TYPE_TO_DEFAULT_CATEGORY`. -/
def defaultCategory : EnumActionType → ModelActionCategory
  | .compute => .transformation
  | .effect => .operation
  | .reduce => .operation
  | .orchestrate => .management
  | .custom => .operation

/-- `create_specific_action_payload`, for the default actions: by name for `custom`, by
category for the others. -/
def payloadTypeName (actionType : ModelNodeActionType) : String :=
  if actionType.name = "custom" then
    "ModelCustomActionPayload"
  else
    match actionType.category with
    | .transformation => "ModelTransformationActionPayload"
    | .operation => "ModelOperationalActionPayload"
    | .management => "ModelManagementActionPayload"

/-- `create_action_payload` without a semantic action. -/
def createActionPayload (actionType : EnumActionType) (metadata : StepActionMetadata) :
    SpecificActionPayload :=
  let semanticAction := defaultSemanticAction actionType
  let nodeActionType : ModelNodeActionType := {
    name := semanticAction.1
    category := defaultCategory actionType
    displayName := semanticAction.2
    description := "Action: " ++ semanticAction.1 ++ " (via " ++ actionType.value ++ ")" }
  { typeName := payloadTypeName nodeActionType
    actionType := nodeActionType
    metadata := metadata }

/-- `ModelActionMetadata`, the fields the executor sets. -/
structure ModelActionMetadata where
  correlationId : UUID
  parameterStepName : String
  parameterCorrelationId : String

structure ModelAction where
  actionId : UUID
  actionType : EnumActionType
  targetNodeType : String
  payload : SpecificActionPayload
  dependencies : List UUID
  priority : ℤ
  timeoutMs : ℤ
  leaseId : UUID
  epoch : ℤ
  retryCount : ℤ
  metadata : ModelActionMetadata

/-- What creating an action takes from outside the repository. -/
structure ActionEnv where
  /-- `json.dumps(payload.model_dump(), default=_json_default_for_workflow)` -/
  jsonDumps : SpecificActionPayload → Except PyException String
  /-- the `uuid4()` drawn for the action of a step -/
  newActionId : ModelWorkflowStep → UUID
  /-- the `uuid4()` drawn for the lease of the action of a step -/
  newLeaseId : ModelWorkflowStep → UUID
  /-- the text of the error for an action with a field out of bounds -/
  validationText : ModelAction → String

/-- The bounds of the fields of `ModelAction`. -/
def ModelAction.FieldsValid (action : ModelAction) : Prop :=
  1 ≤ action.targetNodeType.length ∧ action.targetNodeType.length ≤ 100 ∧
  1 ≤ action.priority ∧ action.priority ≤ 10 ∧
  100 ≤ action.timeoutMs ∧ action.timeoutMs ≤ 300000 ∧
  0 ≤ action.epoch ∧
  0 ≤ action.retryCount ∧ action.retryCount ≤ 10

instance (action : ModelAction) : Decidable action.FieldsValid :=
  inferInstanceAs (Decidable (_ ∧ _))

/-- The construction of a `ModelAction`: the bounds of its fields, then
`_validate_action_consistency`. -/
def ModelAction.validate (env : ActionEnv) (action : ModelAction) :
    Except PyException ModelAction :=
  if ¬ action.FieldsValid then
    .error (.validationError (env.validationText action))
  else if action.actionId ∈ action.dependencies then
    .error (.modelOnexError {
      errorCode := .orchestratorSemanticCycleDetected
      message := "ModelAction validation failed: action_id (" ++ action.actionId.str ++
        ") cannot be in its own dependencies list. This would create a " ++
        "circular dependency that can never be resolved."
      context := [("action_id", .str action.actionId.str),
        ("dependencies", .strs (action.dependencies.map UUID.str)),
        ("action_type", .str action.actionType.value)] })
  else
    .ok action

/-- `action_type_map`. -/
def actionTypeOf : StepType → EnumActionType
  | .compute => .compute
  | .effect => .effect
  | .reducer => .reduce
  | .orchestrator => .orchestrate
  | .custom => .custom
  | _ => .custom

/-- `target_node_type_map`. -/
def targetNodeTypeOf : StepType → String
  | .compute => "NodeCompute"
  | .effect => "NodeEffect"
  | .reducer => "NodeReducer"
  | .orchestrator => "NodeOrchestrator"
  | .custom => "NodeCustom"
  | _ => "NodeCustom"

/-- `min(step.priority, 10) if step.priority else 1`. -/
def actionPriority (priority : ℤ) : ℤ := if priority ≠ 0 then min priority 10 else 1

/-- `_create_action_for_step`: the action and the size of its payload in bytes. -/
def createActionForStep (env : ActionEnv) (limits : Limits) (step : ModelWorkflowStep)
    (workflowId : UUID) (stepIdToActionId : Option (UUID → Option UUID)) :
    Except PyException (ModelAction × ℕ) :=
  let actionType := actionTypeOf step.stepType
  let typedPayload := createActionPayload actionType
    { workflowId := workflowId.str, stepId := step.stepId.str, stepName := step.stepName }
  match env.jsonDumps typedPayload with
  | .error e =>
    if e.isValidationError then
      .error (.modelOnexError {
        errorCode := .validationError
        message := "Payload is not JSON-serializable for step '" ++ step.stepName ++ "': " ++
          e.str
        context := [("payload_type", .str typedPayload.typeName),
          ("step_context", .str step.stepName)] })
    else
      .error e
  | .ok payloadJson =>
    let payloadSize := payloadJson.utf8ByteSize
    if payloadSize > limits.maxStepPayloadSizeBytes then
      .error (.modelOnexError {
        errorCode := .workflowPayloadSizeExceeded
        message := "Step payload exceeds size limit: " ++ toString payloadSize ++ " bytes > " ++
          toString limits.maxStepPayloadSizeBytes ++ " byte limit"
        context := [("step_id", .str step.stepId.str), ("step_name", .str step.stepName),
          ("payload_size", .int payloadSize), ("limit", .int limits.maxStepPayloadSizeBytes)] })
    else
      let actionDependencies :=
        match stepIdToActionId with
        | some actionIds => step.dependsOn.filterMap actionIds
        | none => step.dependsOn
      let action := ModelAction.validate env {
        actionId := env.newActionId step
        actionType := actionType
        targetNodeType := targetNodeTypeOf step.stepType
        payload := typedPayload
        dependencies := actionDependencies
        priority := actionPriority step.priority
        timeoutMs := step.timeoutMs
        leaseId := env.newLeaseId step
        epoch := 0
        retryCount := step.retryCount
        metadata := {
          correlationId := step.correlationId
          parameterStepName := step.stepName
          parameterCorrelationId := step.correlationId.str } }
      action.map fun action => (action, payloadSize)

def payloadSize (env : ActionEnv) (action : ModelAction) : ℕ :=
  match env.jsonDumps action.payload with
  | .ok payloadJson => payloadJson.utf8ByteSize
  | .error _ => 0

def ModelAction.stepId (action : ModelAction) : String := action.payload.metadata.stepId

theorem ModelAction.validate_ok {env : ActionEnv} {action action' : ModelAction}
    (h : action.validate env = .ok action') : action' = action := by
  unfold ModelAction.validate at h
  split_ifs at h
  cases h
  rfl

theorem createActionForStep_ok {env : ActionEnv} {limits : Limits} {step : ModelWorkflowStep}
    {workflowId : UUID} {ids : Option (UUID → Option UUID)} {action : ModelAction} {size : ℕ}
    (h : createActionForStep env limits step workflowId ids = .ok (action, size)) :
    action.stepId = step.stepId.str ∧ size = payloadSize env action ∧
      size ≤ limits.maxStepPayloadSizeBytes := by
  unfold createActionForStep at h
  dsimp only at h
  split at h
  · split_ifs at h
  · rename_i payloadJson hjson
    split_ifs at h with hsize
    generalize haction : ModelAction.validate env _ = created at h
    cases created with
    | error e => cases h
    | ok action' =>
      cases h
      have heq := ModelAction.validate_ok haction
      have hpayload : action.payload = createActionPayload (actionTypeOf step.stepType)
          { workflowId := workflowId.str, stepId := step.stepId.str,
            stepName := step.stepName } := by
        rw [heq]
      unfold ModelAction.stepId payloadSize
      rw [hpayload, hjson]
      exact ⟨rfl, rfl, Nat.le_of_not_lt hsize⟩

end OmnibaseCore.Workflow
