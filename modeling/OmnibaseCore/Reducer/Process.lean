import OmnibaseCore.Fsm.SelectionTheorems

/-!
# The reducer node

The input and output of `NodeReducer.process`, and the state that a node keeps. Processing
times and the window and batch settings of the input, which the node does not read, are left
out.
-/

namespace OmnibaseCore.Reducer

open Fsm

/-! ## Input -/

inductive EnumReductionType
  | fold
  | accumulate
  | merge
  | aggregate
  | normalize
  | deduplicate
  | sort
  | filter
  | group
  | transform

def EnumReductionType.value : EnumReductionType → String
  | .fold => "fold"
  | .accumulate => "accumulate"
  | .merge => "merge"
  | .aggregate => "aggregate"
  | .normalize => "normalize"
  | .deduplicate => "deduplicate"
  | .sort => "sort"
  | .filter => "filter"
  | .group => "group"
  | .transform => "transform"

inductive EnumStreamingMode
  | batch
  | incremental
  | windowed
  | realTime

/-- `ModelReducerMetadata`. The extra fields are those that the caller adds. -/
structure ModelReducerMetadata where
  source : Option String
  traceId : Option String
  spanId : Option String
  correlationId : Option String
  groupKey : Option String
  partitionId : Option UUID
  windowId : Option UUID
  tags : List String
  trigger : Option String
  extra : Context

/-- A field that may be `None`, as an object. -/
def optional {α : Type} (value : α → Value) : Option α → Value
  | some a => value a
  | none => .none

/-- `model_dump(exclude_none=True)`. -/
def ModelReducerMetadata.modelDump (m : ModelReducerMetadata) : Context :=
  let fields : Context := [
    ("source", optional .str m.source), ("trace_id", optional .str m.traceId),
    ("span_id", optional .str m.spanId), ("correlation_id", optional .str m.correlationId),
    ("group_key", optional .str m.groupKey), ("partition_id", optional .uuid m.partitionId),
    ("window_id", optional .uuid m.windowId), ("tags", .list (m.tags.map .str)),
    ("trigger", optional .str m.trigger)]
  (fields ++ m.extra).filter fun e => match e.2 with | .none => false | _ => true

structure ModelReducerInput where
  data : List Value
  reductionType : EnumReductionType
  operationId : UUID
  streamingMode : EnumStreamingMode
  metadata : ModelReducerMetadata

/-! ## Output -/

structure ModelReducerFsmMetadata where
  fsmState : String
  fsmPreviousState : Option String
  fsmTransitionSuccess : Bool
  fsmTransitionName : Option String
  failureReason : Option String
  failedConditions : Option (List String)
  error : Option String

def ModelReducerFsmMetadata.toDict (m : ModelReducerFsmMetadata) : Context := [
  ("fsm_state", .str m.fsmState), ("fsm_previous_state", optional .str m.fsmPreviousState),
  ("fsm_transition_success", .bool m.fsmTransitionSuccess),
  ("fsm_transition_name", optional .str m.fsmTransitionName),
  ("failure_reason", optional .str m.failureReason),
  ("failed_conditions", optional (fun names => .list (names.map .str)) m.failedConditions),
  ("error", optional .str m.error)]

/-- `model_copy(update=...)` with keys that are not declared fields. -/
def ModelReducerMetadata.withExtra (m : ModelReducerMetadata) (update : Context) :
    ModelReducerMetadata :=
  { m with extra := update.foldl (fun extra e => extra.set e.1 e.2) m.extra }

structure ModelReducerOutput where
  result : List Value
  operationId : UUID
  reductionType : EnumReductionType
  itemsProcessed : ℤ
  conflictsResolved : ℤ
  streamingMode : EnumStreamingMode
  batchesProcessed : ℤ
  intents : List ModelIntent
  metadata : ModelReducerMetadata
  fsmMetadata : ModelReducerFsmMetadata

/-! ## State -/

structure ModelFSMStateSnapshot where
  currentState : String
  context : Context
  history : List String

/-- The attributes of a `NodeReducer`. -/
structure NodeReducer where
  fsmContract : Option ModelFSMSubcontract
  fsmState : Option ModelFSMStateSnapshot

/-- `NodeReducer.__init__`, given the state machine of the node contract, if it has one. -/
def NodeReducer.init (stateMachine : Option ModelFSMSubcontract) : NodeReducer :=
  { fsmContract := stateMachine
    fsmState := stateMachine.map fun fsm =>
      { currentState := fsm.initialState, context := [], history := [] } }

def NodeReducer.snapshotState (node : NodeReducer) : Option ModelFSMStateSnapshot := node.fsmState

/-- `_ERR_FSM_CONTRACT_NOT_LOADED`. -/
def contractNotLoaded : PyException :=
  .modelOnexError {
    errorCode := .validationError, message := "FSM contract not loaded", context := [] }

/-!
## Processing an input

`NodeReducer.process` and what it calls. A call returns the node as it leaves it together with
the output or the exception, so that an exception after the state has been written is seen.
-/

/-! ## The execution context -/

def fsmReservedContextPrefix : String := "_fsm_"

def isReserved (key : String) : Bool := fsmReservedContextPrefix.toList <+: key.toList

def buildFsmContext (i : Interpreter) (input : ModelReducerInput) :
    Except PyException (Context × List ModelIntent) :=
  let metadataDict := input.metadata.modelDump
  let reservedKeys := (metadataDict.keys.filter isReserved).insertionSort (· ≤ ·)
  let mergeableMetadata := metadataDict.filter fun e => ¬ isReserved e.1
  let systemContext : Context := [
    ("input_data", .list input.data), ("reduction_type", .str input.reductionType.value),
    ("operation_id", .str input.operationId.str)]
  let context := mergeableMetadata.foldl (fun context e => context.set e.1 e.2) systemContext
  if reservedKeys = [] then .ok (context, [])
  else do
    let payload ← modelPayloadLogEvent i "WARNING"
      ("Ignoring reserved FSM context keys supplied in reducer metadata: " ++
        i.reprStrs reservedKeys ++ ". Keys prefixed '" ++ fsmReservedContextPrefix ++
        "' are reserved for system use and are not merged into the FSM context.")
      [("operation_id", .str input.operationId.str),
        ("reserved_keys", .list (reservedKeys.map .str)),
        ("reserved_prefix", .str fsmReservedContextPrefix)]
    return (context,
      [{ intentType := "log_event", target := "logging_service", payload, priority := 3 }])

def triggerOf (input : ModelReducerInput) : String :=
  match input.metadata.trigger with
  | some trigger => if trigger = "" then "process" else trigger
  | none => "process"

/-! ## The transition -/

def NodeReducer.executeFsmTransition (i : Interpreter) (node : NodeReducer)
    (fsmContract : ModelFSMSubcontract) (trigger : String) (context : Context) :
    NodeReducer × Except PyException ModelFSMTransitionResult :=
  let currentState := match node.fsmState with
    | some s => s.currentState
    | none => fsmContract.initialState
  match executeTransition i fsmContract currentState trigger context with
  | .error e => (node, .error e)
  | .ok result =>
    if ¬ result.success then (node, .ok result)
    else
      let previousHistory := match node.fsmState with
        | some s => s.history
        | none => []
      match context.deepcopy i with
      | .error e => (node, .error e)
      | .ok copied =>
        let fsmState := {
          currentState := result.newState
          context := copied
          history := previousHistory ++ [result.oldState] }
        ({ node with fsmState := some fsmState }, .ok result)

/-! ## The output -/

def fsmMetadataRequiredKeys : List String := [
  "fsm_state", "fsm_previous_state", "fsm_transition_success", "fsm_transition_name",
  "failure_reason", "failed_conditions", "error"]

/-- `_validate_fsm_metadata_keys`. No declared field has the name of a required key. -/
def validateFsmMetadataKeys (i : Interpreter) (metadata : ModelReducerMetadata) :
    Except PyException Unit :=
  let missing := fsmMetadataRequiredKeys.filter fun key => key ∉ metadata.extra.keys
  if missing ≠ [] then
    .error (.modelOnexError {
      errorCode := .contractValidationError
      message := "Reducer output metadata is missing required FSM contract keys: " ++
        i.reprStrs (missing.insertionSort (· ≤ ·)) ++ ". All 7 keys of the v1.0.4 metadata " ++
        "contract must be present (values may be None). See ModelReducerFsmMetadata for the " ++
        "canonical schema."
      context := [] })
  else .ok ()

def buildProjectionIntents (i : Interpreter) (projectionIntents : List ModelProjectionIntent) :
    Except PyException (List ModelIntent) :=
  projectionIntents.mapM fun pi => do
    checkLengths i "ModelIntent" [("target", pi.projectorKey, 200)]
    return {
      intentType := "projection_intent", target := pi.projectorKey
      payload := .projectionIntent pi, priority := 1 }

def fsmMetadataOf (fsmResult : ModelFSMTransitionResult) : ModelReducerFsmMetadata :=
  { fsmState := fsmResult.newState
    fsmPreviousState := some fsmResult.oldState
    fsmTransitionSuccess := fsmResult.success
    fsmTransitionName := fsmResult.transitionName
    failureReason :=
      if ¬ fsmResult.success ∧ fsmResult.failureType = some .guardRejection then fsmResult.error
      else none
    failedConditions := fsmResult.failedConditions
    error :=
      if ¬ fsmResult.success ∧ fsmResult.failureType = some .exception then fsmResult.error
      else none }

/-- The part of `process` after the transition. -/
def buildOutput (i : Interpreter) (input : ModelReducerInput)
    (projectionIntents : List ModelProjectionIntent) (reservedKeyWarnings : List ModelIntent)
    (fsmResult : ModelFSMTransitionResult) : Except PyException ModelReducerOutput := do
  let fsmMetadata := fsmMetadataOf fsmResult
  let outputMetadata := input.metadata.withExtra fsmMetadata.toDict
  validateFsmMetadataKeys i outputMetadata
  let projectionIntentModels ← buildProjectionIntents i projectionIntents
  return {
    result := input.data
    operationId := input.operationId
    reductionType := input.reductionType
    itemsProcessed := input.data.length
    conflictsResolved := 0
    streamingMode := input.streamingMode
    batchesProcessed := 1
    intents := reservedKeyWarnings ++ fsmResult.intents ++ projectionIntentModels
    metadata := outputMetadata
    fsmMetadata }

def NodeReducer.process (i : Interpreter) (node : NodeReducer) (input : ModelReducerInput)
    (projectionIntents : List ModelProjectionIntent) :
    NodeReducer × Except PyException ModelReducerOutput :=
  match node.fsmContract with
  | none => (node, .error contractNotLoaded)
  | some fsmContract =>
    match buildFsmContext i input with
    | .error e => (node, .error e)
    | .ok (context, reservedKeyWarnings) =>
      match node.executeFsmTransition i fsmContract (triggerOf input) context with
      | (node, .error e) => (node, .error e)
      | (node, .ok fsmResult) =>
        (node, buildOutput i input projectionIntents reservedKeyWarnings fsmResult)

/-!
## Theorems about processing

`call_cases` says once what a call can do: nothing, or commit the transition that is made.
In particular nothing is raised after the state has been written.
-/

theorem NodeReducer.process_eq {i : Interpreter} {node : NodeReducer} {fsm : ModelFSMSubcontract}
    {input : ModelReducerInput} {projectionIntents : List ModelProjectionIntent} {context : Context}
    {warnings : List ModelIntent} (hcontract : node.fsmContract = some fsm)
    (hbuild : buildFsmContext i input = .ok (context, warnings)) :
    node.process i input projectionIntents =
      match node.executeFsmTransition i fsm (triggerOf input) context with
      | (node, .error e) => (node, .error e)
      | (node, .ok r) => (node, buildOutput i input projectionIntents warnings r) := by
  unfold NodeReducer.process
  rw [hcontract, hbuild]

/-! ## Runs -/

/-- A call of `process` at a time. -/
structure Call where
  input : ModelReducerInput
  projectionIntents : List ModelProjectionIntent
  now : ℤ

/-- What a call returns. -/
abbrev Outcome := Except PyException ModelReducerOutput

def NodeReducer.call (i : Interpreter) (node : NodeReducer) (c : Call) : NodeReducer × Outcome :=
  node.process i c.input c.projectionIntents

def NodeReducer.run (i : Interpreter) (node : NodeReducer) : List Call → NodeReducer × List Outcome
  | [] => (node, [])
  | c :: rest =>
    let (node, outcome) := node.call i c
    let (node, outcomes) := node.run i rest
    (node, outcome :: outcomes)

/-- The call neither raised nor reported failure. -/
def succeeded : Outcome → Bool
  | .ok output => output.fsmMetadata.fsmTransitionSuccess
  | .error _ => false

/-- The state that a successful call left. -/
def oldState : Outcome → Option String
  | .ok output =>
    if output.fsmMetadata.fsmTransitionSuccess then output.fsmMetadata.fsmPreviousState else none
  | .error _ => none

section
variable {i : Interpreter} {node : NodeReducer}

/-! ## The output -/

theorem mem_keys_set (context : Context) (key key' : String) (value : Value) :
    key' ∈ (context.set key value).keys ↔ key' = key ∨ key' ∈ context.keys := by
  unfold Context.set
  by_cases hkey : key ∈ context.keys
  · rw [if_pos hkey]
    have hkeys : Context.keys (context.map fun e => if e.1 = key then (key, value) else e)
        = context.keys := by
      unfold Context.keys
      rw [List.map_map]
      apply List.map_congr_left
      intro e _
      show Prod.fst (if e.1 = key then (key, value) else e) = e.1
      by_cases he : e.1 = key
      · rw [if_pos he, he]
      · rw [if_neg he]
    rw [hkeys]
    exact ⟨Or.inr, fun h => h.elim (fun h => h ▸ hkey) id⟩
  · rw [if_neg hkey]
    unfold Context.keys
    rw [List.map_append, List.mem_append]
    simp [or_comm]

theorem mem_keys_foldl_set (update context : Context) (key : String) :
    key ∈ Context.keys (update.foldl (fun c e => c.set e.1 e.2) context) ↔
      key ∈ context.keys ∨ key ∈ update.keys := by
  induction update generalizing context with
  | nil => simp [Context.keys]
  | cons e update ih =>
    rw [List.foldl_cons, ih, mem_keys_set]
    unfold Context.keys
    rw [List.map_cons, List.mem_cons]
    tauto

theorem mem_keys_withExtra (metadata : ModelReducerMetadata) (update : Context) (key : String) :
    key ∈ (metadata.withExtra update).extra.keys ↔
      key ∈ metadata.extra.keys ∨ key ∈ update.keys :=
  mem_keys_foldl_set update metadata.extra key

theorem keys_toDict (fsmMetadata : ModelReducerFsmMetadata) :
    fsmMetadata.toDict.keys = fsmMetadataRequiredKeys := rfl

theorem validateFsmMetadataKeys_ok (metadata : ModelReducerMetadata)
    (fsmMetadata : ModelReducerFsmMetadata) :
    validateFsmMetadataKeys i (metadata.withExtra fsmMetadata.toDict) = .ok () := by
  unfold validateFsmMetadataKeys
  dsimp only
  have hmissing : (fsmMetadataRequiredKeys.filter fun key =>
      key ∉ (metadata.withExtra fsmMetadata.toDict).extra.keys) = [] := by
    rw [List.filter_eq_nil_iff]
    intro key hkey
    rw [← keys_toDict fsmMetadata] at hkey
    rw [decide_eq_true_eq, not_not, mem_keys_withExtra]
    exact Or.inr hkey
  rw [hmissing, if_neg (not_not.mpr rfl)]

theorem buildProjectionIntents_ok (intents : List ModelProjectionIntent) :
    ∃ models, buildProjectionIntents i intents = .ok models ∧
      ∀ model ∈ models, model.intentType = "projection_intent" := by
  unfold buildProjectionIntents
  induction intents with
  | nil => exact ⟨[], rfl, by simp⟩
  | cons pi intents ih =>
    rcases ih with ⟨models, hmodels, htypes⟩
    have hcheck : checkLengths i "ModelIntent" [("target", pi.projectorKey, 200)] = .ok () := by
      have hlength := pi.projectorKey_length
      have hfits : ¬ (pi.projectorKey.length < 1 ∨ 200 < pi.projectorKey.length) := by omega
      unfold checkLengths
      dsimp only
      rw [List.filter_cons_of_neg (by simpa using hfits), List.filter_nil,
        if_neg (not_not.mpr rfl)]
    rw [List.mapM_cons, hcheck, hmodels]
    exact ⟨_, rfl, List.forall_mem_cons.mpr ⟨rfl, htypes⟩⟩

theorem buildOutput_ok (input : ModelReducerInput) (intents : List ModelProjectionIntent)
    (warnings : List ModelIntent) (r : ModelFSMTransitionResult) :
    ∃ output, buildOutput i input intents warnings r = .ok output ∧
      output.fsmMetadata = fsmMetadataOf r ∧
      ∃ models, output.intents = warnings ++ r.intents ++ models ∧
        ∀ model ∈ models, model.intentType = "projection_intent" := by
  rcases buildProjectionIntents_ok (i := i) intents with ⟨models, hmodels, htypes⟩
  unfold buildOutput
  dsimp only
  rw [validateFsmMetadataKeys_ok, hmodels]
  exact ⟨_, rfl, rfl, models, rfl, htypes⟩

/-! ## One call -/

def committed (s : ModelFSMStateSnapshot) (context : Context) (t : ModelFSMStateTransition) :
    ModelFSMStateSnapshot :=
  { currentState := t.toState, context, history := s.history ++ [s.currentState] }

/-- A call commits the transition `t`. -/
structure Commits (i : Interpreter) (fsm : ModelFSMSubcontract) (s : ModelFSMStateSnapshot)
    (input : ModelReducerInput) (context copied : Context) (t : ModelFSMStateTransition) :
    Prop where
  builds : ∃ warnings, buildFsmContext i input = .ok (context, warnings)
  makes : Makes i fsm s.currentState (triggerOf input) context t
  copies : context.deepcopy i = .ok copied

/-- A call keeps the state of the node, or commits one transition. -/
theorem call_cases {fsm : ModelFSMSubcontract} {s : ModelFSMStateSnapshot}
    (hcontract : node.fsmContract = some fsm) (hstate : node.fsmState = some s) (c : Call) :
    ((node.call i c).1 = node ∧ succeeded (node.call i c).2 = false ∧
      oldState (node.call i c).2 = none) ∨
    ∃ context copied t, Commits i fsm s c.input context copied t ∧
      (node.call i c).1 = { node with fsmState := some (committed s copied t) } ∧
      succeeded (node.call i c).2 = true ∧ oldState (node.call i c).2 = some s.currentState := by
  unfold NodeReducer.call NodeReducer.process
  rw [hcontract]
  dsimp only
  cases hbuild : buildFsmContext i c.input with
  | error e => exact Or.inl ⟨rfl, rfl, rfl⟩
  | ok built =>
    rcases built with ⟨context, warnings⟩
    dsimp only
    unfold NodeReducer.executeFsmTransition
    rw [hstate]
    dsimp only
    cases hexecute : executeTransition i fsm s.currentState (triggerOf c.input) context with
    | error e => exact Or.inl ⟨rfl, rfl, rfl⟩
    | ok r =>
      dsimp only
      rcases buildOutput_ok (i := i) c.input c.projectionIntents warnings r with
        ⟨output, houtput, hmetadata, -⟩
      rcases executeTransition_cases hexecute with hkeeps | ⟨t, intents, hmakes, rfl⟩
      · rw [if_pos (by rw [hkeeps.1]; decide)]
        dsimp only
        rw [houtput]
        have hsuccess : output.fsmMetadata.fsmTransitionSuccess = false := by
          rw [hmetadata]
          exact hkeeps.1
        refine Or.inl ⟨rfl, hsuccess, ?_⟩
        rw [oldState, hsuccess]
        rfl
      · have hsuccess : ¬ ¬ (transitionSuccess s.currentState t intents).success = true :=
          not_not.mpr rfl
        rw [if_neg hsuccess]
        cases hcopy : context.deepcopy i with
        | error e => exact Or.inl ⟨rfl, rfl, rfl⟩
        | ok copied =>
          dsimp only
          rw [houtput]
          refine Or.inr ⟨context, copied, t, ⟨⟨warnings, hbuild⟩, hmakes, hcopy⟩, ?_, ?_, ?_⟩
          · rw [hcontract]
            rfl
          · rw [succeeded, hmetadata]
            rfl
          · rw [oldState, hmetadata]
            rfl

end

end OmnibaseCore.Reducer
