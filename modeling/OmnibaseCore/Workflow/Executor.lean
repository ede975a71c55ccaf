import OmnibaseCore.Workflow.Graph

/-!
# The workflow executor

`validate_workflow_definition`, `_execute_sequential`, `_execute_parallel`, `_execute_batch`
and `execute_workflow`.

A run is determined by an `Execution`: how actions are created, the limits, and what the clock
shows at each of its readings. The workflow context that is built for a step is passed to an
object that nothing reads, so it is not part of the state; nor is logging.
-/

namespace OmnibaseCore.Workflow

structure Execution where
  env : ActionEnv
  limits : Limits
  definition : ModelWorkflowDefinition
  workflowId : UUID
  timeoutDeadline : ℚ
  /-- the readings of `time.perf_counter()` in the loops of the executor -/
  perfCounter : ℕ → ℚ

/-- `_create_action_for_step(step, workflow_id)`. -/
def Execution.createAction (x : Execution) (step : ModelWorkflowStep) :
    Except PyException (ModelAction × ℕ) :=
  createActionForStep x.env x.limits step x.workflowId none

/-- `time.perf_counter() > timeout_deadline`, at the given reading of the clock. -/
def Execution.timedOut (x : Execution) (reading : ℕ) : Bool :=
  x.perfCounter reading > x.timeoutDeadline

def dependenciesMet (step : ModelWorkflowStep) (completedStepIds : Finset UUID) : Bool :=
  step.dependsOn.all fun depId => depId ∈ completedStepIds

/-! ## Results -/

inductive EnumExecutionMode
  | sequential
  | parallel
  | conditional
  | batch
  | streaming

/-- `EnumWorkflowStatus`, the members a run ends with. -/
inductive EnumWorkflowStatus
  | completed
  | failed
deriving DecidableEq

structure ModelWorkflowResultMetadata where
  executionMode : String
  workflowName : String
  workflowHash : String
  batchSize : Option ℕ

structure ModelDeclarativeWorkflowResult where
  workflowId : UUID
  executionStatus : EnumWorkflowStatus
  completedSteps : List String
  failedSteps : List String
  skippedSteps : List String
  actionsEmitted : List ModelAction
  executionTimeMs : ℤ
  metadata : ModelWorkflowResultMetadata

/-- `COMPLETED if not failed_steps else FAILED`. -/
def statusOf (failedSteps : List String) : EnumWorkflowStatus :=
  if failedSteps = [] then .completed else .failed

/-! ## Sequential execution -/

/-- The variables of the loop of `_execute_sequential`. -/
structure SequentialState where
  completedSteps : List String
  failedSteps : List String
  skippedSteps : List String
  allActions : List ModelAction
  completedStepIds : Finset UUID
  totalPayloadSize : ℕ
  clockReads : ℕ

def SequentialState.init : SequentialState where
  completedSteps := []
  failedSteps := []
  skippedSteps := []
  allActions := []
  completedStepIds := ∅
  totalPayloadSize := 0
  clockReads := 0

/-- `failed_steps.append(str(step.step_id))`. -/
def SequentialState.fail (st : SequentialState) (step : ModelWorkflowStep) : SequentialState :=
  { st with failedSteps := st.failedSteps ++ [step.stepId.str] }

def SequentialState.skip (st : SequentialState) (step : ModelWorkflowStep) : SequentialState :=
  { st with
    skippedSteps := st.skippedSteps ++ [step.stepId.str]
    completedStepIds := insert step.stepId st.completedStepIds }

def SequentialState.complete (st : SequentialState) (step : ModelWorkflowStep) :
    SequentialState :=
  { st with
    completedSteps := st.completedSteps ++ [step.stepId.str]
    completedStepIds := insert step.stepId st.completedStepIds }

/-- `all_actions.append(action); total_payload_size += action_payload_size`. -/
def SequentialState.emit (st : SequentialState) (action : ModelAction) (size : ℕ) :
    SequentialState :=
  { st with
    allActions := st.allActions ++ [action]
    totalPayloadSize := st.totalPayloadSize + size }

/-- The body of the loop of `_execute_sequential`, and whether it ends in `break`. The two
exception handlers differ only in what they log. -/
def sequentialBody (x : Execution) (step : ModelWorkflowStep) (st₀ : SequentialState) :
    SequentialState × Bool :=
  let st := { st₀ with clockReads := st₀.clockReads + 1 }
  if x.timedOut st₀.clockReads then
    (st.fail step, false)
  else if ¬ step.enabled then
    (st.skip step, false)
  else if ¬ dependenciesMet step st.completedStepIds then
    (st.fail step, false)
  else if step.skipOnFailure ∧ st.failedSteps ≠ [] then
    (st.skip step, false)
  else
    match x.createAction step with
    | .error _ => (st.fail step, step.errorAction = .stop)
    | .ok (action, actionPayloadSize) =>
      let st := st.emit action actionPayloadSize
      -- the action has been emitted before its payload is counted against the limit
      if st.totalPayloadSize > x.limits.maxTotalPayloadSizeBytes then
        (st.fail step, step.errorAction = .stop)
      else
        (st.complete step, false)

/-- `{step.step_id: step for step in workflow_steps}`. -/
def stepsById (steps : List ModelWorkflowStep) : UUID → Option ModelWorkflowStep :=
  steps.foldl (fun byId step => Function.update byId step.stepId (some step)) fun _ => none

/-- The steps in the order in which the loop of `_execute_sequential` visits them; an id
without a step is passed over. -/
def executionOrder (σ : SetOrder UUID) (steps : List ModelWorkflowStep) :
    List ModelWorkflowStep :=
  (getTopologicalOrder σ steps).filterMap (stepsById steps)

/-- The variables of `_execute_sequential` when its loop has ended. -/
def sequentialRun (x : Execution) (σ : SetOrder UUID) (steps : List ModelWorkflowStep) :
    SequentialState :=
  forBreak (sequentialBody x) (executionOrder σ steps) .init

def executeSequential (x : Execution) (σ : SetOrder UUID) (steps : List ModelWorkflowStep) :
    ModelDeclarativeWorkflowResult :=
  let st := sequentialRun x σ steps
  { workflowId := x.workflowId
    executionStatus := statusOf st.failedSteps
    completedSteps := st.completedSteps
    failedSteps := st.failedSteps
    skippedSteps := st.skippedSteps
    actionsEmitted := st.allActions
    executionTimeMs := 0
    metadata := {
      executionMode := "sequential"
      workflowName := x.definition.workflowMetadata.workflowName
      workflowHash := ""
      batchSize := none } }

def executeBatch (x : Execution) (σ : SetOrder UUID) (steps : List ModelWorkflowStep) :
    ModelDeclarativeWorkflowResult :=
  let result := executeSequential x σ steps
  { result with metadata := { result.metadata with
      executionMode := "batch"
      batchSize := some steps.length } }

/-! ## Parallel execution -/

/-- The variables of the loop of `_execute_parallel`. -/
structure ParallelState where
  completedSteps : List String
  failedSteps : List String
  skippedSteps : List String
  allActions : List ModelAction
  completedStepIds : Finset UUID
  totalPayloadSize : ℕ
  shouldStop : Bool
  remainingSteps : List ModelWorkflowStep
  clockReads : ℕ

def ParallelState.skip (st : ParallelState) (step : ModelWorkflowStep) : ParallelState :=
  { st with
    skippedSteps := st.skippedSteps ++ [step.stepId.str]
    completedStepIds := insert step.stepId st.completedStepIds }

def ParallelState.failRemaining (st : ParallelState) : ParallelState :=
  st.remainingSteps.foldl (fun st' step =>
    { st' with failedSteps := st'.failedSteps ++ [step.stepId.str] }) st

def ParallelState.init (steps : List ModelWorkflowStep) : ParallelState :=
  steps.foldl (fun st step =>
    if step.enabled then
      { st with remainingSteps := st.remainingSteps ++ [step] }
    else
      st.skip step)
    { completedSteps := []
      failedSteps := []
      skippedSteps := []
      allActions := []
      completedStepIds := ∅
      totalPayloadSize := 0
      shouldStop := false
      remainingSteps := []
      clockReads := 0 }

def ParallelState.readySteps (st : ParallelState) : List ModelWorkflowStep :=
  st.remainingSteps.filter fun step =>
    dependenciesMet step st.completedStepIds && !(step.skipOnFailure && st.failedSteps ≠ [])

def ParallelState.skipOnFailureSteps (st : ParallelState) : List ModelWorkflowStep :=
  st.remainingSteps.filter fun step =>
    dependenciesMet step st.completedStepIds && (step.skipOnFailure && st.failedSteps ≠ [])

/-- The loop over `skip_on_failure_steps`. -/
def ParallelState.skipSteps (st : ParallelState) (skipOnFailureSteps : List ModelWorkflowStep) :
    ParallelState :=
  skipOnFailureSteps.foldl (fun st step =>
    { st.skip step with remainingSteps := st.remainingSteps.erase step }) st

/-- The error of `_execute_parallel` when the payloads exceed their limit. -/
def totalPayloadExceeded (x : Execution) (totalPayloadSize : ℕ) : PyException :=
  .modelOnexError {
    errorCode := .workflowTotalPayloadExceeded
    message := "Workflow total payload exceeds limit: " ++ toString totalPayloadSize ++
      " bytes > " ++ toString x.limits.maxTotalPayloadSizeBytes ++ " byte limit"
    context := [("workflow_id", .str x.workflowId.str), ("total_size", .int totalPayloadSize),
      ("limit", .int x.limits.maxTotalPayloadSizeBytes)] }

/-- The loop over the results of a wave. Once a stop has been triggered in the wave, the
remaining results are ignored. -/
def processResults (x : Execution) :
    List (ModelWorkflowStep × Except PyException (ModelAction × ℕ)) → Bool → ParallelState →
      Except PyException ParallelState
  | [], _, st => .ok st
  | (step, result) :: rest, waveStopTriggered, st =>
    if waveStopTriggered then
      processResults x rest waveStopTriggered st
    else
      match result with
      | .ok (action, actionPayloadSize) =>
        let totalPayloadSize := st.totalPayloadSize + actionPayloadSize
        if totalPayloadSize > x.limits.maxTotalPayloadSizeBytes then
          .error (totalPayloadExceeded x totalPayloadSize)
        else
          processResults x rest waveStopTriggered { st with
            totalPayloadSize := totalPayloadSize
            allActions := st.allActions ++ [action]
            completedSteps := st.completedSteps ++ [step.stepId.str]
            completedStepIds := insert step.stepId st.completedStepIds }
      | .error _ =>
        let st := { st with failedSteps := st.failedSteps ++ [step.stepId.str] }
        if step.errorAction = .stop then
          processResults x rest true { st with shouldStop := true }
        else
          processResults x rest waveStopTriggered st

/-- The body of the loop of `_execute_parallel`, and whether it ends in `break`. -/
def parallelWave (x : Execution) (st₀ : ParallelState) :
    Except PyException (ParallelState × Bool) :=
  let st := { st₀ with clockReads := st₀.clockReads + 1 }
  if x.timedOut st₀.clockReads then
    .ok (st.failRemaining, true)
  else
    let readySteps := st.readySteps
    let st := st.skipSteps st.skipOnFailureSteps
    if readySteps = [] then
      .ok (st.failRemaining, true)
    else
      match processResults x (readySteps.map fun step => (step, x.createAction step)) false st with
      | .error e => .error e
      | .ok st =>
        .ok ({ st with
          remainingSteps := st.remainingSteps.filter fun s => s ∉ readySteps }, false)

/-- The loop of `_execute_parallel`. Each turn that does not end in `break` removes a step, so
one turn more than there are steps is enough (`parallelLoop_rule`). -/
def parallelLoop (x : Execution) : ℕ → ParallelState → Except PyException ParallelState
  | 0, st => .ok st
  | fuel + 1, st =>
    if st.remainingSteps ≠ [] ∧ ¬ st.shouldStop then
      match parallelWave x st with
      | .error e => .error e
      | .ok (st, true) => .ok st
      | .ok (st, false) => parallelLoop x fuel st
    else
      .ok st

/-- The variables of `_execute_parallel` when its loop has ended. -/
def parallelRun (x : Execution) (steps : List ModelWorkflowStep) :
    Except PyException ParallelState :=
  parallelLoop x (steps.length + 1) (.init steps)

def executeParallel (x : Execution) (steps : List ModelWorkflowStep) :
    Except PyException ModelDeclarativeWorkflowResult :=
  match parallelRun x steps with
  | .error e => .error e
  | .ok st => .ok {
      workflowId := x.workflowId
      executionStatus := statusOf st.failedSteps
      completedSteps := st.completedSteps
      failedSteps := st.failedSteps
      skippedSteps := st.skippedSteps
      actionsEmitted := st.allActions
      executionTimeMs := 0
      metadata := {
        executionMode := "parallel"
        workflowName := x.definition.workflowMetadata.workflowName
        workflowHash := ""
        batchSize := none } }

/-- The dispatch of `execute_workflow` on the execution mode. -/
def executeMode (x : Execution) (σ : SetOrder UUID) (steps : List ModelWorkflowStep) :
    EnumExecutionMode → Except PyException ModelDeclarativeWorkflowResult
  | .sequential => .ok (executeSequential x σ steps)
  | .parallel => executeParallel x steps
  | .batch => .ok (executeBatch x σ steps)
  | _ => .ok (executeSequential x σ steps)

end OmnibaseCore.Workflow
