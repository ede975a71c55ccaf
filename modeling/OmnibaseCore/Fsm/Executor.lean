import OmnibaseCore.Fsm.Condition
import OmnibaseCore.Python.Sorted

/-!
# Intents

`ModelIntent` and the payloads that the executor and the reducer put into one. A payload checks
the lengths of its texts when it is constructed.
-/

namespace OmnibaseCore.Fsm

/-- The action type of `ModelPayloadFSMStateAction`. -/
inductive StateActionType
  | onEnter
  | onExit

/-- `ModelProjectionIntent`, with the bounds of its fields. -/
structure ModelProjectionIntent where
  projectorKey : String
  eventType : String
  envelope : Value
  correlationId : UUID
  projectorKey_length : 1 ≤ projectorKey.length ∧ projectorKey.length ≤ 100
  eventType_length : 1 ≤ eventType.length ∧ eventType.length ≤ 100

/-- The payloads that state machines and reducers emit. -/
inductive Payload
  | logEvent (level message : String) (context : Context)
  | fsmStateAction (stateName : String) (actionType : StateActionType) (actionName : String)
    (parameters : Context) (correlationId : UUID)
  | fsmTransitionAction (fromState toState trigger actionName : String) (parameters : Context)
    (correlationId : UUID)
  | persistState (stateKey : String) (stateData : Context) (correlationId : UUID)
  | metric (name : String) (value : ℚ) (metricType : String) (labels : List (String × String))
  | projectionIntent (intent : ModelProjectionIntent)

structure ModelIntent where
  intentType : String
  target : String
  payload : Payload
  priority : ℤ

/-- The check of the length bounds of a model. A field comes with its value and its greatest
length; the least length is one. -/
def checkLengths (i : Interpreter) (model : String) (fields : List (String × String × ℕ)) :
    Except PyException Unit :=
  let faults := fields.filter fun f => f.2.1.length < 1 ∨ f.2.2 < f.2.1.length
  if faults ≠ [] then .error (.validationError (i.validationText model (faults.map Prod.fst)))
  else .ok ()

def modelPayloadLogEvent (i : Interpreter) (level message : String) (context : Context) :
    Except PyException Payload := do
  checkLengths i "ModelPayloadLogEvent" [("message", message, 4096)]
  return .logEvent level message context

def modelPayloadFSMStateAction (i : Interpreter) (stateName : String)
    (actionType : StateActionType) (actionName : String) (parameters : Context)
    (correlationId : UUID) : Except PyException Payload := do
  checkLengths i "ModelPayloadFSMStateAction"
    [("state_name", stateName, 128), ("action_name", actionName, 128)]
  return .fsmStateAction stateName actionType actionName parameters correlationId

def modelPayloadFSMTransitionAction (i : Interpreter)
    (fromState toState trigger actionName : String) (parameters : Context)
    (correlationId : UUID) : Except PyException Payload := do
  checkLengths i "ModelPayloadFSMTransitionAction"
    [("from_state", fromState, 128), ("to_state", toState, 128), ("trigger", trigger, 128),
      ("action_name", actionName, 128)]
  return .fsmTransitionAction fromState toState trigger actionName parameters correlationId

def modelPayloadPersistState (i : Interpreter) (stateKey : String) (stateData : Context)
    (correlationId : UUID) : Except PyException Payload := do
  checkLengths i "ModelPayloadPersistState" [("state_key", stateKey, 512)]
  return .persistState stateKey stateData correlationId

/-!
## Executing a transition

`execute_transition` and what it calls. Identifiers of intents and timestamps are left out.
-/

/-! ## Selecting a transition -/

def getStateDefinition (fsm : ModelFSMSubcontract) (stateName : String) :
    Option ModelFSMStateDefinition :=
  fsm.states.find? fun s => s.stateName = stateName

structure TransitionSelection where
  transition : ModelFSMStateTransition
  guardPassed : Bool
  failedConditions : List String
deriving DecidableEq

/-- The loop over the conditions of a transition. -/
def failedConditions (i : Interpreter) (context : Context) :
    List ModelFSMTransitionCondition → Except PyException (List String)
  | [] => .ok []
  | condition :: rest =>
    if ¬ condition.required then failedConditions i context rest
    else do
      let conditionMet ← evaluateSingleCondition i condition context
      let failed ← failedConditions i context rest
      return if conditionMet then failed else condition.conditionName :: failed

def evaluateFailedConditions (i : Interpreter) (transition : ModelFSMStateTransition)
    (context : Context) : Except PyException (List String) :=
  failedConditions i context transition.conditions

/-- The transitions among which `_select_transition` chooses. -/
def candidates (fsm : ModelFSMSubcontract) (fromState trigger : String) :
    List ModelFSMStateTransition :=
  let exactCandidates := fsm.transitions.filter fun t =>
    t.fromState = fromState ∧ t.trigger = trigger
  if exactCandidates ≠ [] then exactCandidates
  else fsm.transitions.filter fun t => t.fromState = "*" ∧ t.trigger = trigger

/-- The loop over the ordered candidates. -/
def selectLoop (i : Interpreter) (context : Context) :
    Option TransitionSelection → List ModelFSMStateTransition →
      Except PyException (Option TransitionSelection)
  | firstRejection, [] => .ok firstRejection
  | firstRejection, transition :: rest => do
    let failed ← evaluateFailedConditions i transition context
    if failed = [] then return some ⟨transition, true, []⟩
    else
      match firstRejection with
      | none => selectLoop i context (some ⟨transition, false, failed⟩) rest
      | some first => selectLoop i context (some first) rest

def selectTransition (i : Interpreter) (fsm : ModelFSMSubcontract) (fromState trigger : String)
    (context : Context) : Except PyException (Option TransitionSelection) :=
  let candidates := candidates fsm fromState trigger
  if candidates = [] then .ok none
  else selectLoop i context none (sortedDesc ModelFSMStateTransition.priority candidates)

/-! ## Executing the actions -/

def executeStateActions (i : Interpreter) (fsm : ModelFSMSubcontract)
    (state : ModelFSMStateDefinition) (actionType : StateActionType) (context : Context) :
    Except PyException (List ModelIntent) :=
  let actions := match actionType with
    | .onEnter => state.entryActions
    | .onExit => state.exitActions
  actions.mapM fun actionName => do
    let payload ← modelPayloadFSMStateAction i state.stateName actionType actionName
      [("fsm", .str fsm.stateMachineName), ("context", context.toValue)] fsm.correlationId
    return { intentType := "fsm_state_action", target := "action_executor", payload, priority := 2 }

def executeTransitionActions (i : Interpreter) (transition : ModelFSMStateTransition)
    (context : Context) (correlationId : UUID) : Except PyException (List ModelIntent) :=
  transition.actions.mapM fun action => do
    let payload ← modelPayloadFSMTransitionAction i transition.fromState transition.toState
      transition.trigger action.actionName
      [("action_type", .str action.actionType),
        ("transition_name", .str transition.transitionName), ("context", context.toValue),
        ("is_critical", .bool action.isCritical),
        ("timeout_ms", match action.timeoutMs with | some ms => .int ms | none => .none)]
      correlationId
    return {
      intentType := "fsm_transition_action", target := "action_executor", payload, priority := 2 }

/-- The body of the `try` block: the intents that have been emitted when it ends, and the
exception that ended it. -/
def executeActions (i : Interpreter) (fsm : ModelFSMSubcontract)
    (stateDef : ModelFSMStateDefinition) (transition : ModelFSMStateTransition)
    (context : Context) : List ModelIntent × Option PyException :=
  match executeStateActions i fsm stateDef .onExit context with
  | .error e => ([], some e)
  | .ok exitIntents =>
    match executeTransitionActions i transition context fsm.correlationId with
    | .error e => (exitIntents, some e)
    | .ok transitionIntents =>
      let intents := exitIntents ++ transitionIntents
      match getStateDefinition fsm transition.toState with
      | none => (intents, some (.modelOnexError {
          errorCode := .validationError
          message := "Invalid target state: " ++ transition.toState
          context := [("fsm", .str fsm.stateMachineName), ("state", .str transition.toState)] }))
      | some targetStateDef =>
        match executeStateActions i fsm targetStateDef .onEnter context with
        | .error e => (intents, some e)
        | .ok entryIntents => (intents ++ entryIntents, none)

/-! ## The transition -/

/-- `failure_type` of `ModelFSMTransitionResult`. -/
inductive FailureType
  | guardRejection
  | exception
deriving DecidableEq

structure ModelFSMTransitionResult where
  success : Bool
  newState : String
  oldState : String
  transitionName : Option String
  intents : List ModelIntent
  metadata : List (String × ℤ)
  error : Option String
  failureType : Option FailureType
  failedConditions : Option (List String)

/-- The result when no candidate is eligible. -/
def guardRejection (i : Interpreter) (fsm : ModelFSMSubcontract) (currentState : String)
    (selection : TransitionSelection) : Except PyException ModelFSMTransitionResult := do
  let transition := selection.transition
  let payload ← modelPayloadLogEvent i "WARNING"
    ("FSM transition conditions not met: " ++ transition.transitionName)
    [("fsm", .str fsm.stateMachineName), ("from_state", .str currentState),
      ("to_state", .str transition.toState)]
  return {
    success := false
    newState := currentState
    oldState := currentState
    transitionName := some transition.transitionName
    intents := [{ intentType := "log_event", target := "logging_service", payload, priority := 3 }]
    metadata := []
    error := some "Transition conditions not met"
    failureType := some .guardRejection
    failedConditions := some selection.failedConditions }

def actionFailure (currentState : String) (transition : ModelFSMStateTransition)
    (intents : List ModelIntent) (e : PyException) : ModelFSMTransitionResult :=
  { success := false
    newState := currentState
    oldState := currentState
    transitionName := some transition.transitionName
    intents
    metadata := []
    error := some e.str
    failureType := some .exception
    failedConditions := none }

def persistenceIntents (i : Interpreter) (fsm : ModelFSMSubcontract) (currentState : String)
    (transition : ModelFSMStateTransition) (context : Context) :
    Except PyException (List ModelIntent) :=
  if fsm.persistenceEnabled then do
    let payload ← modelPayloadPersistState i ("fsm:" ++ fsm.stateMachineName ++ ":state")
      [("fsm_name", .str fsm.stateMachineName), ("state", .str transition.toState),
        ("previous_state", .str currentState), ("context", context.toValue)]
      fsm.correlationId
    return [{ intentType := "persist_state", target := "state_persistence", payload, priority := 1 }]
  else
    .ok []

def metricIntent (fsm : ModelFSMSubcontract) (currentState trigger : String)
    (transition : ModelFSMStateTransition) : ModelIntent :=
  { intentType := "record_metric"
    target := "metrics_service"
    payload := .metric "fsm.transition" 1 "counter"
      [("fsm", fsm.stateMachineName), ("from_state", currentState),
        ("to_state", transition.toState), ("trigger", trigger)]
    priority := 3 }

def transitionSuccess (currentState : String) (transition : ModelFSMStateTransition)
    (intents : List ModelIntent) : ModelFSMTransitionResult :=
  { success := true
    newState := transition.toState
    oldState := currentState
    transitionName := some transition.transitionName
    intents
    -- the model sorts its metadata by key
    metadata := [("actions_executed", transition.actions.length),
      ("conditions_evaluated", transition.conditions.length)]
    error := none
    failureType := none
    failedConditions := none }

def executeTransition (i : Interpreter) (fsm : ModelFSMSubcontract)
    (currentState trigger : String) (context : Context) :
    Except PyException ModelFSMTransitionResult :=
  match getStateDefinition fsm currentState with
  | none => .error (.modelOnexError {
      errorCode := .validationError
      message := "Invalid current state: " ++ currentState
      context := [("fsm", .str fsm.stateMachineName), ("state", .str currentState)] })
  | some stateDef => do
    match ← selectTransition i fsm currentState trigger context with
    | none => .error (.modelOnexError {
        errorCode := .validationError
        message := "No transition for trigger '" ++ trigger ++ "' from state '" ++ currentState ++
          "'"
        context := [("fsm", .str fsm.stateMachineName), ("state", .str currentState),
          ("trigger", .str trigger)] })
    | some selection =>
      if ¬ selection.guardPassed then guardRejection i fsm currentState selection
      else
        let transition := selection.transition
        match executeActions i fsm stateDef transition context with
        | (intents, some e) =>
          match e with
          | .modelOnexError _ => return actionFailure currentState transition intents e
          | _ =>
            if e.isValidationError then return actionFailure currentState transition intents e
            else .error e
        | (intents, none) => do
          let persistence ← persistenceIntents i fsm currentState transition context
          return transitionSuccess currentState transition
            (intents ++ persistence ++ [metricIntent fsm currentState trigger transition])

end OmnibaseCore.Fsm
