import OmnibaseCore.Effect.CircuitBreaker
import OmnibaseCore.Effect.Template

/-!
# The effect node

`NodeEffect.process`, which hands the operation of the contract to `execute_effect`, and the loop
of `_execute_with_retry`. What the loop meets outside of the node, clocks and handlers, is a
`Schedule`; what it does there is a list of events.
-/

namespace OmnibaseCore.Effect

/-! ## Handlers -/

/-- What comes of the lookup of a handler and the call of its `execute`. -/
inductive HandlerOutcome
  /-- `get_service` raises -/
  | unregistered (e : PyException)
  /-- The service has no method `execute` -/
  | withoutExecute (cls : String)
  | raised (e : PyException)
  | returned (result : Value)

/-- `execute` has been called. -/
def HandlerOutcome.isExecution : HandlerOutcome → Bool
  | .unregistered _ | .withoutExecute _ => false
  | .raised _ | .returned _ => true

/-- `f"ProtocolEffectHandler_{handler_type.value.upper()}"` -/
def handlerProtocol : EnumEffectHandlerType → String
  | .http => "ProtocolEffectHandler_HTTP"
  | .db => "ProtocolEffectHandler_DB"
  | .kafka => "ProtocolEffectHandler_KAFKA"
  | .filesystem => "ProtocolEffectHandler_FILESYSTEM"

/-- The exceptions of `get_service` that mean that a handler is not registered. -/
def isResolveError : PyException → Bool
  | .valueError _ | .validationError _ => true
  | .other cls _ => cls ∈ ["AttributeError", "KeyError", "LookupError", "RuntimeError"]
  | _ => false

/-- `_execute_operation`, given what comes of the handler. -/
def executeOperation (env : EffectEnvironment) (handlerType : EnumEffectHandlerType)
    (input : ModelEffectInput) : HandlerOutcome → Except PyException Value
  | .unregistered e =>
    if isResolveError e then
      .error (.modelOnexError {
        errorCode := .handlerExecutionError
        message := "Effect handler not registered: " ++ handlerProtocol handlerType ++
          ". Handler protocols are an extensibility point - implementing applications must " ++
          "register handlers via container.register_service('" ++ handlerProtocol handlerType ++
          "', handler_instance). See MixinEffectExecution._execute_operation docstring for details."
        context := [("operation_id", .str input.operationId.str),
          ("handler_type", .str handlerType.value),
          ("handler_protocol", .str (handlerProtocol handlerType)),
          ("resolution_error", .str e.str)] })
    else .error e
  | .withoutExecute cls =>
    .error (.modelOnexError {
      errorCode := .unsupportedOperation
      message := "Effect handler " ++ handlerProtocol handlerType ++
        " does not implement execute method. Handler implementations must provide " ++
        "async execute(context: ResolvedIOContext) -> object."
      context := [("operation_id", .str input.operationId.str),
        ("handler_type", .str handlerType.value),
        ("handler_protocol", .str (handlerProtocol handlerType)),
        ("handler_class", .str cls)] })
  | .raised (.modelOnexError e) => .error (.modelOnexError e)
  | .raised e =>
    .error (.modelOnexError {
      errorCode := .handlerExecutionError
      message := "Handler execution failed for " ++ handlerProtocol handlerType ++ ": " ++ e.str
      context := [("operation_id", .str input.operationId.str),
        ("handler_type", .str handlerType.value)] })
  | .returned .none => .ok (.dict [])
  | .returned result =>
    if isPlainValue result then .ok result else (env.interpreter.str result).map .str

/-! ## Circuit breakers -/

abbrev CircuitBreakers := UUID → Option ModelCircuitBreaker

def CircuitBreakers.breaker (breakers : CircuitBreakers) (operationId : UUID) :
    ModelCircuitBreaker :=
  (breakers operationId).getD ModelCircuitBreaker.createResilient

def checkCircuitBreaker (breakers : CircuitBreakers) (operationId : UUID) (now later : ℤ) :
    Bool × CircuitBreakers :=
  let checked := (breakers.breaker operationId).shouldAllowRequest now later
  (checked.1, Function.update breakers operationId (some checked.2))

def recordCircuitBreakerResult (breakers : CircuitBreakers) (operationId : UUID) (success : Bool)
    (now later : ℤ) : CircuitBreakers :=
  let breaker := breakers.breaker operationId
  let recorded :=
    if success then breaker.recordSuccess now later else breaker.recordFailure now later
  Function.update breakers operationId (some recorded)

/-! ## The retry loop -/

/-- What a turn of the loop meets: the reading of `time.time()` at its beginning, the readings of
the clock of the breaker, and the handler. -/
structure Turn where
  time : ℚ
  checkNow : ℤ
  checkLater : ℤ
  outcome : HandlerOutcome
  recordNow : ℤ
  recordLater : ℤ

/-- What the loop does outside of the node. -/
inductive RetryEvent
  | executed (outcome : HandlerOutcome)
  | recorded (success : Bool)
  | slept (delayMs : ℤ)

def RetryEvent.isExecution : RetryEvent → Bool
  | .executed _ => true
  | .recorded _ | .slept _ => false

/-- A run of the loop: what it does, the breakers that it leaves, and the result with the number
of attempts that have failed. -/
structure RetryRun where
  events : List RetryEvent
  breakers : CircuitBreakers
  result : Except PyException (Value × ℕ)

/-- How often `execute` is called. -/
def RetryRun.executions (run : RetryRun) : ℕ := run.events.countP RetryEvent.isExecution

/-- A number of milliseconds, `(now - start) * 1000`. -/
def elapsedMs (start now : ℚ) : ℚ := nearestFloat (nearestFloat (now - start) * 1000)

section
variable (env : EffectEnvironment) (handlerType : EnumEffectHandlerType)
  (input : ModelEffectInput) (operationTimeoutMs : ℤ) (formatMs : ℚ → String)

def checkAttempt (start : ℚ) (attempt : ℕ) (turn : Turn) (breakers : CircuitBreakers) :
    Except PyException Unit × CircuitBreakers :=
  if operationTimeoutMs ≤ elapsedMs start turn.time then
    (.error (.modelOnexError {
      errorCode := .timeoutExceeded
      message := "Operation timeout after " ++ formatMs (elapsedMs start turn.time) ++ "ms"
      context := [("operation_id", .str input.operationId.str),
        ("timeout_ms", .int operationTimeoutMs), ("attempts", .int attempt)] }), breakers)
  else if input.circuitBreakerEnabled then
    let checked := checkCircuitBreaker breakers input.operationId turn.checkNow turn.checkLater
    if checked.1 then (.ok (), checked.2)
    else
      (.error (.modelOnexError {
        errorCode := .resourceUnavailable
        message := "Circuit breaker is open"
        context := [("operation_id", .str input.operationId.str)] }), checked.2)
  else (.ok (), breakers)

def record (success : Bool) (turn : Turn) (breakers : CircuitBreakers) :
    List RetryEvent × CircuitBreakers :=
  if input.circuitBreakerEnabled then
    ([.recorded success], recordCircuitBreakerResult breakers input.operationId success
      turn.recordNow turn.recordLater)
  else ([], breakers)

/-- What is raised when there are no more retries. -/
def lastError (e : PyException) (retryCount attempt : ℕ) (maxRetries : ℤ) : PyException :=
  match e with
  | .modelOnexError e => .modelOnexError e
  | _ =>
    .modelOnexError {
      errorCode := .operationFailed
      message := "Operation failed after " ++ toString retryCount ++ " attempt(s) (" ++
        toString attempt ++ " retry/retries)"
      context := [("operation_id", .str input.operationId.str),
        ("failed_attempts", .int retryCount), ("retries_performed", .int attempt),
        ("max_retries", .int maxRetries)] }

def executedEvents (outcome : HandlerOutcome) : List RetryEvent :=
  if outcome.isExecution then [.executed outcome] else []

def retryLoop (start : ℚ) (turns : ℕ → Turn) (maxRetries : ℤ) :
    List ℕ → CircuitBreakers → ℕ → RetryRun
  | [], breakers, _ =>
    { events := []
      breakers := breakers
      result := .error (.modelOnexError {
        errorCode := .operationFailed
        message := "Operation failed"
        context := [] }) }
  | attempt :: rest, breakers, retryCount =>
    let turn := turns attempt
    match checkAttempt input operationTimeoutMs formatMs start attempt turn breakers with
    | (.error e, breakers) => { events := [], breakers := breakers, result := .error e }
    | (.ok (), breakers) =>
      match executeOperation env handlerType input turn.outcome with
      | .ok result =>
        let recorded := record input true turn breakers
        { events := executedEvents turn.outcome ++ recorded.1
          breakers := recorded.2
          result := .ok (result, retryCount) }
      | .error e =>
        let retryCount := retryCount + 1
        let recorded := record input false turn breakers
        let events := executedEvents turn.outcome ++ recorded.1
        if attempt < maxRetries && input.retryEnabled then
          let delayMs := input.retryDelayMs * 2 ^ attempt
          if floatOverflows delayMs then
            { events := events
              breakers := recorded.2
              result := .error (.overflowError "int too large to convert to float") }
          else
            let run := retryLoop start turns maxRetries rest recorded.2 retryCount
            { run with events := events ++ .slept delayMs :: run.events }
        else
          { events := events
            breakers := recorded.2
            result := .error (lastError input e retryCount attempt maxRetries) }

/-- `max_retries` of the loop. -/
def allowedRetries : ℤ := if input.retryEnabled then input.maxRetries else 0

def executeWithRetry (start : ℚ) (turns : ℕ → Turn) (breakers : CircuitBreakers) : RetryRun :=
  let maxRetries := allowedRetries input
  retryLoop env handlerType input operationTimeoutMs formatMs start turns maxRetries
    (List.range (maxRetries + 1).toNat) breakers 0

end

/-! ## Operations at run time -/

structure ModelEffectOperationConfig where
  ioConfig : EffectIOConfig
  operationName : String := "unknown"
  description : Option String := none
  operationTimeoutMs : Option ℤ := none
  retryPolicy : Option ModelEffectRetryPolicy := none
  circuitBreaker : Option ModelEffectCircuitBreaker := none
  transactionConfig : Option ModelEffectTransactionConfig := none

/-- `from_dict`, for a dictionary with the fields of the given operation. -/
def ModelEffectOperationConfig.fromDict (t : TextInterpreter)
    (config : ModelEffectOperationConfig) : Except PyException ModelEffectOperationConfig := do
  config.ioConfig.validate t
  match config.retryPolicy with
  | none => pure ()
  | some policy => policy.validate t
  checkFields t "ModelEffectOperationConfig"
    [("operation_name", 1 ≤ config.operationName.length &&
        config.operationName.length ≤ effectOperationNameMaxLength),
      ("description", config.description.all fun s =>
        s.length ≤ effectOperationDescriptionMaxLength),
      ("operation_timeout_ms", config.operationTimeoutMs.all fun ms => 1 ≤ ms)]
  return config

/-- `x or default` for an optional number. -/
def orDefault (x : Option ℤ) (default : ℤ) : ℤ :=
  match x with
  | none => default
  | some n => if n = 0 then default else n

/-- The dictionary that `process` makes of an operation. -/
def ModelEffectSubcontract.operationDict (subcontract : ModelEffectSubcontract)
    (op : ModelEffectOperation) : ModelEffectOperationConfig where
  ioConfig := op.ioConfig
  operationName := op.operationName
  description := op.description
  operationTimeoutMs := some (orDefault op.operationTimeoutMs defaultOperationTimeoutMs)
  retryPolicy := some (subcontract.effectiveRetryPolicy op)
  circuitBreaker := some (op.circuitBreaker.getD subcontract.defaultCircuitBreaker)
  transactionConfig := some subcontract.transaction

/-! ## `execute_effect` -/

/-- What a call of `process` meets outside of the node. -/
structure Schedule where
  effectStart : ℚ
  retryStart : ℚ
  turns : ℕ → Turn
  effectEnd : ℚ
  /-- `f"{ms:.0f}"` -/
  formatMs : ℚ → String
  /-- The operations that the caller has put under `effect_subcontract` -/
  subcontractOperations : Value → Except PyException (List ModelEffectOperationConfig)
  /-- The operations that the caller has put under `operations` -/
  rawOperations : Value → Except PyException (List ModelEffectOperationConfig)

/-- A call of `process`. -/
structure EffectRun where
  events : List RetryEvent
  breakers : CircuitBreakers
  result : Except PyException ModelEffectOutput

/-- How often `execute` is called. -/
def EffectRun.executions (run : EffectRun) : ℕ := run.events.countP RetryEvent.isExecution

section
variable (env : EffectEnvironment) (schedule : Schedule)

/-- The operations of the input. The argument `operations` is what `process` has put under
`operations`, if it has. -/
def readOperations (input : ModelEffectInput)
    (operations : Option (List ModelEffectOperationConfig)) :
    Except PyException (List ModelEffectOperationConfig) := do
  let fromSubcontract ←
    match input.operationData.get "effect_subcontract" with
    | .none => pure []
    | subcontract => schedule.subcontractOperations subcontract
  if fromSubcontract ≠ [] then return fromSubcontract
  match operations with
  | some dicts => dicts.mapM (ModelEffectOperationConfig.fromDict env.text)
  | none =>
    if "operations" ∈ input.operationData.keys then
      schedule.rawOperations (input.operationData.get "operations")
    else return []

def readOperation (input : ModelEffectInput)
    (operations : Option (List ModelEffectOperationConfig)) :
    Except PyException ModelEffectOperationConfig := do
  match ← readOperations env schedule input operations with
  | [] =>
    throw (.modelOnexError {
      errorCode := .invalidInput
      message := "No operations defined in effect input"
      context := [("operation_id", .str input.operationId.str)] })
  | [config] => return config
  | configs =>
    throw (.modelOnexError {
      errorCode := .unsupportedOperation
      message := "v1.0 supports single operation only, but " ++ toString configs.length ++
        " operations were provided. Use separate effect invocations for each operation " ++
        "or upgrade to v2.0 for multi-operation support."
      context := [("operation_id", .str input.operationId.str),
        ("operations_count", .int configs.length)] })

/-- The outer `except` clauses of `execute_effect`. -/
def effectError (operationId : UUID) : PyException → PyException
  | .modelOnexError e => .modelOnexError e
  | e =>
    .modelOnexError {
      errorCode := .operationFailed
      message := "Effect execution failed: " ++ e.str
      context := [("operation_id", .str operationId.str)] }

/-- A value that `ModelEffectOutput` accepts as the result. -/
def isEffectResult : Value → Bool
  | .dict entries => entries.all fun e => match e.1 with | .str _ => true | _ => false
  | v => isPlainValue v

def makeOutput (input : ModelEffectInput) (result : Value) (retryCount : ℕ) :
    Except PyException ModelEffectOutput := do
  checkFields env.text "ModelEffectOutput" [("result", isEffectResult result)]
  return {
    result := result
    operationId := input.operationId
    effectType := input.effectType
    transactionState := .committed
    processingTimeMs := elapsedMs schedule.effectStart schedule.effectEnd
    retryCount := retryCount }

def executeEffect (breakers : CircuitBreakers) (input : ModelEffectInput)
    (operations : Option (List ModelEffectOperationConfig)) : EffectRun :=
  match readOperation env schedule input operations with
  | .error e => { events := [], breakers := breakers, result := .error e }
  | .ok config =>
    match resolveIoContext env input config.ioConfig with
    | .error e =>
      { events := []
        breakers := breakers
        result := .error (effectError input.operationId e) }
    | .ok context =>
      let run := executeWithRetry env context.handlerType input
        (orDefault config.operationTimeoutMs defaultOperationTimeoutMs) schedule.formatMs
        schedule.retryStart schedule.turns breakers
      { events := run.events
        breakers := run.breakers
        result :=
          match run.result with
          | .error e => .error (effectError input.operationId e)
          | .ok (result, retryCount) => makeOutput env schedule input result retryCount }

/-! ## `process` -/

structure NodeEffect where
  effectSubcontract : Option ModelEffectSubcontract
  circuitBreakers : CircuitBreakers := fun _ => none

/-- The default of `max_retries` in `ModelEffectInput`. -/
def defaultMaxRetries : ℤ := 3

/-- The default of `retry_delay_ms` in `ModelEffectInput`. -/
def defaultRetryDelayMs : ℤ := 1000

/-- The input with the defaults of the contract, where the caller has left the defaults of the
model. -/
def ModelEffectInput.withDefaults (input : ModelEffectInput)
    (subcontract : ModelEffectSubcontract) : ModelEffectInput :=
  let defaultRetry := subcontract.defaultRetryPolicy
  { input with
    maxRetries :=
      if input.retryEnabled && input.maxRetries = defaultMaxRetries then defaultRetry.maxRetries
      else input.maxRetries
    retryDelayMs :=
      if input.retryEnabled && input.retryDelayMs = defaultRetryDelayMs then
        defaultRetry.baseDelayMs
      else input.retryDelayMs
    circuitBreakerEnabled :=
      if subcontract.defaultCircuitBreaker.enabled && !input.circuitBreakerEnabled then true
      else input.circuitBreakerEnabled
    transactionEnabled :=
      if subcontract.transaction.enabled && input.transactionEnabled then true
      else input.transactionEnabled }

/-- `process`, for a node without a default handler. -/
def process (node : NodeEffect) (input : ModelEffectInput) : EffectRun :=
  match node.effectSubcontract with
  | none =>
    { events := []
      breakers := node.circuitBreakers
      result := .error (.modelOnexError {
        errorCode := .configurationError
        message := "Effect subcontract not loaded"
        context := [] }) }
  | some subcontract =>
    let input := input.withDefaults subcontract
    let operations :=
      if "operations" ∈ input.operationData.keys then none
      else some (subcontract.operations.map subcontract.operationDict)
    executeEffect env schedule node.circuitBreakers input operations

end

end OmnibaseCore.Effect
