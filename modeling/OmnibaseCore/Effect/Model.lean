import OmnibaseCore.Python.Sorted
import OmnibaseCore.Python.Value
import OmnibaseCore.Regex.Search
import OmnibaseCore.SemVer.Model

/-!
# Effect contracts

`ModelEffectSubcontract`, its operations and their IO configurations, with their validators.
A constructor first checks the fields, and reports all that are out of range at once; then the
validators run in the order of the class, and the first that raises ends the construction.
-/

namespace OmnibaseCore.Effect

/-! ## Enumerations -/

inductive EnumEffectHandlerType
  | http
  | db
  | kafka
  | filesystem
deriving DecidableEq

def EnumEffectHandlerType.value : EnumEffectHandlerType → String
  | .http => "http"
  | .db => "db"
  | .kafka => "kafka"
  | .filesystem => "filesystem"

/-- The values of `ModelHttpIOConfig.method`. -/
inductive HttpMethod
  | get
  | post
  | put
  | patch
  | delete
deriving DecidableEq

def HttpMethod.value : HttpMethod → String
  | .get => "GET"
  | .post => "POST"
  | .put => "PUT"
  | .patch => "PATCH"
  | .delete => "DELETE"

/-- The values of `ModelDbIOConfig.operation`. -/
inductive DbOperation
  | select
  | insert
  | update
  | delete
  | upsert
  | raw
deriving DecidableEq

def DbOperation.value : DbOperation → String
  | .select => "select"
  | .insert => "insert"
  | .update => "update"
  | .delete => "delete"
  | .upsert => "upsert"
  | .raw => "raw"

def DbOperation.upper : DbOperation → String
  | .select => "SELECT"
  | .insert => "INSERT"
  | .update => "UPDATE"
  | .delete => "DELETE"
  | .upsert => "UPSERT"
  | .raw => "RAW"

/-- The values of `ModelFilesystemIOConfig.operation`. -/
inductive FilesystemOperation
  | read
  | write
  | delete
  | move
  | copy
deriving DecidableEq

def FilesystemOperation.value : FilesystemOperation → String
  | .read => "read"
  | .write => "write"
  | .delete => "delete"
  | .move => "move"
  | .copy => "copy"

/-- The values of `ModelKafkaIOConfig.acks`. -/
inductive KafkaAcks
  | zero
  | one
  | all
deriving DecidableEq

def KafkaAcks.value : KafkaAcks → String
  | .zero => "0"
  | .one => "1"
  | .all => "all"

/-- The values of `ModelKafkaIOConfig.compression`. -/
inductive KafkaCompression
  | none
  | gzip
  | snappy
  | lz4
  | zstd

/-! ## Limits -/

def effectTimeoutMinMs : ℤ := 1000
def effectTimeoutMaxMs : ℤ := 600000
def effectTimeoutDefaultMs : ℤ := 30000
def defaultOperationTimeoutMs : ℤ := 30000
def effectOperationNameMaxLength : ℕ := 100
def effectSubcontractNameMaxLength : ℕ := 100
def effectOperationDescriptionMaxLength : ℕ := 500
def effectSubcontractDescriptionMaxLength : ℕ := 1000
def effectMaxOperations : ℕ := 50

/-- `ge=EFFECT_TIMEOUT_MIN_MS, le=EFFECT_TIMEOUT_MAX_MS` -/
def isTimeout (ms : ℤ) : Bool := effectTimeoutMinMs ≤ ms && ms ≤ effectTimeoutMaxMs

/-- The fields of a model that are out of range make its `ValidationError`. -/
def checkFields (t : TextInterpreter) (model : String) (fields : List (String × Bool)) :
    Except PyException Unit :=
  let atFault := (fields.filter fun field => !field.2).map Prod.fst
  if atFault = [] then .ok () else .error (.validationError (t.validationText model atFault))

theorem checkFields_eq_ok_iff {t : TextInterpreter} {model : String}
    {fields : List (String × Bool)} :
    checkFields t model fields = .ok () ↔ ∀ field ∈ fields, field.2 = true := by
  unfold checkFields
  dsimp only
  split_ifs with h
  · rw [List.map_eq_nil_iff, List.filter_eq_nil_iff] at h
    simpa using h
  · rw [List.map_eq_nil_iff, List.filter_eq_nil_iff] at h
    simpa using h

def validatorError (message : String) (details : List (String × ContextValue)) : PyException :=
  .modelOnexError { errorCode := .validationError, message := message, context := details }

/-! ## IO configurations -/

structure ModelHttpIOConfig where
  urlTemplate : String
  method : HttpMethod
  headers : List (String × String) := []
  bodyTemplate : Option String := none
  queryParams : List (String × String) := []
  timeoutMs : ℤ := effectTimeoutDefaultMs
  followRedirects : Bool := true
  verifySsl : Bool := true

structure ModelDbIOConfig where
  operation : DbOperation
  connectionName : String
  queryTemplate : String
  queryParams : List String := []
  timeoutMs : ℤ := effectTimeoutDefaultMs
  fetchSize : Option ℤ := none
  readOnly : Bool := false

structure ModelKafkaIOConfig where
  topic : String
  payloadTemplate : String
  partitionKeyTemplate : Option String := none
  headers : List (String × String) := []
  timeoutMs : ℤ := effectTimeoutDefaultMs
  acks : KafkaAcks := .all
  acksZeroAcknowledged : Bool := false
  compression : KafkaCompression := .none

structure ModelFilesystemIOConfig where
  filePathTemplate : String
  destinationPathTemplate : Option String := none
  operation : FilesystemOperation
  timeoutMs : ℤ := effectTimeoutDefaultMs
  atomic : Bool := true
  createDirs : Bool := true
  encoding : String := "utf-8"
  mode : Option String := none

inductive EffectIOConfig
  | http (c : ModelHttpIOConfig)
  | db (c : ModelDbIOConfig)
  | kafka (c : ModelKafkaIOConfig)
  | filesystem (c : ModelFilesystemIOConfig)

def EffectIOConfig.handlerType : EffectIOConfig → EnumEffectHandlerType
  | .http _ => .http
  | .db _ => .db
  | .kafka _ => .kafka
  | .filesystem _ => .filesystem

section
variable (t : TextInterpreter)

def ModelHttpIOConfig.validateBodyForMethod (c : ModelHttpIOConfig) : Except PyException Unit :=
  if c.method ∈ [HttpMethod.post, .put, .patch] ∧ c.bodyTemplate = none then
    .error (validatorError ("body_template is required for " ++ c.method.value ++ " requests")
      [("error_type", .str "valueerror"), ("validation_context", .str "model_validation"),
        ("method", .str c.method.value)])
  else .ok ()

/-- The checks of the constructor of `ModelHttpIOConfig`. -/
def ModelHttpIOConfig.validate (c : ModelHttpIOConfig) : Except PyException Unit := do
  checkFields t "ModelHttpIOConfig"
    [("url_template", c.urlTemplate ≠ ""), ("timeout_ms", isTimeout c.timeoutMs)]
  c.validateBodyForMethod

/-- `_INPUT_PATTERN`: `\$\{input\.[^}]+\}` -/
def inputPattern : Regex :=
  .seq (.text "$\x7binput.") (.seq (.plus (.chars fun c => c ≠ '}')) (.char '}'))

/-- `_PLACEHOLDER_PATTERN`: `\$(\d+)` -/
def placeholderPattern : Regex :=
  .seq (.char '$') (.group "1" (.plus (.chars t.isDecimal)))

def ModelDbIOConfig.validateSqlInjectionPrevention (c : ModelDbIOConfig) :
    Except PyException Unit :=
  if c.operation = .raw ∧ inputPattern.search c.queryTemplate = true then
    .error (validatorError ("Raw queries must not contain $\x7binput.*\x7d patterns. " ++
        "Use parameterized queries ($1, $2, ...) with query_params instead.")
      [("error_type", .str "securityerror"),
        ("validation_context", .str "sql_injection_prevention")])
  else .ok ()

def ModelDbIOConfig.validateParamCountAndSequence (c : ModelDbIOConfig) :
    Except PyException Unit := do
  let matched := (placeholderPattern t).findall "1" c.queryTemplate
  if matched = [] then
    if c.queryParams ≠ [] then
      throw (validatorError ("query_params has " ++ toString c.queryParams.length ++
          " items but query_template has no $N placeholders")
        [("error_type", .str "valueerror"), ("validation_context", .str "param_count_validation")])
  else
    let numbers ← matched.mapM (SemVer.intOfDigits t)
    let placeholderNums := sortedAsc id numbers.dedup
    let maxPlaceholder := placeholderNums.getLastD 0
    if c.queryParams.length ≠ maxPlaceholder then
      throw (validatorError ("query_params has " ++ toString c.queryParams.length ++
          " items but query_template requires " ++ toString maxPlaceholder ++
          " (highest placeholder: $" ++ toString maxPlaceholder ++ ")")
        [("error_type", .str "valueerror"), ("validation_context", .str "param_count_validation"),
          ("expected_params", .int maxPlaceholder),
          ("actual_params", .int c.queryParams.length)])
    let expectedSequence := (List.range maxPlaceholder.toNat).map fun n => (n : ℤ) + 1
    if placeholderNums ≠ expectedSequence then
      let missing := expectedSequence.filter fun n => n ∉ placeholderNums
      throw (validatorError ("Placeholders must be sequential starting from $1. " ++
          "Missing placeholders: $" ++ ", $".intercalate (missing.map toString))
        [("error_type", .str "valueerror"),
          ("validation_context", .str "placeholder_sequence_validation"),
          ("found_placeholders", .strs (placeholderNums.map toString)),
          ("missing_placeholders", .strs (missing.map toString))])

def ModelDbIOConfig.validateReadOnlySemantics (c : ModelDbIOConfig) : Except PyException Unit :=
  if c.readOnly ∧ c.operation ≠ .select then
    .error (validatorError ("read_only=True only allows 'select' operation, but got '" ++
        c.operation.value ++ "'")
      [("error_type", .str "valueerror"), ("validation_context", .str "read_only_semantics"),
        ("operation", .str c.operation.value), ("read_only", .str "True")])
  else .ok ()

/-- The checks of the constructor of `ModelDbIOConfig`. -/
def ModelDbIOConfig.validate (c : ModelDbIOConfig) : Except PyException Unit := do
  checkFields t "ModelDbIOConfig"
    [("connection_name", c.connectionName ≠ ""), ("query_template", c.queryTemplate ≠ ""),
      ("timeout_ms", isTimeout c.timeoutMs),
      ("fetch_size", c.fetchSize.all fun n => 1 ≤ n && n ≤ 100000)]
  c.validateSqlInjectionPrevention
  match c.validateParamCountAndSequence t with
  | .error (.valueError _) => throw (.validationError (t.validationText "ModelDbIOConfig" []))
  | .error e => throw e
  | .ok () => c.validateReadOnlySemantics

def ModelKafkaIOConfig.validateAcksZeroOptIn (c : ModelKafkaIOConfig) : Except PyException Unit :=
  if c.acks = .zero ∧ c.acksZeroAcknowledged = false then
    .error (validatorError ("Kafka acks=0 requires explicit opt-in. " ++
        "Set acks_zero_acknowledged=True to acknowledge the risk of message loss.")
      [("error_type", .str "valueerror"), ("validation_context", .str "acks_zero_opt_in"),
        ("acks", .str c.acks.value), ("acks_zero_acknowledged", .str "False")])
  else .ok ()

def ModelKafkaIOConfig.validateAcksZeroAcknowledgedOnlyForAcksZero (c : ModelKafkaIOConfig) :
    Except PyException Unit :=
  if c.acks ≠ .zero ∧ c.acksZeroAcknowledged = true then
    .error (validatorError ("acks_zero_acknowledged=True is only valid when acks='0', but acks='" ++
        c.acks.value ++ "'. Set acks_zero_acknowledged=False or change acks to '0'.")
      [("error_type", .str "valueerror"),
        ("validation_context", .str "acks_zero_acknowledged_semantics"),
        ("acks", .str c.acks.value), ("acks_zero_acknowledged", .str "True")])
  else .ok ()

/-- The checks of the constructor of `ModelKafkaIOConfig`. -/
def ModelKafkaIOConfig.validate (c : ModelKafkaIOConfig) : Except PyException Unit := do
  checkFields t "ModelKafkaIOConfig"
    [("topic", c.topic ≠ ""), ("payload_template", c.payloadTemplate ≠ ""),
      ("timeout_ms", isTimeout c.timeoutMs)]
  c.validateAcksZeroOptIn
  c.validateAcksZeroAcknowledgedOnlyForAcksZero

def ModelFilesystemIOConfig.validateAtomicForOperation (c : ModelFilesystemIOConfig) :
    Except PyException Unit :=
  if c.atomic ∧ c.operation ≠ .write then
    .error (validatorError ("atomic=True is only valid for 'write' operations, not '" ++
        c.operation.value ++ "'")
      [("error_type", .str "valueerror"),
        ("validation_context", .str "atomic_operation_validation"),
        ("operation", .str c.operation.value)])
  else .ok ()

def ModelFilesystemIOConfig.validateDestinationForMoveCopy (c : ModelFilesystemIOConfig) :
    Except PyException Unit :=
  if c.operation ∈ [FilesystemOperation.move, .copy] ∧ c.destinationPathTemplate = none then
    .error (validatorError ("destination_path_template is required for '" ++ c.operation.value ++
        "' operations")
      [("error_type", .str "valueerror"),
        ("validation_context", .str "destination_path_validation"),
        ("operation", .str c.operation.value)])
  else .ok ()

/-- The checks of the constructor of `ModelFilesystemIOConfig`. -/
def ModelFilesystemIOConfig.validate (c : ModelFilesystemIOConfig) : Except PyException Unit := do
  checkFields t "ModelFilesystemIOConfig"
    [("file_path_template", c.filePathTemplate ≠ ""), ("timeout_ms", isTimeout c.timeoutMs)]
  c.validateAtomicForOperation
  c.validateDestinationForMoveCopy

def EffectIOConfig.validate : EffectIOConfig → Except PyException Unit
  | .http c => c.validate t
  | .db c => c.validate t
  | .kafka c => c.validate t
  | .filesystem c => c.validate t

end

/-! ## Policies -/

structure ModelEffectRetryPolicy where
  enabled : Bool := true
  maxRetries : ℤ := 3
  baseDelayMs : ℤ := 1000

structure ModelEffectCircuitBreaker where
  enabled : Bool := false

/-- The values of `ModelEffectTransactionConfig.isolation_level`. -/
inductive IsolationLevel
  | readUncommitted
  | readCommitted
  | repeatableRead
  | serializable
deriving DecidableEq

def IsolationLevel.value : IsolationLevel → String
  | .readUncommitted => "read_uncommitted"
  | .readCommitted => "read_committed"
  | .repeatableRead => "repeatable_read"
  | .serializable => "serializable"

structure ModelEffectTransactionConfig where
  enabled : Bool := false
  isolationLevel : IsolationLevel := .readCommitted

/-- The checks of the constructor of `ModelEffectRetryPolicy`. -/
def ModelEffectRetryPolicy.validate (t : TextInterpreter) (p : ModelEffectRetryPolicy) :
    Except PyException Unit :=
  checkFields t "ModelEffectRetryPolicy"
    [("max_retries", 0 ≤ p.maxRetries && p.maxRetries ≤ 10),
      ("base_delay_ms", 100 ≤ p.baseDelayMs && p.baseDelayMs ≤ 60000)]

/-! ## Operations -/

structure ModelEffectOperation where
  operationName : String
  description : Option String := none
  idempotent : Option Bool := none
  ioConfig : EffectIOConfig
  retryPolicy : Option ModelEffectRetryPolicy := none
  circuitBreaker : Option ModelEffectCircuitBreaker := none
  operationTimeoutMs : Option ℤ := none

def idempotencyDefaults : EnumEffectHandlerType → List (String × Bool)
  | .http => [("GET", true), ("HEAD", true), ("OPTIONS", true), ("PUT", true), ("DELETE", true),
      ("POST", false), ("PATCH", false)]
  | .db => [("SELECT", true), ("INSERT", false), ("UPDATE", true), ("DELETE", true),
      ("UPSERT", true)]
  | .kafka => [("produce", false)]
  | .filesystem => [("read", true), ("write", false), ("delete", true), ("move", false),
      ("copy", false)]

/-- The operation type that `get_effective_idempotency` looks up. -/
def EffectIOConfig.opType : EffectIOConfig → String
  | .http c => c.method.value
  | .filesystem c => c.operation.value
  | .kafka _ => "produce"
  | .db c => c.operation.upper

def ModelEffectOperation.getEffectiveIdempotency (op : ModelEffectOperation) : Bool :=
  match op.idempotent with
  | some idempotent => idempotent
  | none =>
    if op.ioConfig.handlerType = .db && op.ioConfig.opType = "RAW" then false
    else ((idempotencyDefaults op.ioConfig.handlerType).lookup op.ioConfig.opType).getD false

/-- The checks of the constructor of `ModelEffectOperation`. -/
def ModelEffectOperation.validate (t : TextInterpreter) (op : ModelEffectOperation) :
    Except PyException Unit := do
  op.ioConfig.validate t
  match op.retryPolicy with
  | none => pure ()
  | some policy => policy.validate t
  checkFields t "ModelEffectOperation"
    [("operation_name", 1 ≤ op.operationName.length &&
        op.operationName.length ≤ effectOperationNameMaxLength),
      ("description", op.description.all fun s =>
        s.length ≤ effectOperationDescriptionMaxLength),
      ("operation_timeout_ms", op.operationTimeoutMs.all isTimeout)]

/-! ## Subcontracts -/

structure ModelEffectSubcontract where
  subcontractName : String
  description : Option String := none
  operations : List ModelEffectOperation
  defaultRetryPolicy : ModelEffectRetryPolicy := {}
  defaultCircuitBreaker : ModelEffectCircuitBreaker := {}
  transaction : ModelEffectTransactionConfig := {}

namespace ModelEffectSubcontract

variable (t : TextInterpreter) (subcontract : ModelEffectSubcontract)

/-- `repr` of a list of strings. -/
def reprNames (names : List String) : String :=
  "[" ++ ", ".intercalate (names.map t.repr) ++ "]"

def validateTransactionScope : Except PyException Unit :=
  if !subcontract.transaction.enabled then .ok ()
  else
    let nonDbOps := subcontract.operations.filter fun op => op.ioConfig.handlerType ≠ .db
    if nonDbOps ≠ [] then
      .error (validatorError ("Transaction enabled but found non-DB operations: " ++
        reprNames t (nonDbOps.map ModelEffectOperation.operationName) ++
        ". Transactions only supported for DB handler type.") [])
    else
      let connectionNames := (subcontract.operations.filterMap fun op =>
        match op.ioConfig with
        | .db c => some c.connectionName
        | _ => none).dedup
      if 1 < connectionNames.length then
        .error (validatorError ("Transaction enabled but operations use different connections: " ++
          "\x7b" ++ ", ".intercalate (connectionNames.map t.repr) ++ "\x7d" ++
          ". All DB operations in a transaction must use the same connection.") [])
      else .ok ()

def effectiveRetryPolicy (op : ModelEffectOperation) : ModelEffectRetryPolicy :=
  op.retryPolicy.getD subcontract.defaultRetryPolicy

def retriesNonIdempotent (op : ModelEffectOperation) : Bool :=
  let retryPolicy := subcontract.effectiveRetryPolicy op
  retryPolicy.enabled && 0 < retryPolicy.maxRetries && !op.getEffectiveIdempotency

def validateIdempotencyRetryInteraction : Except PyException Unit :=
  match subcontract.operations.find? subcontract.retriesNonIdempotent with
  | none => .ok ()
  | some op =>
    .error (validatorError ("Operation '" ++ op.operationName ++
      "' is not idempotent but has retry enabled. " ++
      "Set idempotent=true or disable retries to prevent duplicate side effects.") [])

/-- The operation is a `SELECT` with retries on. -/
def retriesSelect (op : ModelEffectOperation) : Bool :=
  let retry := subcontract.effectiveRetryPolicy op
  match op.ioConfig with
  | .db c => c.operation = .select && retry.enabled && 0 < retry.maxRetries
  | _ => false

def validateSelectRetryInTransaction : Except PyException Unit :=
  let isolation := subcontract.transaction.isolationLevel
  if !subcontract.transaction.enabled then .ok ()
  else if isolation ∈ [IsolationLevel.readUncommitted, .readCommitted] then .ok ()
  else
    match subcontract.operations.find? subcontract.retriesSelect with
    | none => .ok ()
    | some op =>
      .error (validatorError ("Operation '" ++ op.operationName ++
        "' is a SELECT with retry enabled inside a " ++ isolation.value ++
        " transaction. This violates snapshot semantics. " ++
        "Either disable retry for this operation or use read_committed isolation.") [])

def validateNoRawInTransaction : Except PyException Unit :=
  if !subcontract.transaction.enabled then .ok ()
  else
    let rawOps := subcontract.operations.filter fun op =>
      match op.ioConfig with
      | .db c => c.operation = .raw
      | _ => false
    if rawOps ≠ [] then
      .error (validatorError ("Raw DB operations not allowed inside transactions: " ++
        reprNames t (rawOps.map ModelEffectOperation.operationName) ++
        ". Raw operations (stored procedures, multi-statement batches) may have " ++
        "side effects that break transactional semantics. " ++
        "Use dedicated subcontracts or explicit application logic instead.") [])
    else .ok ()

/-- The checks of the constructor of `ModelEffectSubcontract`. -/
def validate : Except PyException Unit := do
  let _ ← subcontract.operations.mapM fun op => op.validate t
  subcontract.defaultRetryPolicy.validate t
  checkFields t "ModelEffectSubcontract"
    [("subcontract_name", 1 ≤ subcontract.subcontractName.length &&
        subcontract.subcontractName.length ≤ effectSubcontractNameMaxLength),
      ("description", subcontract.description.all fun s =>
        s.length ≤ effectSubcontractDescriptionMaxLength),
      ("operations", 1 ≤ subcontract.operations.length &&
        subcontract.operations.length ≤ effectMaxOperations)]
  subcontract.validateTransactionScope t
  subcontract.validateIdempotencyRetryInteraction
  subcontract.validateSelectRetryInTransaction
  subcontract.validateNoRawInTransaction t

def Accepted : Prop := subcontract.validate t = .ok ()

end ModelEffectSubcontract

/-! ## Inputs and outputs of the node -/

inductive EnumEffectType
  | fileOperation
  | databaseOperation
  | apiCall
  | eventEmission
  | directoryOperation
  | ticketStorage
  | metricsCollection

/-- `ModelEffectInput`, with `operation_data` as a dictionary. -/
structure ModelEffectInput where
  effectType : EnumEffectType
  operationData : Context := []
  operationId : UUID
  transactionEnabled : Bool := true
  retryEnabled : Bool := true
  maxRetries : ℤ := 3
  retryDelayMs : ℤ := 1000
  circuitBreakerEnabled : Bool := false

inductive EnumTransactionState
  | pending
  | active
  | committed
  | rolledBack
  | failed

structure ModelEffectOutput where
  result : Value
  operationId : UUID
  effectType : EnumEffectType
  transactionState : EnumTransactionState
  processingTimeMs : ℚ
  retryCount : ℕ

end OmnibaseCore.Effect
