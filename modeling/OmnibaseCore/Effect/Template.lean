import OmnibaseCore.Effect.Model

/-!
# Templates

`_resolve_io_context`: every `${...}` of a template is replaced by a value of the caller's
data, of the environment or of the secret service.
-/

namespace OmnibaseCore.Effect

/-! ## The surroundings -/

/-- The object that the container returns for `ProtocolSecretService`. -/
structure SecretService where
  cls : String
  /-- `str(get_secret(key))`, if the object has the method -/
  getSecret : Option (String → Except PyException (Option String))

/-- What the resolution of templates depends on, besides the configuration and the input. -/
structure EffectEnvironment where
  interpreter : Interpreter
  text : TextInterpreter
  /-- `int(s)`, if `s` is an integer -/
  parseInt : String → Option ℤ
  /-- `os.environ.get(name)` -/
  environ : String → Option String
  /-- `container.get_service("ProtocolSecretService")` -/
  secretService : Except PyException SecretService

def emptyEnvironment : EffectEnvironment where
  interpreter := plainInterpreter
  text := asciiText
  parseInt := readInt
  environ _ := none
  secretService := .error (.other "KeyError" "ProtocolSecretService")

/-! ## Fields of the data -/

def defaultMaxFieldExtractionDepth : ℕ := 10

/-- `[a-zA-Z0-9_.]` -/
def isSafeFieldChar (c : Char) : Bool := c.isAlphanum || c = '_' || c = '.'

def safeFieldPattern : Regex := .seq .start (.seq (.plus (.chars isSafeFieldChar)) .finish)

def deniedBuiltins : List String :=
  ["import", "__import__", "eval", "exec", "compile", "execfile", "globals", "locals", "vars",
    "dir", "getattr", "setattr", "delattr", "hasattr", "__builtins__", "__class__", "__bases__",
    "__mro__", "__subclasses__", "__dict__", "__globals__", "__code__", "__func__", "__self__",
    "__closure__", "__annotations__", "__kwdefaults__", "__defaults__", "__loader__", "__spec__",
    "__file__", "__name__", "__package__", "__path__", "__cached__", "__doc__", "__call__",
    "__init__", "__new__", "__del__", "__get__", "__set__", "__delete__", "__enter__", "__exit__",
    "__getattr__", "__setattr__", "__delattr__", "__getattribute__", "__repr__", "__str__",
    "__format__", "__iter__", "__next__", "__getitem__", "__setitem__", "__delitem__",
    "__contains__", "__eq__", "__ne__", "__lt__", "__le__", "__gt__", "__ge__", "__add__",
    "__sub__", "__mul__", "__truediv__", "__floordiv__", "__mod__", "__pow__", "open", "input",
    "breakpoint", "help", "license", "credits", "copyright", "quit", "exit"]

def containsDeniedBuiltin (fieldPath : String) : Option String :=
  (splitAt '.' fieldPath).find? fun segment => segment ∈ deniedBuiltins

/-- The loop of `_extract_field`. -/
def walk : Value → List String → Value
  | current, [] => current
  | .dict entries, part :: parts =>
    match dictGet entries part with
    | .none => .none
    | value => walk value parts
  | _, _ :: _ => .none

/-- A value of one of the types `str`, `int`, `float`, `bool`, `dict` and `list`. -/
def isPlainValue : Value → Bool
  | .str _ | .int _ | .float _ | .bool _ | .dict _ | .list _ => true
  | _ => false

def extractField (data : Context) (fieldPath : String) : Except PyException Value :=
  if !safeFieldPattern.accepts fieldPath then
    .error (.modelOnexError {
      errorCode := .validationError
      message := "Invalid field path characters: " ++ fieldPath
      context := [("field_path", .str fieldPath), ("allowed_pattern", .str "[a-zA-Z0-9_.]")] })
  else
    match containsDeniedBuiltin fieldPath with
    | some deniedBuiltin =>
      .error (.modelOnexError {
        errorCode := .securityViolation
        message := "Access to Python built-in or special attribute denied: " ++ deniedBuiltin
        context := [("field_path", .str fieldPath), ("denied_builtin", .str deniedBuiltin)] })
    | none =>
      let parts := splitAt '.' fieldPath
      if defaultMaxFieldExtractionDepth < parts.length then .ok .none
      else
        let current := walk data.toValue parts
        .ok (if isPlainValue current then current else .none)

/-! ## Placeholders -/

/-- `s[len(p):]`, if `s.startswith(p)`. -/
def afterPrefix (p s : String) : Option String :=
  if p.toList.isPrefixOf s.toList then some (String.ofList (s.toList.drop p.length)) else none

/-- `s.split(":", 1)`, if there is a colon. -/
def splitColon (s : String) : Option (String × String) :=
  match s.toList.dropWhile fun c => c ≠ ':' with
  | [] => none
  | _ :: rest => some (String.ofList (s.toList.takeWhile fun c => c ≠ ':'), String.ofList rest)

/-- The exceptions that the lookup of a secret turns into a `ModelOnexError`: `AttributeError`,
`KeyError`, `OSError`, `RuntimeError` and `ValueError`. -/
def isSecretFailure : PyException → Bool
  | .valueError _ | .validationError _ => true
  | .other cls _ => cls ∈ ["AttributeError", "KeyError", "OSError", "RuntimeError"]
  | _ => false

section
variable (env : EffectEnvironment) (data : Context) (operationId : UUID)

def placeholderError (errorCode : EnumCoreErrorCode) (message placeholder : String)
    (context : List (String × ContextValue)) : PyException :=
  .modelOnexError {
    errorCode := errorCode
    message := message
    context := context ++ [("placeholder", .str placeholder),
      ("operation_id", .str operationId.str)] }

/-- The branch of `resolve_template` for `env.`. -/
def resolveEnv (placeholder envExpr : String) : Except PyException String :=
  let (varName, defaultValue) :=
    match splitColon envExpr with
    | some (name, default) => (name, some default)
    | none => (envExpr, none)
  match env.environ varName with
  | some value => .ok value
  | none =>
    match defaultValue with
    | some default => .ok default
    | none =>
      .error (placeholderError operationId .configurationNotFound
        ("Environment variable not found: " ++ varName) placeholder
        [("variable_name", .str varName)])

/-- The branch of `resolve_template` for `secret.`. -/
def resolveSecret (placeholder secretKey : String) : Except PyException String :=
  let lookedUp : Except PyException String := do
    let service ← env.secretService
    match service.getSecret with
    | none =>
      throw (placeholderError operationId .unsupportedOperation
        ("Secret service does not implement get_secret method. Ensure ProtocolSecretService " ++
          "implementation provides get_secret(key: str) -> str | None.") placeholder
        [("secret_key", .str secretKey), ("service_type", .str service.cls)])
    | some getSecret =>
      match ← getSecret secretKey with
      | none =>
        throw (placeholderError operationId .configurationNotFound
          ("Secret not found: " ++ secretKey) placeholder [("secret_key", .str secretKey)])
      | some secret => return secret
  match lookedUp with
  | .ok secret => .ok secret
  | .error (.modelOnexError e) => .error (.modelOnexError e)
  | .error e =>
    if isSecretFailure e then
      .error (placeholderError operationId .configurationError
        ("Failed to resolve secret: " ++ secretKey) placeholder [("secret_key", .str secretKey)])
    else .error e

/-- `resolve_template`, given what the group of the match has taken. -/
def resolveTemplate (placeholder : String) : Except PyException String :=
  match afterPrefix "input." placeholder with
  | some fieldPath => do
    match ← extractField data fieldPath with
    | .none => return ""
    | value => env.interpreter.str value
  | none =>
    match afterPrefix "env." placeholder with
    | some envExpr => resolveEnv env operationId placeholder envExpr
    | none =>
      match afterPrefix "secret." placeholder with
      | some secretKey => resolveSecret env operationId placeholder secretKey
      | none =>
        .error (placeholderError operationId .invalidParameter
          ("Unknown template prefix: " ++ placeholder) placeholder
          [("supported_prefixes", .strs ["input.", "env.", "secret."])])

/-- `TEMPLATE_PATTERN`: `\$\{([^}]+)\}` -/
def templatePattern : Regex :=
  .seq (.char '$') (.seq (.char '{') (.seq (.group "1" (.plus (.chars fun c => c ≠ '}')))
    (.char '}')))

/-- `TEMPLATE_PATTERN.sub(resolve_template, template)`. -/
def resolveText (template : String) : Except PyException String :=
  templatePattern.sub
    (fun m => resolveTemplate env data operationId ((m.group "1").getD "")) template

def resolveTexts (templates : List (String × String)) :
    Except PyException (List (String × String)) :=
  templates.mapM fun entry => do
    let value ← resolveText env data operationId entry.2
    return (entry.1, value)

def resolveOptional : Option String → Except PyException (Option String)
  | none => .ok none
  | some template =>
    if template = "" then .ok none
    else (resolveText env data operationId template).map some

end

/-! ## Resolved contexts -/

structure ModelResolvedHttpContext where
  url : String
  method : HttpMethod
  headers : List (String × String)
  body : Option String
  queryParams : List (String × String)
  timeoutMs : ℤ
  followRedirects : Bool
  verifySsl : Bool

structure ModelResolvedDbContext where
  operation : DbOperation
  connectionName : String
  query : String
  params : List Value
  timeoutMs : ℤ
  fetchSize : Option ℤ
  readOnly : Bool

structure ModelResolvedKafkaContext where
  topic : String
  partitionKey : Option String
  headers : List (String × String)
  payload : String
  timeoutMs : ℤ
  acks : KafkaAcks
  compression : KafkaCompression

structure ModelResolvedFilesystemContext where
  filePath : String
  operation : FilesystemOperation
  content : Option String
  timeoutMs : ℤ
  atomic : Bool
  createDirs : Bool
  encoding : String
  mode : Option String

inductive ResolvedIOContext
  | http (c : ModelResolvedHttpContext)
  | db (c : ModelResolvedDbContext)
  | kafka (c : ModelResolvedKafkaContext)
  | filesystem (c : ModelResolvedFilesystemContext)

/-- `resolved_context.handler_type`. -/
def ResolvedIOContext.handlerType : ResolvedIOContext → EnumEffectHandlerType
  | .http _ => .http
  | .db _ => .db
  | .kafka _ => .kafka
  | .filesystem _ => .filesystem

/-! ## `_resolve_io_context` -/

section
variable (env : EffectEnvironment)

def coerceParamValue (value : String) : Value :=
  let lowered := env.text.lower value
  if lowered = "true" ∨ lowered = "false" then .bool (lowered = "true")
  else if lowered = "none" ∨ lowered = "null" then .none
  else
    match env.parseInt value with
    | some n => .int n
    | none =>
      match env.interpreter.float (.str value) with
      | .ok x => .float x
      | .error _ => .str value

variable (input : ModelEffectInput)

/-- The templates of `io_config` and the data of the input. -/
def resolve (template : String) : Except PyException String :=
  resolveText env input.operationData input.operationId template

def resolveHttp (c : ModelHttpIOConfig) : Except PyException ModelResolvedHttpContext := do
  let url ← resolve env input c.urlTemplate
  let headers ← resolveTexts env input.operationData input.operationId c.headers
  let body ← resolveOptional env input.operationData input.operationId c.bodyTemplate
  let queryParams ← resolveTexts env input.operationData input.operationId c.queryParams
  checkFields env.text "ModelResolvedHttpContext"
    [("url", url ≠ ""), ("timeout_ms", isTimeout c.timeoutMs)]
  return {
    url := url
    method := c.method
    headers := headers
    body := body
    queryParams := queryParams
    timeoutMs := c.timeoutMs
    followRedirects := c.followRedirects
    verifySsl := c.verifySsl }

def resolveDb (c : ModelDbIOConfig) : Except PyException ModelResolvedDbContext := do
  let query ← resolve env input c.queryTemplate
  let params ← c.queryParams.mapM fun template => do
    let resolved ← resolve env input template
    return coerceParamValue env resolved
  checkFields env.text "ModelResolvedDbContext"
    [("connection_name", c.connectionName ≠ ""), ("query", query ≠ ""),
      ("timeout_ms", isTimeout c.timeoutMs), ("fetch_size", c.fetchSize.all fun n => 1 ≤ n)]
  return {
    operation := c.operation
    connectionName := c.connectionName
    query := query
    params := params
    timeoutMs := c.timeoutMs
    fetchSize := c.fetchSize
    readOnly := c.readOnly }

def resolveKafka (c : ModelKafkaIOConfig) : Except PyException ModelResolvedKafkaContext := do
  let topic ← resolve env input c.topic
  let partitionKey ←
    resolveOptional env input.operationData input.operationId c.partitionKeyTemplate
  let headers ← resolveTexts env input.operationData input.operationId c.headers
  let payload ← resolve env input c.payloadTemplate
  checkFields env.text "ModelResolvedKafkaContext"
    [("topic", topic ≠ ""), ("timeout_ms", isTimeout c.timeoutMs)]
  return {
    topic := topic
    partitionKey := partitionKey
    headers := headers
    payload := payload
    timeoutMs := c.timeoutMs
    acks := c.acks
    compression := c.compression }

/-- The content under a key of the data: text is a template, other objects are printed. -/
def resolveContent (key : String) : Except PyException (Option String) :=
  match input.operationData.get key with
  | .str content =>
    if templatePattern.search content then (resolve env input content).map some
    else .ok (some content)
  | .none => .ok none
  | value => (env.interpreter.str value).map some

/-- What is written. -/
def writeContent (c : ModelFilesystemIOConfig) : Except PyException (Option String) := do
  let keys := input.operationData.keys
  let content ←
    if "file_content" ∈ keys then resolveContent env input "file_content"
    else if "content" ∈ keys then resolveContent env input "content"
    else if "content_template" ∈ keys then
      match input.operationData.get "content_template" with
      | .str template => (resolve env input template).map some
      | _ => .ok none
    else .ok none
  if content = none then
    throw (.modelOnexError {
      errorCode := .invalidInput
      message := "Filesystem write operation requires content. " ++
        "Provide 'file_content', 'content', or 'content_template' in operation_data."
      context := [("operation", .str c.operation.value),
        ("file_path_template", .str c.filePathTemplate)] })
  return content

def resolveFilesystem (c : ModelFilesystemIOConfig) :
    Except PyException ModelResolvedFilesystemContext := do
  let content ← if c.operation = .write then writeContent env input c else .ok none
  let filePath ← resolve env input c.filePathTemplate
  checkFields env.text "ModelResolvedFilesystemContext"
    [("file_path", filePath ≠ ""), ("timeout_ms", isTimeout c.timeoutMs)]
  return {
    filePath := filePath
    operation := c.operation
    content := content
    timeoutMs := c.timeoutMs
    atomic := c.atomic
    createDirs := c.createDirs
    encoding := c.encoding
    mode := c.mode }

def resolveIoContext : EffectIOConfig → Except PyException ResolvedIOContext
  | .http c => (resolveHttp env input c).map .http
  | .db c => (resolveDb env input c).map .db
  | .kafka c => (resolveKafka env input c).map .kafka
  | .filesystem c => (resolveFilesystem env input c).map .filesystem

end

end OmnibaseCore.Effect
