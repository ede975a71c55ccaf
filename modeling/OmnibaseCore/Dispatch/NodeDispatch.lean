import OmnibaseCore.Python.Affix
import OmnibaseCore.Python.Basic
import OmnibaseCore.Regex.Flags

/-!
# Routes of a node

`EnumMessageCategory.from_topic` and `ModelDispatchRoute.matches_topic`.
-/

namespace OmnibaseCore.Dispatch

open Regex

/-! ## Categories -/

inductive EnumMessageCategory
  | event
  | command
  | intent
deriving DecidableEq

def EnumMessageCategory.value : EnumMessageCategory → String
  | .event => "event"
  | .command => "command"
  | .intent => "intent"

def suffixToCategory : List (String × EnumMessageCategory) :=
  [("events", .event), ("commands", .command), ("intents", .intent), ("evt", .event),
    ("cmd", .command), ("intent", .intent)]

def EnumMessageCategory.fromTopic (i : TextInterpreter) (topic : String) :
    Option EnumMessageCategory :=
  if topic = "" then none
  else
    let segments := splitAt '.' (i.lower topic)
    if segments.length < 2 then none
    else (suffixToCategory.find? fun entry => entry.1 ∈ segments).map Prod.snd

/-! ## Topic patterns -/

structure TopicInterpreter extends TextInterpreter where
  /-- Whether a character of a pattern matches a character, with `re.IGNORECASE` -/
  sameLetter : Char → Char → Bool
  /-- The characters of ASCII -/
  sameLetter_ascii : ∀ c d : Char, c.toNat < 128 → sameLetter c d = Regex.sameLetter c d

def asciiTopics : TopicInterpreter :=
  { asciiText with
    sameLetter := Regex.sameLetter
    sameLetter_ascii := fun _ _ _ => rfl }

/-- `ModelDispatchRoute`, with what its fields and `validate_topic_pattern` demand. -/
structure ModelDispatchRoute where
  routeId : String
  topicPattern : String
  messageCategory : EnumMessageCategory
  messageType : Option String := none
  handlerId : String
  enabled : Bool := true
  routeId_length : 1 ≤ routeId.length ∧ routeId.length ≤ 200
  topicPattern_length : 1 ≤ topicPattern.length ∧ topicPattern.length ≤ 500
  topicPattern_valid : strip topicPattern ≠ "" ∧ startsWith "." topicPattern = false ∧
    endsWith "." topicPattern = false
  messageType_length : ∀ messageType' ∈ messageType, messageType'.length ≤ 200
  handlerId_length : 1 ≤ handlerId.length ∧ handlerId.length ≤ 200

/-- What stands for `**` while the pattern is escaped. -/
def doubleStar : String := "__DOUBLE_STAR__"

/-- A pattern of at most `n` characters behind `re.escape` and the two replacements after it. The
placeholder has no character that is escaped, so that it is found in the escaped pattern where it
stands in the other, and `\*` is found where a `*` stands. -/
def topicPieces (i : TopicInterpreter) : ℕ → List Char → Regex
  | 0, _ => epsilon
  | _ + 1, [] => epsilon
  | n + 1, c :: rest =>
    if doubleStar.toList.isPrefixOf (c :: rest) then
      seq (star (chars fun d => d ≠ '\n'))
        (topicPieces i n ((c :: rest).drop doubleStar.toList.length))
    else if c = '*' then seq (plus (chars fun d => d ≠ '.')) (topicPieces i n rest)
    else seq (chars (i.sameLetter c)) (topicPieces i n rest)

namespace ModelDispatchRoute

def compiledPattern (i : TopicInterpreter) (route : ModelDispatchRoute) : Regex :=
  let pattern := replaceText "**" doubleStar route.topicPattern
  seq start (seq (topicPieces i pattern.length pattern.toList) finish)

def matchesTopic (i : TopicInterpreter) (route : ModelDispatchRoute) (topic : String) : Bool :=
  if !route.enabled then false else (route.compiledPattern i).accepts topic

end ModelDispatchRoute

/-!
## Dispatch selection of a node

`MixinNodeDispatch`: the table of routes and dispatchers, how it is filled and frozen, and which
dispatchers a message selects. A call that may raise returns the table next to its outcome.
-/

/-- Objects other than `None`, and what is done to them. -/
structure ObjectInterpreter (Obj : Type) extends TopicInterpreter where
  /-- `str(o)` -/
  str : Obj → String
  /-- `type(o).__name__` -/
  typeName : Obj → String
  /-- `o` if `isinstance(o, UUID)` -/
  asUUID : Obj → Option UUID

/-- What is passed for a dispatcher: something that can be called, or an object of this type. -/
inductive DispatcherObject
  | callable
  | other (typeName : String)

section
variable (Obj : Type)

structure NodeDispatchEntry where
  dispatcherId : String
  category : EnumMessageCategory
  messageTypes : Option (Finset String)
  /-- `bool(matcher(payload))` -/
  payloadTypeMatcher : Option (Obj → Except PyException Bool)

abbrev DlqTopicDeriver := Option String → String → Except PyException (Option String)

/-- `_NodeDispatchState`, with the values of `routes` and `dispatchers` in their order. -/
structure NodeDispatchState where
  routes : List ModelDispatchRoute := []
  dispatchers : List (NodeDispatchEntry Obj) := []
  frozen : Bool := false
  dlqTopicDeriver : Option DlqTopicDeriver := none

structure NodeDispatchMatch where
  routeId : String
  entry : NodeDispatchEntry Obj

/-- An envelope: a `dict`, with its `get`, or an object with attributes. -/
inductive NodeEnvelope
  | dict (self : Obj) (get : String → Option (Option Obj))
  | model (getattr : String → Option (Option Obj))

end

/-- A `ModelOnexError` without context. -/
def dispatchError (errorCode : EnumCoreErrorCode) (message : String) : PyException :=
  .modelOnexError { errorCode := errorCode, message := message, context := [] }

variable {Obj : Type}

def validateRouteDispatcherCategory (route : ModelDispatchRoute) (entry : NodeDispatchEntry Obj) :
    Except PyException Unit :=
  if route.messageCategory = entry.category then .ok ()
  else .error (dispatchError .invalidParameter
    ("Route '" ++ route.routeId ++ "' category " ++ "'" ++ route.messageCategory.value ++
      "' does not match dispatcher " ++ "'" ++ entry.dispatcherId ++ "' category '" ++
      entry.category.value ++ "'."))

namespace NodeDispatchState

/-- `state.dispatchers.get(dispatcher_id)`. -/
def entry (state : NodeDispatchState Obj) (dispatcherId : String) :
    Option (NodeDispatchEntry Obj) :=
  state.dispatchers.find? fun entry => entry.dispatcherId = dispatcherId

/-! ## Registration -/

def registerRoute (state : NodeDispatchState Obj) (route : Option ModelDispatchRoute) :
    Except PyException Unit × NodeDispatchState Obj :=
  match route with
  | none => (.error (dispatchError .invalidParameter
      "Cannot register None route. ModelDispatchRoute is required."), state)
  | some route =>
    if state.frozen then
      (.error (dispatchError .invalidState
        ("Cannot register route: MixinNodeDispatch is frozen. " ++
          "Registration is not allowed after freeze().")), state)
    else if route.routeId ∈ state.routes.map ModelDispatchRoute.routeId then
      (.error (dispatchError .duplicateRegistration
        ("Route with ID '" ++ route.routeId ++ "' is already registered.")), state)
    else
      let checked :=
        match state.entry route.handlerId with
        | some entry => validateRouteDispatcherCategory route entry
        | none => .ok ()
      match checked with
      | .error e => (.error e, state)
      | .ok () => (.ok (), { state with routes := state.routes ++ [route] })

def registerDispatcher (state : NodeDispatchState Obj) (dispatcher : DispatcherObject)
    (entry : NodeDispatchEntry Obj) : Except PyException Unit × NodeDispatchState Obj :=
  if strip entry.dispatcherId = "" then
    (.error (dispatchError .invalidParameter "Dispatcher ID cannot be empty or whitespace."), state)
  else
    match dispatcher with
    | .other typeName => (.error (dispatchError .invalidParameter
        ("Dispatcher for '" ++ entry.dispatcherId ++ "' must be callable. " ++ "Got " ++ typeName ++
          ".")), state)
    | .callable =>
      if state.frozen then
        (.error (dispatchError .invalidState
          ("Cannot register dispatcher: MixinNodeDispatch is frozen. " ++
            "Registration is not allowed after freeze().")), state)
      else if entry.dispatcherId ∈ state.dispatchers.map NodeDispatchEntry.dispatcherId then
        (.error (dispatchError .duplicateRegistration
          ("Dispatcher with ID '" ++ entry.dispatcherId ++ "' is already registered.")), state)
      else
        let checked := state.routes.forM fun route =>
          if route.handlerId = entry.dispatcherId then validateRouteDispatcherCategory route entry
          else .ok ()
        match checked with
        | .error e => (.error e, state)
        | .ok () => (.ok (), { state with dispatchers := state.dispatchers ++ [entry] })

def freeze (state : NodeDispatchState Obj) : Except PyException Unit × NodeDispatchState Obj :=
  if state.frozen then (.ok (), state)
  else
    let checked : Except PyException Unit := state.routes.forM fun route =>
      match state.entry route.handlerId with
      | none => .error (dispatchError .itemNotRegistered
          ("Route '" ++ route.routeId ++ "' references dispatcher " ++ "'" ++ route.handlerId ++
            "' which is not registered."))
      | some entry => validateRouteDispatcherCategory route entry
    match checked with
    | .error e => (.error e, state)
    | .ok () => (.ok (), { state with frozen := true })

def setDlqTopicDeriver (state : NodeDispatchState Obj) (deriver : Option DlqTopicDeriver) :
    NodeDispatchState Obj :=
  { state with dlqTopicDeriver := deriver }

end NodeDispatchState

/-! ## Selection -/

def NodeDispatchEntry.payloadMatches (entry : NodeDispatchEntry Obj) (payload : Obj) : Bool :=
  match entry.payloadTypeMatcher with
  | none => true
  | some matcher =>
    match matcher payload with
    | .ok accepted => accepted
    | .error _ => false

namespace NodeDispatchState

section
variable (i : TopicInterpreter) (state : NodeDispatchState Obj) (topic : String)
  (category : EnumMessageCategory) (messageType : String) (payload : Option Obj)

/-- A turn of the loop over the routes: the match, unless the loop goes on. -/
def routeMatch (seen : Finset String) (route : ModelDispatchRoute) :
    Option (NodeDispatchMatch Obj) :=
  if !route.enabled then none
  else if !route.matchesTopic i topic then none
  else if route.messageCategory ≠ category then none
  else if route.messageType.isSome ∧ route.messageType ≠ some messageType then none
  else if route.handlerId ∈ seen then none
  else
    match state.entry route.handlerId with
    | none => none
    | some entry =>
      if entry.category ≠ route.messageCategory then none
      else if entry.messageTypes.any fun types => messageType ∉ types then none
      else if payload.any fun payload => entry.payloadTypeMatcher.isSome &&
          !entry.payloadMatches payload then none
      else some { routeId := route.routeId, entry := entry }

def findFrom (seen : Finset String) : List ModelDispatchRoute → List (NodeDispatchMatch Obj)
  | [] => []
  | route :: routes =>
    match state.routeMatch i topic category messageType payload seen route with
    | none => findFrom seen routes
    | some found => found :: findFrom (insert route.handlerId seen) routes

def findMatchingDispatchers : List (NodeDispatchMatch Obj) :=
  state.findFrom i topic category messageType payload ∅ state.routes

end

end NodeDispatchState

/-! ## Dispatch -/

/-- `EnumDispatchStatus`, the members that selection returns. -/
inductive EnumDispatchStatus
  | success
  | noDispatcher
  | invalidMessage

/-- `ModelDispatchResult`, the fields that selection sets. -/
structure ModelDispatchResult where
  dispatchId : UUID
  status : EnumDispatchStatus
  routeId : Option String := none
  dispatcherId : Option String := none
  topic : String
  messageCategory : Option EnumMessageCategory := none
  messageType : Option String := none
  startedAt : ℤ
  completedAt : Option ℤ
  outputCount : ℕ := 0
  dlqTopic : Option String := none
  errorMessage : Option String := none
  errorCode : Option EnumCoreErrorCode := none
  correlationId : UUID

/-- What a call takes from outside: the values of `uuid4` and of the clock. -/
structure DispatchContext where
  dispatchId : UUID
  freshCorrelationId : UUID
  startedAt : ℤ
  completedAt : ℤ

namespace NodeEnvelope

def extractRoutingInputs : NodeEnvelope Obj → Option Obj × Option Obj
  | .dict self get => ((get "event_type").join, (get "payload").getD (some self))
  | .model getattr => ((getattr "event_type").join, (getattr "payload").join)

def extractCorrelationId (i : ObjectInterpreter Obj) (fresh : UUID) (envelope : NodeEnvelope Obj) :
    UUID :=
  let existing := match envelope with
    | .dict _ get => (get "correlation_id").join
    | .model getattr => (getattr "correlation_id").join
  (existing.bind i.asUUID).getD fresh

def normalizedEventType (i : ObjectInterpreter Obj) (envelope : NodeEnvelope Obj) : String :=
  match envelope.extractRoutingInputs.1 with
  | some eventType => strip (i.str eventType)
  | none => ""

def messageType (i : ObjectInterpreter Obj) (envelope : NodeEnvelope Obj) : String :=
  let normalizedEventType := envelope.normalizedEventType i
  if normalizedEventType ≠ "" then normalizedEventType
  else
    match envelope.extractRoutingInputs.2 with
    | some payload => i.typeName payload
    | none => "NoneType"

end NodeEnvelope

namespace NodeDispatchState

def deriveDlqTopic (state : NodeDispatchState Obj) (eventType : Option String) (topic : String) :
    Option String :=
  match state.dlqTopicDeriver with
  | none => none
  | some deriver =>
    match deriver eventType topic with
    | .ok dlqTopic => dlqTopic
    | .error _ => none

def dispatch (i : ObjectInterpreter Obj) (state : NodeDispatchState Obj) (context : DispatchContext)
    (topic : String) (envelope : Option (NodeEnvelope Obj)) :
    Except PyException ModelDispatchResult :=
  if !state.frozen then
    .error (dispatchError .invalidState
      ("dispatch() called before freeze(). " ++
        "Registration MUST complete and freeze() MUST be called before dispatch."))
  else if strip topic = "" then
    .error (dispatchError .invalidParameter "Topic cannot be empty or whitespace.")
  else
    match envelope with
    | none => .error (dispatchError .invalidParameter
        "Cannot dispatch None envelope. ModelEventEnvelope is required.")
    | some envelope =>
      let correlationId := envelope.extractCorrelationId i context.freshCorrelationId
      match EnumMessageCategory.fromTopic i.toTextInterpreter topic with
      | none => .ok {
          dispatchId := context.dispatchId
          status := .invalidMessage
          topic := topic
          startedAt := context.startedAt
          completedAt := some context.completedAt
          errorMessage := some ("Cannot infer message category from topic '" ++ topic ++ "'. " ++
            "Topic must contain .events, .commands, .intents, or .projections segment.")
          errorCode := some .validationError
          correlationId := correlationId }
      | some topicCategory =>
        let normalizedEventType := envelope.normalizedEventType i
        let messageType := envelope.messageType i
        let matching := state.findMatchingDispatchers i.toTopicInterpreter topic topicCategory
          messageType envelope.extractRoutingInputs.2
        match matching with
        | [] => .ok {
            dispatchId := context.dispatchId
            status := .noDispatcher
            topic := topic
            messageCategory := some topicCategory
            messageType := some messageType
            startedAt := context.startedAt
            completedAt := some context.completedAt
            dlqTopic := state.deriveDlqTopic
              (if normalizedEventType ≠ "" then some normalizedEventType else none) topic
            errorMessage := some ("No dispatcher registered for category '" ++
              topicCategory.value ++ "' " ++ "and message type '" ++ messageType ++
              "' matching topic '" ++ topic ++ "'.")
            errorCode := some .itemNotRegistered
            correlationId := correlationId }
        | first :: _ => .ok {
            dispatchId := context.dispatchId
            status := .success
            routeId := some first.routeId
            dispatcherId := some
              (", ".intercalate (matching.map fun found => found.entry.dispatcherId))
            topic := topic
            messageCategory := some topicCategory
            messageType := some messageType
            startedAt := context.startedAt
            completedAt := some context.completedAt
            correlationId := correlationId }

end NodeDispatchState

end OmnibaseCore.Dispatch
