import OmnibaseCore.Json.Text
import OmnibaseCore.Python.Affix

/-!
# The resolver of fan-out topics

What the two runtimes share: how the events that a handler returns are mapped to topics by the
`published_events` of the contract, and how the event type is read from a topic.
-/

namespace OmnibaseCore.Dispatch

/-- What the runtimes read of an instance of a subclass of `BaseModel`. -/
structure BaseModel where
  /-- `type(element).__name__` -/
  className : String
  /-- the attribute `topic`, where it is a string -/
  topic : Option String := none
  /-- `model_dump_json()` -/
  json : Except PyException String
deriving DecidableEq

inductive Element
  | model (m : BaseModel)
  | other (typeName : String)

/-- What a handler returns. -/
inductive Result
  | none
  | model (m : BaseModel)
  | sequence (elements : List Element)
  /-- a `dict`, with its `json.dumps` -/
  | dict (json : Except PyException String)
  | other (typeName : String)

/-- `published_events`, from the names of classes to topics. -/
abbrev PublishedEvents := List (String × String)

def carrierClassNames : List String := ["ModelEventEnvelope", "ModelDelegationEventEnvelope"]

def shortName (className : String) : String :=
  if startsWith "Model" className then dropStart 5 className else className

/-- `derive_event_type_from_topic`, of `runtime_fanout_resolver` and of
`runtime_envelope_router`. -/
def deriveEventTypeFromTopic (topic : String) : Option String :=
  match splitAt '.' topic with
  | onex :: _ :: producer :: eventName :: _ :: _ =>
    if onex = "onex" then some (producer ++ "." ++ eventName) else none
  | _ => none

section
variable (t : TextInterpreter)

/-- `repr` of `message_type`. -/
def reprMessageType : Option String → String
  | none => "None"
  | some messageType => t.repr messageType

/-- `repr` of a list of strings. -/
def reprSorted (names : List String) : String :=
  "[" ++ ", ".intercalate ((sortedAsc id names).map t.repr) ++ "]"

def rejectCarrier (element : BaseModel) (idx : ℕ) (messageType : Option String) :
    Except ModelOnexError Unit :=
  if element.className ∈ carrierClassNames then
    .error
      { errorCode := .handlerExecutionError
        message := "Fan-out element " ++ toString idx ++ " is a routing carrier (" ++
          element.className ++ "), not a domain payload. A def-B fan-out handler returns pure " ++
          "typed event models; the topic is resolved from each element's class via the " ++
          "contract's published_events. (handler message_type=" ++
          reprMessageType t messageType ++ ")"
        context := [] }
  else
    match element.topic with
    | some topic =>
      if strip topic ≠ "" then
        .error
          { errorCode := .handlerExecutionError
            message := "Fan-out element " ++ toString idx ++ " (" ++ element.className ++
              ") carries an embedded topic " ++ t.repr (strip topic) ++ ", which would override " ++
              "the contract's published_events routing. Topics stay contract-declared — remove " ++
              "the topic field from the emitted model. (handler message_type=" ++
              reprMessageType t messageType ++ ")"
            context := [] }
      else .ok ()
    | none => .ok ()

/-- The turn of the loop of `normalize_fanout_elements`. -/
def normalizeElement (messageType : Option String) :
    Element × ℕ → Except ModelOnexError BaseModel
  | (.other typeName, idx) =>
    .error
      { errorCode := .handlerExecutionError
        message := "Fan-out element " ++ toString idx ++ " is " ++ typeName ++ ", not a " ++
          "BaseModel. A def-B fan-out handler returns an ordered sequence of typed event " ++
          "models; a non-model element cannot be routed to a topic. (handler message_type=" ++
          reprMessageType t messageType ++ ")"
        context := [] }
  | (.model element, idx) => do
    rejectCarrier t element idx messageType
    return element

def normalizeFanoutElements (elements : List Element) (messageType : Option String) :
    Except ModelOnexError (List BaseModel) :=
  elements.zipIdx.mapM (normalizeElement t messageType)

/-- `published_events.get(_short_name(class_name))`, and where that is `None`,
`published_events.get(class_name)`. -/
def publishedTopic (publishedEvents : PublishedEvents) (className : String) : Option String :=
  match publishedEvents.lookup (shortName className) with
  | some topic => some topic
  | none => publishedEvents.lookup className

def resolvePublishedTopic (publishedEvents : PublishedEvents) (element : BaseModel)
    (messageType : Option String) : Except ModelOnexError String :=
  match publishedTopic publishedEvents element.className with
  | some topic => .ok topic
  | none =>
    .error
      { errorCode := .contractValidationError
        message := "Fan-out element " ++ t.repr element.className ++ " is not declared in the " ++
          "contract's published_events " ++ reprSorted t (publishedEvents.map Prod.fst) ++
          ". A def-B fan-out handler's emitted classes must all be contract-declared — there is " ++
          "no silent fallback to a single output_topic (that would misroute). (handler " ++
          "message_type=" ++ reprMessageType t messageType ++ ")"
        context := [] }

def resolveFanoutTopics (publishedEvents : PublishedEvents) (elements : List Element)
    (messageType : Option String) : Except ModelOnexError (List (String × BaseModel)) := do
  let validated ← normalizeFanoutElements t elements messageType
  validated.mapM fun element => do
    let topic ← resolvePublishedTopic t publishedEvents element messageType
    return (topic, element)

/-- The turn of the loop of `resolve_fanout_emissions`. -/
def emissionOf (messageType : Option String) :
    String × BaseModel → Except ModelOnexError (String × String × BaseModel)
  | (topic, payload) =>
    match deriveEventTypeFromTopic topic with
    | some eventType => .ok (topic, eventType, payload)
    | none =>
      .error
        { errorCode := .contractValidationError
          message := "Fan-out element " ++ t.repr payload.className ++ " resolved to publish " ++
            "topic " ++ t.repr topic ++ ", which does not follow the ONEX " ++
            "onex.\x7bkind\x7d.\x7bproducer\x7d.\x7bevent-name\x7d.v\x7bn\x7d convention, so no " ++
            "event_type routing key can be derived. An emitted fan-out envelope MUST carry a " ++
            "non-null event_type or the consuming type-scoped dispatcher silently drops it " ++
            "(OMN-14743). Fix the contract's published_events topic to the canonical ONEX shape. " ++
            "(handler message_type=" ++ reprMessageType t messageType ++ ")"
          context := [] }

def resolveFanoutEmissions (publishedEvents : PublishedEvents) (elements : List Element)
    (messageType : Option String) :
    Except ModelOnexError (List (String × String × BaseModel)) := do
  let pairs ← resolveFanoutTopics t publishedEvents elements messageType
  pairs.mapM (emissionOf t messageType)

/-! ## The check at boot -/

/-- The turn of the first loop of `assert_published_events_injective`. -/
def canonicalTopic (context : String) (canonicalToTopic : List (String × String)) :
    String × String → Except ModelOnexError (List (String × String))
  | (key, topic) =>
    let canonical := shortName key
    match canonicalToTopic.lookup canonical with
    | some prior =>
      if prior ≠ topic then
        .error
          { errorCode := .contractValidationError
            message := "published_events for " ++ context ++ " maps class " ++
              t.repr canonical ++ " to two topics (" ++ t.repr prior ++ " and " ++ t.repr topic ++
              "). A class must resolve to exactly one topic; reconcile the duplicate entry."
            context := [] }
      else .ok (dictSet canonicalToTopic canonical topic)
    | none => .ok (dictSet canonicalToTopic canonical topic)

/-- The turn of the last loop of `assert_published_events_injective`, for the topic of an entry. -/
def oneClass (context : String) (canonicalToTopic : List (String × String)) (topic : String) :
    Except ModelOnexError Unit :=
  let classes := (canonicalToTopic.filter fun e => e.2 = topic).map Prod.fst
  if 1 < classes.length then
    .error
      { errorCode := .contractValidationError
        message := "published_events for " ++ context ++ " maps " ++ reprSorted t classes ++
          " all to topic " ++ t.repr topic ++ ". The fan-out resolver requires an injective " ++
          "class -> topic map (one topic carries exactly one wire model); mint distinct topics " ++
          "or a single distinct type."
        context := [] }
  else .ok ()

def assertPublishedEventsInjective (publishedEvents : PublishedEvents) (context : String) :
    Except ModelOnexError Unit := do
  let canonicalToTopic ← publishedEvents.foldlM (canonicalTopic t context) []
  (canonicalToTopic.map Prod.snd).forM (oneClass t context canonicalToTopic)

end

/-!
## What the two runtimes publish

`RuntimeDispatch` and `LocalRuntimeBusAdapter`, from what a handler has returned to what is on the
bus. The sends succeed; what can fail is a text that an event does not have.

`uuid5`, the parsing of a `UUID` and the values of `uuid4` are arguments.
-/

/-! ## Envelopes -/

/-- A decoded `ModelEventEnvelope`, as far as it is read. -/
structure InboundEnvelope where
  envelopeId : UUID
  correlationId : Option UUID

/-- A `ModelEventEnvelope` that is sent, without its timestamp. -/
structure ModelEventEnvelope where
  envelopeId : UUID
  payload : BaseModel
  correlationId : Option UUID
  /-- `metadata.tags` -/
  tags : List (String × String) := []
  eventType : Option String
  payloadType : Option String := none
deriving DecidableEq

/-- What is on the bus. -/
inductive Wire
  | envelope (e : ModelEventEnvelope)
  /-- not in an envelope -/
  | raw (json : String)
  /-- an event that is not in an envelope -/
  | bare (payload : BaseModel)
deriving DecidableEq

/-- What has been published, in order, and whether a failure has been reported. -/
structure Publication where
  published : List (String × Wire) := []
  failed : Bool
deriving DecidableEq

def causationIdTag : String := "causation_id"

/-- The name in the namespace of the correlation id. -/
def emissionName (payload : BaseModel) (idx : ℕ) : String :=
  payload.className ++ ":" ++ toString idx

/-- Envelopes are sent one after the other, until the text of one cannot be made. -/
def sendInOrder : List (String × ModelEventEnvelope) → Publication
  | [] => { failed := false }
  | (topic, envelope) :: rest =>
    match envelope.payload.json with
    | .error _ => { failed := true }
    | .ok _ =>
      let later := sendInOrder rest
      { later with published := (topic, .envelope envelope) :: later.published }

/-! ## `RuntimeDispatch` -/

/-- `DispatchRoute`, as far as it concerns what is sent. -/
structure DispatchRoute where
  name : String
  publishedEvents : PublishedEvents

section
variable (t : TextInterpreter) (uuid5 : UUID → String → UUID)

def wrapOutboundEnvelope (payload : BaseModel) (inbound : InboundEnvelope) (idx : ℕ)
    (topic : String) : Except ModelOnexError ModelEventEnvelope :=
  match (deriveEventTypeFromTopic topic).filter (· ≠ "") with
  | none =>
    .error
      { errorCode := .contractValidationError
        message := "RuntimeDispatch: refusing to emit fan-out event " ++ toString idx ++ " (" ++
          payload.className ++ ") to topic " ++ t.repr topic ++ " — the derived event_type is " ++
          "null/empty. A type-scoped consumer keys on event_type and would SILENTLY DROP this " ++
          "event (OMN-14743). Emit topics must follow " ++
          "'onex.\x7bkind\x7d.\x7bproducer\x7d.\x7bevent-name\x7d.v\x7bn\x7d'."
        context := [] }
  | some eventType =>
    match inbound.correlationId with
    | none =>
      .error
        { errorCode := .contractValidationError
          message := "RuntimeDispatch: refusing to emit fan-out event " ++ toString idx ++ " (" ++
            payload.className ++ ") — the inbound envelope carries no correlation_id, so a " ++
            "deterministic uuid5 envelope_id cannot be minted. The uuid4 fallback is banned " ++
            "(golden-chain reproducibility, plan section (f)); the inbound command must carry a " ++
            "correlation_id."
          context := [] }
    | some correlationId =>
      .ok
        { envelopeId := uuid5 correlationId (emissionName payload idx)
          payload
          correlationId := some correlationId
          tags := [(causationIdTag, inbound.envelopeId.str)]
          eventType := some eventType
          payloadType := some payload.className }

/-- `RuntimeDispatch._resolve_outbound`. -/
def resolveOutbound (route : DispatchRoute) :
    Result → Except ModelOnexError (List (String × BaseModel))
  | .none => .ok []
  | .model m => resolveFanoutTopics t route.publishedEvents [.model m] (some route.name)
  | .sequence elements => resolveFanoutTopics t route.publishedEvents elements (some route.name)
  | .dict _ => unsupported "dict"
  | .other typeName => unsupported typeName
where
  unsupported (typeName : String) : Except ModelOnexError (List (String × BaseModel)) :=
    .error
      { errorCode := .handlerExecutionError
        message := "RuntimeDispatch: handler " ++ t.repr route.name ++ " returned unsupported " ++
          "type " ++ t.repr typeName ++ "; a def-B handler returns a BaseModel (single emit), " ++
          "an ordered Sequence[BaseModel] (fan-out), or None."
        context := [] }

/-- The envelopes that `RuntimeDispatch._dispatch_one` builds before it sends any. -/
def outboundEnvelopes (route : DispatchRoute) (inbound : InboundEnvelope) (result : Result) :
    Except ModelOnexError (List (String × ModelEventEnvelope)) := do
  let pairs ← resolveOutbound t route result
  pairs.zipIdx.mapM fun ((topic, payload), idx) => do
    let envelope ← wrapOutboundEnvelope t uuid5 payload inbound idx topic
    return (topic, envelope)

/-- What `RuntimeDispatch._dispatch_one` does with what the handler has returned. -/
def RuntimeDispatch.publish (route : DispatchRoute) (inbound : InboundEnvelope)
    (result : Result) : Publication :=
  match outboundEnvelopes t uuid5 route inbound result with
  | .error _ => { failed := true }
  | .ok outbound => sendInOrder outbound

end

/-! ## `LocalRuntimeBusAdapter` -/

/-- `LocalRuntimeBusAdapter`, as far as it concerns what is published. -/
structure LocalRuntimeBusAdapter where
  handlerName : String
  outputTopic : Option String
  publishedEvents : PublishedEvents := []
  multiEventSeamEnabled : Bool := false

/-- `isinstance(value, str)`. -/
def strValue : Option (Json StrictJsonPrimitive) → Option String
  | some (.prim (.str s)) => some s
  | _ => none

def unwrapEnvelopeDict (decoded : List (String × Json StrictJsonPrimitive)) :
    List (String × Json StrictJsonPrimitive) × Option String :=
  if "envelope_id" ∈ decoded.map Prod.fst then
    match decoded.lookup "payload" with
    | some (.dict inner) => (inner, strValue (decoded.lookup "correlation_id"))
    | _ => (decoded, none)
  else (decoded, none)

/-- The correlation id that `on_message` reads from a decoded message. -/
def correlationIdOf (decoded : Json StrictJsonPrimitive) : Option String :=
  let decodedDict :=
    match decoded with
    | .dict entries => entries
    | _ => []
  let (payloadDict, envelopeCorrelation) := unwrapEnvelopeDict decodedDict
  match envelopeCorrelation.filter (· ≠ "") with
  | some correlationId => some correlationId
  | none => strValue (payloadDict.lookup "correlation_id")

section
variable (t : TextInterpreter) (uuid5 : UUID → String → UUID)

/-- `_coerce_correlation_uuid`, where `parse` is `UUID`. -/
def coerceCorrelationUuid (parse : String → Option UUID) (correlationId : Option String) :
    Option UUID :=
  (correlationId.filter (· ≠ "")).bind parse

def buildOutputEnvelope (payload : BaseModel) (eventType : String) (correlationUuid : Option UUID)
    (idx : ℕ) (uuid4 : UUID) : ModelEventEnvelope where
  envelopeId :=
    match correlationUuid with
    | some correlationId => uuid5 correlationId (emissionName payload idx)
    | none => uuid4
  payload := payload
  correlationId := correlationUuid
  eventType := some eventType

namespace LocalRuntimeBusAdapter

/-- The envelopes of `_publish_fanout`. The values of `uuid4` are numbered by the positions. -/
def fanoutEnvelopes (adapter : LocalRuntimeBusAdapter) (elements : List Element)
    (correlationUuid : Option UUID) (uuid4 : ℕ → UUID) :
    Except ModelOnexError (List (String × ModelEventEnvelope)) := do
  let emissions ← resolveFanoutEmissions t adapter.publishedEvents elements
    (some adapter.handlerName)
  return emissions.zipIdx.map fun ((topic, eventType, payload), idx) =>
    (topic, buildOutputEnvelope uuid5 payload eventType correlationUuid idx (uuid4 idx))

def publishFanout (adapter : LocalRuntimeBusAdapter) (elements : List Element)
    (correlationUuid : Option UUID) (uuid4 : ℕ → UUID) : Publication :=
  if adapter.multiEventSeamEnabled then
    match adapter.fanoutEnvelopes t uuid5 elements correlationUuid uuid4 with
    | .error _ => { failed := true }
    | .ok outbound => sendInOrder outbound
  else { failed := false }

def resolveSingleEmitTopic (adapter : LocalRuntimeBusAdapter) (result : Result) :
    Except ModelOnexError (Option String) :=
  match result with
  | .model m =>
    if adapter.multiEventSeamEnabled ∧ adapter.publishedEvents ≠ [] then
      (resolvePublishedTopic t adapter.publishedEvents m (some adapter.handlerName)).map some
    else .ok (adapter.outputTopic.filter (· ≠ ""))
  | _ => .ok (adapter.outputTopic.filter (· ≠ ""))

/-- The single-emit part of `on_message`. -/
def publishSingle (adapter : LocalRuntimeBusAdapter) (result : Result) : Publication :=
  match adapter.resolveSingleEmitTopic t result with
  | .error _ => { failed := true }
  | .ok none => { failed := false }
  | .ok (some topic) =>
    match result with
    | .model m =>
      match m.json with
      | .ok _ => { published := [(topic, .bare m)], failed := false }
      | .error _ => { failed := true }
    | .dict (.ok json) => { published := [(topic, .raw json)], failed := false }
    -- an unsupported type, or a `dict` that `json.dumps` does not take
    | _ => { failed := true }

/-- What `on_message` does with what the handler has returned. -/
def publish (adapter : LocalRuntimeBusAdapter) (correlationUuid : Option UUID)
    (uuid4 : ℕ → UUID) (result : Result) : Publication :=
  match result with
  | .none => { failed := false }
  | .sequence elements => adapter.publishFanout t uuid5 elements correlationUuid uuid4
  | _ => adapter.publishSingle t result

end LocalRuntimeBusAdapter

end

end OmnibaseCore.Dispatch
