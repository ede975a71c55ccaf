import OmnibaseCore.Dispatch.EmissionTheorems

/-!
# The two runtimes publish the same events

Whether a sequence of events is published, and with which topics and event types, depends on the
events and `published_events` only, so the two runtimes agree on sequences. A single event is
published by `LocalRuntimeBusAdapter` without an envelope.

* `sameEvents_iff`: on a single event they agree exactly if it cannot be published.
* `singleEvent_differs`: a single event that the adapter publishes without an event type.
-/

namespace OmnibaseCore.Dispatch

/-! ## What can be published -/

def BaseModel.Plain (m : BaseModel) : Prop :=
  m.className ∉ carrierClassNames ∧ ∀ topic, m.topic = some topic → strip topic = ""

/-- The element is an event that does not name its own topic. -/
def Element.Plain : Element → Prop
  | .model m => m.Plain
  | .other _ => False

def Element.payload : Element → BaseModel
  | .model m => m
  | .other typeName => { className := typeName, json := .ok "" }

/-- The topic that `published_events` has for an event. -/
def topicOf (publishedEvents : PublishedEvents) (m : BaseModel) : String :=
  (publishedTopic publishedEvents m.className).getD ""

def eventTypeOf (publishedEvents : PublishedEvents) (m : BaseModel) : String :=
  (deriveEventTypeFromTopic (topicOf publishedEvents m)).getD ""

def Published (publishedEvents : PublishedEvents) (m : BaseModel) : Prop :=
  (publishedTopic publishedEvents m.className).isSome ∧
    (deriveEventTypeFromTopic (topicOf publishedEvents m)).isSome

section
variable {t : TextInterpreter} {messageType : Option String} {publishedEvents : PublishedEvents}

theorem rejectCarrier_eq_ok_iff {m : BaseModel} {idx : ℕ} :
    rejectCarrier t m idx messageType = .ok () ↔ m.Plain := by
  unfold rejectCarrier BaseModel.Plain
  by_cases hcarrier : m.className ∈ carrierClassNames
  · rw [if_pos hcarrier]
    exact iff_of_false (fun h => nomatch h) fun h => h.1 hcarrier
  · rw [if_neg hcarrier]
    cases htopic : m.topic with
    | none => simp [hcarrier]
    | some topic =>
      by_cases hstrip : strip topic = ""
      · simp [hcarrier, hstrip]
      · simp [hcarrier, hstrip]

theorem normalizeElement_eq_ok_iff (x : Element × ℕ) (m : BaseModel) :
    normalizeElement t messageType x = .ok m ↔ x.1.Plain ∧ m = x.1.payload := by
  obtain ⟨element, idx⟩ := x
  cases element with
  | other typeName => exact iff_of_false (fun h => nomatch h) fun h => h.1
  | model m' =>
    unfold normalizeElement Element.Plain Element.payload
    dsimp only
    rw [bind_eq_ok_iff]
    constructor
    · intro ⟨_, hplain, hm⟩
      exact ⟨rejectCarrier_eq_ok_iff.mp hplain, (Except.ok.inj hm).symm⟩
    · intro ⟨hplain, hm⟩
      exact ⟨(), rejectCarrier_eq_ok_iff.mpr hplain, by rw [hm]; rfl⟩

theorem forall_mem_zipIdx {α : Type} {P : α → Prop} {l : List α} :
    (∀ x ∈ l.zipIdx, P x.1) ↔ ∀ a ∈ l, P a := by
  rw [← List.forall_mem_map, List.zipIdx_map_fst]

variable {elements : List Element}

theorem normalizeFanoutElements_eq_ok_iff {l : List BaseModel} :
    normalizeFanoutElements t elements messageType = .ok l ↔
      (∀ e ∈ elements, e.Plain) ∧ l = elements.map Element.payload := by
  unfold normalizeFanoutElements
  rw [mapM_eq_ok_iff normalizeElement_eq_ok_iff, forall_mem_zipIdx]
  rw [show (fun x : Element × ℕ => x.1.payload) = Element.payload ∘ Prod.fst from rfl,
    ← List.map_map, List.zipIdx_map_fst]

theorem resolveFanoutTopics_eq_ok_iff {pairs : List (String × BaseModel)} :
    resolveFanoutTopics t publishedEvents elements messageType = .ok pairs ↔
      ((∀ e ∈ elements, e.Plain) ∧
        ∀ e ∈ elements, (publishedTopic publishedEvents e.payload.className).isSome) ∧
      pairs = elements.map fun e => (topicOf publishedEvents e.payload, e.payload) := by
  have hturn : ∀ (m : BaseModel) (pair : String × BaseModel),
      (do let topic ← resolvePublishedTopic t publishedEvents m messageType
          return (topic, m) : Except ModelOnexError (String × BaseModel)) = .ok pair ↔
        (publishedTopic publishedEvents m.className).isSome ∧
          pair = (topicOf publishedEvents m, m) := by
    intro m pair
    unfold resolvePublishedTopic topicOf
    cases publishedTopic publishedEvents m.className with
    | none => exact iff_of_false (fun h => nomatch h) fun h => nomatch h.1
    | some topic => exact ⟨fun h => ⟨rfl, (Except.ok.inj h).symm⟩, fun h => by rw [h.2]; rfl⟩
  unfold resolveFanoutTopics
  rw [bind_eq_ok_iff]
  constructor
  · intro ⟨validated, hvalidated, hpairs⟩
    obtain ⟨hplain, rfl⟩ := normalizeFanoutElements_eq_ok_iff.mp hvalidated
    obtain ⟨htopics, rfl⟩ := (mapM_eq_ok_iff hturn).mp hpairs
    exact ⟨⟨hplain, List.forall_mem_map.mp htopics⟩, by rw [List.map_map]; rfl⟩
  · intro ⟨⟨hplain, htopics⟩, hpairs⟩
    refine ⟨_, normalizeFanoutElements_eq_ok_iff.mpr ⟨hplain, rfl⟩, ?_⟩
    rw [mapM_eq_ok_iff hturn, List.forall_mem_map, hpairs, List.map_map]
    exact ⟨htopics, rfl⟩

def Ready (publishedEvents : PublishedEvents) (elements : List Element) : Prop :=
  ∀ e ∈ elements, e.Plain ∧ Published publishedEvents e.payload

/-- What is seen of a published event: its topic, its event type and the event itself. -/
def sent (topic : String) (e : ModelEventEnvelope) : String × Option String × BaseModel :=
  (topic, e.eventType, e.payload)

def sentAll (publishedEvents : PublishedEvents) (elements : List Element) :
    List (String × Option String × BaseModel) :=
  elements.map fun e =>
    (topicOf publishedEvents e.payload, some (eventTypeOf publishedEvents e.payload), e.payload)

theorem deriveEventTypeFromTopic_ne_empty {topic : String} :
    deriveEventTypeFromTopic topic ≠ some "" := by
  intro h
  unfold deriveEventTypeFromTopic at h
  split at h
  · split_ifs at h
    have hlength := congrArg String.toList (Option.some.inj h)
    simp at hlength
  · cases h

variable {uuid5 : UUID → String → UUID}

theorem wrapOutboundEnvelope_eq_ok_iff {payload : BaseModel} {inbound : InboundEnvelope}
    {c : UUID} (hc : inbound.correlationId = some c) {idx : ℕ} {topic : String}
    (e : ModelEventEnvelope) :
    wrapOutboundEnvelope t uuid5 payload inbound idx topic = .ok e ↔
      (deriveEventTypeFromTopic topic).isSome ∧
        e =
          { envelopeId := uuid5 c (emissionName payload idx)
            payload
            correlationId := some c
            tags := [(causationIdTag, inbound.envelopeId.str)]
            eventType := some ((deriveEventTypeFromTopic topic).getD "")
            payloadType := some payload.className } := by
  unfold wrapOutboundEnvelope
  cases hderived : deriveEventTypeFromTopic topic with
  | none => exact iff_of_false (fun h => nomatch h) fun h => nomatch h.1
  | some eventType =>
    have hne : eventType ≠ "" := fun h => deriveEventTypeFromTopic_ne_empty (hderived.trans (by rw [h]))
    have hfilter : (some eventType).filter (· ≠ "") = some eventType := by simp [hne]
    rw [hfilter, hc]
    exact ⟨fun h => ⟨rfl, (Except.ok.inj h).symm⟩, fun h => by rw [h.2]; rfl⟩

theorem ready_iff :
    Ready publishedEvents elements ↔
      ((∀ e ∈ elements, e.Plain) ∧
          ∀ e ∈ elements, (publishedTopic publishedEvents e.payload.className).isSome) ∧
        ∀ pair ∈ elements.map fun e => (topicOf publishedEvents e.payload, e.payload),
          (deriveEventTypeFromTopic pair.1).isSome := by
  rw [List.forall_mem_map]
  constructor
  · intro h
    exact ⟨⟨fun e he => (h e he).1, fun e he => (h e he).2.1⟩, fun e he => (h e he).2.2⟩
  · intro ⟨⟨hplain, htopic⟩, hderived⟩ e he
    exact ⟨hplain e he, htopic e he, hderived e he⟩

/-- One turn of the loop over the resolved topics. -/
theorem wrapTurn_eq_ok_iff {inbound : InboundEnvelope} {c : UUID}
    (hc : inbound.correlationId = some c) (x : (String × BaseModel) × ℕ)
    (b : String × ModelEventEnvelope) :
    (match x with
      | ((topic, payload), idx) => do
        let envelope ← wrapOutboundEnvelope t uuid5 payload inbound idx topic
        return (topic, envelope) : Except ModelOnexError (String × ModelEventEnvelope)) = .ok b ↔
      (deriveEventTypeFromTopic x.1.1).isSome ∧
        b = (x.1.1,
          { envelopeId := uuid5 c (emissionName x.1.2 x.2)
            payload := x.1.2
            correlationId := some c
            tags := [(causationIdTag, inbound.envelopeId.str)]
            eventType := some ((deriveEventTypeFromTopic x.1.1).getD "")
            payloadType := some x.1.2.className }) := by
  obtain ⟨⟨topic, payload⟩, idx⟩ := x
  dsimp only
  rw [bind_eq_ok_iff]
  constructor
  · intro h
    obtain ⟨e, he, hb⟩ := h
    obtain ⟨hderived, rfl⟩ := (wrapOutboundEnvelope_eq_ok_iff hc e).mp he
    exact ⟨hderived, (Except.ok.inj hb).symm⟩
  · intro h
    exact ⟨_, (wrapOutboundEnvelope_eq_ok_iff hc _).mpr ⟨h.1, rfl⟩, by rw [h.2]; rfl⟩

theorem outboundEnvelopes_spec {route : DispatchRoute} {inbound : InboundEnvelope} {c : UUID}
    (hc : inbound.correlationId = some c) {result : Result} {elements : List Element}
    (hresult : resolveOutbound t route result
      = resolveFanoutTopics t route.publishedEvents elements (some route.name)) :
    (Ready route.publishedEvents elements →
        ∃ outbound, outboundEnvelopes t uuid5 route inbound result = .ok outbound) ∧
      ∀ outbound, outboundEnvelopes t uuid5 route inbound result = .ok outbound →
        Ready route.publishedEvents elements ∧
          outbound.map (fun x => sent x.1 x.2) = sentAll route.publishedEvents elements := by
  have hturn := @wrapTurn_eq_ok_iff t uuid5 inbound c hc
  unfold outboundEnvelopes
  rw [hresult]
  refine ⟨fun hready => ?_, fun outbound houtbound => ?_⟩
  · obtain ⟨hresolved, hderived⟩ := ready_iff.mp hready
    have hwrapped := (mapM_eq_ok_iff hturn).mpr ⟨forall_mem_zipIdx.mpr hderived, rfl⟩
    exact ⟨_, bind_eq_ok_iff.mpr
      ⟨_, resolveFanoutTopics_eq_ok_iff.mpr ⟨hresolved, rfl⟩, hwrapped⟩⟩
  · obtain ⟨pairs, hpairs, hwrapped⟩ := bind_eq_ok houtbound
    obtain ⟨hresolved, rfl⟩ := resolveFanoutTopics_eq_ok_iff.mp hpairs
    obtain ⟨hderived, rfl⟩ := (mapM_eq_ok_iff hturn).mp hwrapped
    refine ⟨ready_iff.mpr ⟨hresolved, forall_mem_zipIdx.mp hderived⟩, ?_⟩
    rw [List.map_map]
    show List.map ((fun pair : String × BaseModel =>
      (pair.1, some ((deriveEventTypeFromTopic pair.1).getD ""), pair.2)) ∘ Prod.fst) _ = _
    rw [← List.map_map, List.zipIdx_map_fst, List.map_map]
    rfl

/-- Outbound envelopes are made if and only if every element has a topic. -/
theorem fanoutEnvelopes_spec {adapter : LocalRuntimeBusAdapter} {elements : List Element}
    {correlationUuid : Option UUID} {uuid4 : ℕ → UUID} :
    (Ready adapter.publishedEvents elements →
        ∃ outbound, adapter.fanoutEnvelopes t uuid5 elements correlationUuid uuid4 = .ok outbound) ∧
      ∀ outbound, adapter.fanoutEnvelopes t uuid5 elements correlationUuid uuid4 = .ok outbound →
        Ready adapter.publishedEvents elements ∧
          outbound.map (fun x => sent x.1 x.2) = sentAll adapter.publishedEvents elements := by
  have hturn : ∀ (pair : String × BaseModel) (emission : String × String × BaseModel),
      emissionOf t (some adapter.handlerName) pair = .ok emission ↔
        (deriveEventTypeFromTopic pair.1).isSome ∧
          emission = (pair.1, (deriveEventTypeFromTopic pair.1).getD "", pair.2) := by
    intro ⟨topic, payload⟩ emission
    unfold emissionOf
    dsimp only
    cases deriveEventTypeFromTopic topic with
    | none => exact iff_of_false (fun h => nomatch h) fun h => nomatch h.1
    | some eventType => exact ⟨fun h => ⟨rfl, (Except.ok.inj h).symm⟩, fun h => by rw [h.2]; rfl⟩
  unfold LocalRuntimeBusAdapter.fanoutEnvelopes resolveFanoutEmissions
  refine ⟨fun hready => ?_, fun outbound houtbound => ?_⟩
  · obtain ⟨hresolved, hderived⟩ := ready_iff.mp hready
    have hemitted := (mapM_eq_ok_iff hturn).mpr ⟨hderived, rfl⟩
    exact ⟨_, bind_eq_ok_iff.mpr ⟨_, bind_eq_ok_iff.mpr
      ⟨_, resolveFanoutTopics_eq_ok_iff.mpr ⟨hresolved, rfl⟩, hemitted⟩, rfl⟩⟩
  · obtain ⟨emissions, hemissions, hbuilt⟩ := bind_eq_ok houtbound
    obtain ⟨pairs, hpairs, hemitted⟩ := bind_eq_ok hemissions
    obtain ⟨hresolved, rfl⟩ := resolveFanoutTopics_eq_ok_iff.mp hpairs
    obtain ⟨hderived, rfl⟩ := (mapM_eq_ok_iff hturn).mp hemitted
    refine ⟨ready_iff.mpr ⟨hresolved, hderived⟩, ?_⟩
    rw [← Except.ok.inj hbuilt, List.map_map]
    show List.map ((fun emission : String × String × BaseModel =>
      (emission.1, some emission.2.1, emission.2.2)) ∘ Prod.fst) _ = _
    rw [← List.map_map, List.zipIdx_map_fst, List.map_map, List.map_map]
    rfl

end

/-! ## What is seen on the bus -/

def Publication.events (p : Publication) : List (String × Option String × BaseModel) :=
  p.published.filterMap fun x =>
    match x with
    | (topic, .envelope e) => some (sent topic e)
    | (topic, .bare m) => some (topic, none, m)
    | (_, .raw _) => none

/-- Both have published the same events in one order, all with an event type, or none, and both or
neither have reported a failure. -/
def SameEvents (p q : Publication) : Prop :=
  p.failed = q.failed ∧ p.events = q.events ∧ ∀ event ∈ p.events, event.2.1 ≠ none

theorem sendInOrder_congr {outbound outbound' : List (String × ModelEventEnvelope)}
    (h : outbound.map (fun x => sent x.1 x.2) = outbound'.map fun x => sent x.1 x.2) :
    (sendInOrder outbound).failed = (sendInOrder outbound').failed ∧
      (sendInOrder outbound).events = (sendInOrder outbound').events := by
  induction outbound generalizing outbound' with
  | nil =>
    obtain rfl := List.map_eq_nil_iff.mp h.symm
    exact ⟨rfl, rfl⟩
  | cons x rest ih =>
    cases outbound' with
    | nil => cases h
    | cons x' rest' =>
      obtain ⟨topic, e⟩ := x
      obtain ⟨topic', e'⟩ := x'
      obtain ⟨hhead, htail⟩ := List.cons.inj h
      obtain ⟨hfailed, hevents⟩ := ih htail
      have hpayload : e.payload = e'.payload := congrArg (fun event => event.2.2) hhead
      unfold sendInOrder
      dsimp only
      rw [hpayload]
      cases e'.payload.json with
      | error _ => exact ⟨rfl, rfl⟩
      | ok _ => exact ⟨hfailed, congrArg₂ List.cons hhead hevents⟩

theorem sendInOrder_typed {outbound : List (String × ModelEventEnvelope)}
    (h : ∀ event ∈ outbound.map fun x => sent x.1 x.2, event.2.1 ≠ none) :
    ∀ event ∈ (sendInOrder outbound).events, event.2.1 ≠ none := by
  induction outbound with
  | nil => exact fun _ h => absurd h List.not_mem_nil
  | cons x rest ih =>
    obtain ⟨topic, e⟩ := x
    rw [List.map_cons, List.forall_mem_cons] at h
    unfold sendInOrder
    dsimp only
    cases e.payload.json with
    | error _ => exact fun _ h => absurd h List.not_mem_nil
    | ok _ => exact List.forall_mem_cons.mpr ⟨h.1, ih h.2⟩

theorem sentAll_typed {publishedEvents : PublishedEvents} {elements : List Element} :
    ∀ event ∈ sentAll publishedEvents elements, event.2.1 ≠ none := by
  intro event hevent
  obtain ⟨e, -, rfl⟩ := List.mem_map.mp hevent
  exact fun h => nomatch h

section
variable {t : TextInterpreter} {uuid5 : UUID → String → UUID} {route : DispatchRoute}
  {adapter : LocalRuntimeBusAdapter} {inbound : InboundEnvelope} {c : UUID}
  {correlationUuid : Option UUID} {uuid4 : ℕ → UUID}

/-- The two runtimes agree on sequences. -/
theorem sequence_sameEvents (hc : inbound.correlationId = some c)
    (hpublished : adapter.publishedEvents = route.publishedEvents)
    (hseam : adapter.multiEventSeamEnabled = true) (elements : List Element) :
    SameEvents (RuntimeDispatch.publish t uuid5 route inbound (.sequence elements))
      (adapter.publish t uuid5 correlationUuid uuid4 (.sequence elements)) := by
  obtain ⟨hdispatch, hdispatched⟩ := @outboundEnvelopes_spec t uuid5 route inbound c hc
    (.sequence elements) elements rfl
  obtain ⟨hadapter, hadapted⟩ := @fanoutEnvelopes_spec t uuid5 adapter elements correlationUuid uuid4
  rw [hpublished] at hadapter hadapted
  unfold RuntimeDispatch.publish
  show SameEvents _ (adapter.publishFanout t uuid5 elements correlationUuid uuid4)
  unfold LocalRuntimeBusAdapter.publishFanout
  rw [if_pos hseam]
  cases houtbound : outboundEnvelopes t uuid5 route inbound (.sequence elements) with
  | error _ =>
    cases hfanout : adapter.fanoutEnvelopes t uuid5 elements correlationUuid uuid4 with
    | error _ => exact ⟨rfl, rfl, fun _ h => (nomatch h)⟩
    | ok outbound =>
      obtain ⟨outbound', h⟩ := hdispatch (hadapted outbound hfanout).1
      exact nomatch houtbound.symm.trans h
  | ok outbound =>
    obtain ⟨hready, hsent⟩ := hdispatched outbound houtbound
    obtain ⟨outbound', hfanout⟩ := hadapter hready
    obtain ⟨-, hsent'⟩ := hadapted outbound' hfanout
    rw [hfanout]
    dsimp only
    obtain ⟨hfailed, hevents⟩ := sendInOrder_congr (hsent.trans hsent'.symm)
    refine ⟨hfailed, hevents, sendInOrder_typed ?_⟩
    rw [hsent]
    exact sentAll_typed

/-! ## A single event -/

/-- The adapter reports that it cannot publish a single event: the class is not among those of
`published_events`, or there is a topic and the event has no text. -/
def Unpublishable (publishedEvents : PublishedEvents) (outputTopic : Option String)
    (m : BaseModel) : Prop :=
  publishedEvents ≠ [] ∧ publishedTopic publishedEvents m.className = none ∨
    (∃ error, m.json = .error error) ∧
      (publishedEvents ≠ [] ∨ ∃ topic, outputTopic = some topic ∧ topic ≠ "")

theorem dispatch_single (hc : inbound.correlationId = some c) (m : BaseModel) :
    (RuntimeDispatch.publish t uuid5 route inbound (.model m) = { failed := true }) ∨
      (publishedTopic route.publishedEvents m.className).isSome ∧ (∃ json, m.json = .ok json) ∧
        ∃ topic e, RuntimeDispatch.publish t uuid5 route inbound (.model m)
          = { published := [(topic, .envelope e)], failed := false } := by
  obtain ⟨-, hdispatched⟩ := @outboundEnvelopes_spec t uuid5 route inbound c hc
    (.model m) [.model m] rfl
  unfold RuntimeDispatch.publish
  cases houtbound : outboundEnvelopes t uuid5 route inbound (.model m) with
  | error _ => exact Or.inl rfl
  | ok outbound =>
    obtain ⟨hready, hsent⟩ := hdispatched outbound houtbound
    obtain ⟨⟨topic, e⟩, rest, rfl, hhead, hrest⟩ := List.map_eq_cons_iff.mp hsent
    obtain rfl := List.map_eq_nil_iff.mp hrest
    have hpayload : e.payload = m := congrArg (fun event => event.2.2) hhead
    dsimp only
    unfold sendInOrder
    dsimp only
    rw [hpayload]
    cases hjson : m.json with
    | error _ => exact Or.inl rfl
    | ok json =>
      exact Or.inr ⟨(hready _ (List.mem_singleton.mpr rfl)).2.1, ⟨json, rfl⟩, topic, e, rfl⟩

/-- What the adapter does with a single event. -/
theorem adapter_single (hseam : adapter.multiEventSeamEnabled = true) (m : BaseModel) :
    let q := adapter.publish t uuid5 correlationUuid uuid4 (.model m)
    Unpublishable adapter.publishedEvents adapter.outputTopic m ∧ q = { failed := true } ∨
      ¬ Unpublishable adapter.publishedEvents adapter.outputTopic m ∧
        (q = { failed := false } ∨
          ∃ topic, q = { published := [(topic, .bare m)], failed := false }) := by
  intro q
  have hq : q = adapter.publishSingle t (.model m) := rfl
  unfold LocalRuntimeBusAdapter.publishSingle at hq
  -- with a topic, all depends on the text of the event
  have htopic : ∀ topic, adapter.resolveSingleEmitTopic t (.model m) = .ok (some topic) →
      (∃ error, m.json = .error error) ∧ q = { failed := true } ∨
        (∃ json, m.json = .ok json) ∧ q = { published := [(topic, .bare m)], failed := false } := by
    intro topic hresolved
    rw [hresolved] at hq
    dsimp only at hq
    cases hjson : m.json with
    | error error =>
      rw [hjson] at hq
      exact Or.inl ⟨⟨error, rfl⟩, hq⟩
    | ok json =>
      rw [hjson] at hq
      exact Or.inr ⟨⟨json, rfl⟩, hq⟩
  unfold Unpublishable
  by_cases hempty : adapter.publishedEvents = []
  · have hresolved : adapter.resolveSingleEmitTopic t (.model m)
        = .ok (adapter.outputTopic.filter (· ≠ "")) := by
      unfold LocalRuntimeBusAdapter.resolveSingleEmitTopic
      simp [hempty]
    cases houtput : adapter.outputTopic.filter (· ≠ "") with
    | none =>
      rw [hresolved, houtput] at hq
      refine Or.inr ⟨fun h => ?_, Or.inl hq⟩
      rcases h with ⟨hne, -⟩ | ⟨-, hne | ⟨topic, htopic, hne⟩⟩
      · exact hne hempty
      · exact hne hempty
      · simp [htopic, hne] at houtput
    | some topic =>
      obtain ⟨houtputTopic, hne⟩ := Option.filter_eq_some_iff.mp houtput
      rcases htopic topic (by rw [hresolved, houtput]) with ⟨herror, hq⟩ | ⟨⟨json, hjson⟩, hq⟩
      · exact Or.inl ⟨Or.inr ⟨herror, Or.inr ⟨topic, houtputTopic, by simpa using hne⟩⟩, hq⟩
      · refine Or.inr ⟨fun h => ?_, Or.inr ⟨topic, hq⟩⟩
        rcases h with ⟨hne, -⟩ | ⟨⟨error, herror⟩, -⟩
        · exact hne hempty
        · exact nomatch hjson.symm.trans herror
  · have hresolved : adapter.resolveSingleEmitTopic t (.model m)
        = (resolvePublishedTopic t adapter.publishedEvents m (some adapter.handlerName)).map
          some := by
      unfold LocalRuntimeBusAdapter.resolveSingleEmitTopic
      simp [hempty, hseam]
    unfold resolvePublishedTopic at hresolved
    cases hpublished : publishedTopic adapter.publishedEvents m.className with
    | none =>
      rw [hpublished] at hresolved
      rw [hresolved] at hq
      exact Or.inl ⟨Or.inl ⟨hempty, rfl⟩, hq⟩
    | some topic =>
      rw [hpublished] at hresolved
      rcases htopic topic hresolved with ⟨herror, hq⟩ | ⟨⟨json, hjson⟩, hq⟩
      · exact Or.inl ⟨Or.inr ⟨herror, Or.inl hempty⟩, hq⟩
      · refine Or.inr ⟨fun h => ?_, Or.inr ⟨topic, hq⟩⟩
        rcases h with ⟨-, hnone⟩ | ⟨⟨error, herror⟩, -⟩
        · exact nomatch hnone
        · exact nomatch hjson.symm.trans herror

end

/-- On events in a sequence the two runtimes agree. On a single event they agree if and only if the
adapter reports that it cannot publish it. -/
theorem sameEvents_iff (t : TextInterpreter) (uuid5 : UUID → String → UUID) (route : DispatchRoute)
    (adapter : LocalRuntimeBusAdapter) (inbound : InboundEnvelope)
    (correlationUuid : Option UUID) (uuid4 : ℕ → UUID) (result : Result)
    (hc : inbound.correlationId.isSome = true)
    (hpublished : adapter.publishedEvents = route.publishedEvents)
    (hseam : adapter.multiEventSeamEnabled = true)
    (hresult : (∃ elements, result = .sequence elements) ∨ ∃ m, result = .model m) :
    SameEvents (RuntimeDispatch.publish t uuid5 route inbound result)
        (adapter.publish t uuid5 correlationUuid uuid4 result) ↔
      (∃ elements, result = .sequence elements) ∨
        ∃ m, result = .model m ∧
          Unpublishable route.publishedEvents adapter.outputTopic m := by
  obtain ⟨c, hc⟩ := Option.isSome_iff_exists.mp hc
  rcases hresult with ⟨elements, rfl⟩ | ⟨m, rfl⟩
  · exact iff_of_true (sequence_sameEvents hc hpublished hseam elements) (Or.inl ⟨elements, rfl⟩)
  · have hcondition : ((∃ elements, Result.model m = .sequence elements) ∨
        ∃ m', Result.model m = .model m' ∧
          Unpublishable route.publishedEvents adapter.outputTopic m') ↔
        Unpublishable route.publishedEvents adapter.outputTopic m := by
      simp
    rw [hcondition]
    have hdispatch := @dispatch_single t uuid5 route inbound c hc m
    have hadapter := @adapter_single t uuid5 adapter correlationUuid uuid4 hseam m
    dsimp only at hadapter
    rw [hpublished] at hadapter
    rcases hadapter with ⟨hun, hq⟩ | ⟨hpub, hq⟩
    · refine iff_of_true ?_ hun
      have hfailed : RuntimeDispatch.publish t uuid5 route inbound (.model m)
          = { failed := true } := by
        refine hdispatch.resolve_right fun ⟨htopic, ⟨json, hjson⟩, _⟩ => ?_
        rcases hun with ⟨-, hnone⟩ | ⟨⟨error, herror⟩, -⟩
        · rw [hnone] at htopic
          cases htopic
        · exact nomatch hjson.symm.trans herror
      rw [hfailed, hq]
      exact ⟨rfl, rfl, fun _ h => (nomatch h)⟩
    · refine iff_of_false (fun hsame => ?_) hpub
      rcases hdispatch with hp | ⟨-, -, topic, e, hp⟩
      · have hfailed := hsame.1
        rw [hp] at hfailed
        rcases hq with hq | ⟨topic, hq⟩ <;> rw [hq] at hfailed <;> exact nomatch hfailed
      · rw [hp] at hsame
        rcases hq with hq | ⟨topic', hq⟩
        · rw [hq] at hsame
          exact nomatch hsame.2.1
        · rw [hq] at hsame
          have htyped := hsame.2.2 _ (List.mem_singleton.mpr rfl)
          have hevent := (List.cons.inj hsame.2.1).1
          exact htyped (congrArg (fun event => event.2.1) hevent)

/-! ## The invoice -/

def invoiceAdapter : LocalRuntimeBusAdapter where
  handlerName := "node_invoice"
  outputTopic := none
  publishedEvents := invoiceRoute.publishedEvents
  multiEventSeamEnabled := true

/-- The runtimes agree on an invoice in a sequence. -/
theorem invoices_sameEvents :
    SameEvents
      (RuntimeDispatch.publish asciiText (fun _ _ => invoiceId) invoiceRoute
        { envelopeId := ⟨1⟩, correlationId := orderCorrelation }
        (.sequence [.model (invoiceRequested "A")]))
      (invoiceAdapter.publish asciiText (fun _ _ => invoiceId) (some orderCorrelation)
        (fun _ => ⟨0⟩) (.sequence [.model (invoiceRequested "A")])) :=
  (sameEvents_iff asciiText (fun _ _ => invoiceId) invoiceRoute invoiceAdapter
    { envelopeId := ⟨1⟩, correlationId := orderCorrelation } (some orderCorrelation)
    (fun _ => ⟨0⟩) (.sequence [.model (invoiceRequested "A")]) rfl rfl rfl
    (Or.inl ⟨_, rfl⟩)).mpr (Or.inl ⟨_, rfl⟩)

/-- A single invoice is published by one runtime with its event type, by the other without. -/
theorem singleEvent_differs :
    assertPublishedEventsInjective asciiText invoiceRoute.publishedEvents "node_invoice" = .ok () ∧
      ¬ SameEvents
        (RuntimeDispatch.publish asciiText (fun _ _ => invoiceId) invoiceRoute
          { envelopeId := ⟨1⟩, correlationId := orderCorrelation }
          (.model (invoiceRequested "A")))
        (invoiceAdapter.publish asciiText (fun _ _ => invoiceId) (some orderCorrelation)
          (fun _ => ⟨0⟩) (.model (invoiceRequested "A"))) := by
  refine ⟨by decide +kernel, fun hsame => ?_⟩
  have hevents : (invoiceAdapter.publish asciiText (fun _ _ => invoiceId) (some orderCorrelation)
      (fun _ => ⟨0⟩) (.model (invoiceRequested "A"))).events
        = [("onex.cmd.billing.invoice-requested.v1", none, invoiceRequested "A")] := by
    decide +kernel
  have htyped := hsame.2.2
  rw [hsame.2.1, hevents] at htyped
  exact htyped _ (List.mem_singleton.mpr rfl) rfl

end OmnibaseCore.Dispatch
