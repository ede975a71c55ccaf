import OmnibaseCore.Dispatch.Envelope
import OmnibaseCore.Json.Unambiguous

/-!
# The identifiers of outbound envelopes

The identifier of an envelope is made from the correlation id of the inbound message, the class of
the payload and its position. It has nothing of the message itself, nor of the node.

* `idsIdentify_iff`: the identifiers tell events apart, and redeliveries together, exactly if two
  deliveries agree in correlation id and class at a position just when they are deliveries of one
  message to one node.
* `sharedCorrelation_collides`: two orders of one correlation lead to two events with one
  identifier.
-/

namespace OmnibaseCore.Dispatch

/-! ## Names -/

/-- The position is what follows the last colon. -/
theorem emissionName_inj {payload payload' : BaseModel} {i i' : ℕ} :
    emissionName payload i = emissionName payload' i' ↔
      payload.className = payload'.className ∧ i = i' := by
  refine ⟨fun h => ?_, fun ⟨hclass, hi⟩ => by unfold emissionName; rw [hclass, hi]⟩
  have hcolon : ∀ n : ℕ, ':' ∉ (toString n).toList.reverse := by
    intro n hmem
    exact absurd (isDigit_of_mem_natRepr (List.mem_reverse.mp hmem)) (by decide)
  have hchars : ∀ (p : BaseModel) n, (emissionName p n).toList.reverse
      = (toString n).toList.reverse ++ ':' :: p.className.toList.reverse := by
    intro p n
    simp [emissionName]
  have hindex : ∀ (p : BaseModel) n,
      (emissionName p n).toList.reverse.takeWhile (· ≠ ':') = (toString n).toList.reverse := by
    intro p n
    rw [hchars, List.takeWhile_append_of_pos fun c hc => ?_]
    · simp
    · simpa using fun hc' : c = ':' => hcolon n (hc' ▸ hc)
  have hdigits : toString i = toString i' := by
    rw [← String.toList_inj, ← List.reverse_inj, ← hindex payload, h, hindex]
  have hi : i = i' := natRepr_inj hdigits
  subst hi
  have hclass := hchars payload i
  rw [h, hchars] at hclass
  have hrest := (List.cons.inj (List.append_cancel_left hclass)).2
  exact ⟨String.toList_inj.mp (List.reverse_inj.mp hrest).symm, rfl⟩

/-! ## What is sent -/

variable {i : ℕ}

theorem sendInOrder_published {outbound : List (String × ModelEventEnvelope)}
    {topic : String} {wire : Wire}
    (h : (sendInOrder outbound).published[i]? = some (topic, wire)) :
    ∃ e, wire = .envelope e ∧ outbound[i]? = some (topic, e) := by
  induction outbound generalizing i with
  | nil => cases h
  | cons sent rest ih =>
    obtain ⟨topic', e⟩ := sent
    unfold sendInOrder at h
    dsimp only at h
    cases hjson : e.payload.json with
    | error _ =>
      rw [hjson] at h
      cases h
    | ok json =>
      rw [hjson] at h
      cases i with
      | zero =>
        obtain ⟨rfl, rfl⟩ := Prod.mk.inj (Option.some.inj h)
        exact ⟨e, rfl, rfl⟩
      | succ i =>
        obtain ⟨e', hwire, hrest⟩ := ih h
        exact ⟨e', hwire, hrest⟩

theorem getElem?_of_mapM_ok {ε α β : Type} {f : α → Except ε β} {l : List α} {l' : List β}
    (h : l.mapM f = .ok l') {b : β} (hb : l'[i]? = some b) :
    ∃ a, l[i]? = some a ∧ f a = .ok b := by
  induction l generalizing l' i with
  | nil =>
    cases h
    cases hb
  | cons a l ih =>
    rw [List.mapM_cons] at h
    obtain ⟨b', hb', h⟩ := bind_eq_ok h
    obtain ⟨bs, hbs, h⟩ := bind_eq_ok h
    obtain rfl := Except.ok.inj h
    cases i with
    | zero =>
      obtain rfl := Option.some.inj hb
      exact ⟨a, rfl, hb'⟩
    | succ i => exact ih hbs hb

section
variable {t : TextInterpreter} {uuid5 : UUID → String → UUID}

variable {topic : String}

variable {e : ModelEventEnvelope}

theorem wrapOutboundEnvelope_eq_ok {payload : BaseModel} {inbound : InboundEnvelope} {idx : ℕ}
    (h : wrapOutboundEnvelope t uuid5 payload inbound idx topic = .ok e) :
    ∃ c, inbound.correlationId = some c ∧
      e.envelopeId = uuid5 c (emissionName e.payload idx) := by
  unfold wrapOutboundEnvelope at h
  cases hderived : (deriveEventTypeFromTopic topic).filter (· ≠ "") with
  | none => rw [hderived] at h; cases h
  | some eventType =>
    rw [hderived] at h
    dsimp only at h
    cases hcorrelation : inbound.correlationId with
    | none => rw [hcorrelation] at h; cases h
    | some c =>
      rw [hcorrelation] at h
      obtain rfl := Except.ok.inj h
      exact ⟨c, rfl, rfl⟩

theorem dispatch_envelopeId {route : DispatchRoute} {inbound : InboundEnvelope} {result : Result}
    (h : (RuntimeDispatch.publish t uuid5 route inbound result).published[i]?
      = some (topic, .envelope e)) :
    ∃ c, inbound.correlationId = some c ∧ e.envelopeId = uuid5 c (emissionName e.payload i) := by
  unfold RuntimeDispatch.publish at h
  cases houtbound : outboundEnvelopes t uuid5 route inbound result with
  | error _ => rw [houtbound] at h; cases h
  | ok outbound =>
    rw [houtbound] at h
    obtain ⟨e', he, hsent⟩ := sendInOrder_published h
    injection he with he
    subst he
    unfold outboundEnvelopes at houtbound
    obtain ⟨pairs, -, hwrapped⟩ := bind_eq_ok houtbound
    obtain ⟨⟨⟨topic', payload⟩, idx⟩, hpair, hbody⟩ := getElem?_of_mapM_ok hwrapped hsent
    obtain ⟨e', hwrap, hsame⟩ := bind_eq_ok hbody
    obtain ⟨rfl, rfl⟩ := Prod.mk.inj (Except.ok.inj hsame)
    rw [List.getElem?_zipIdx] at hpair
    obtain ⟨pair, -, hpair⟩ := Option.map_eq_some_iff.mp hpair
    have hi : i = idx := by simpa using congrArg Prod.snd hpair
    rw [hi]
    exact wrapOutboundEnvelope_eq_ok hwrap

theorem single_not_envelope (adapter : LocalRuntimeBusAdapter) (result : Result) :
    (adapter.publishSingle t result).published[i]? ≠ some (topic, .envelope e) := by
  intro h
  have hmem := List.mem_of_getElem? h
  unfold LocalRuntimeBusAdapter.publishSingle at hmem
  cases hresolved : adapter.resolveSingleEmitTopic t result with
  | error _ => rw [hresolved] at hmem; cases hmem
  | ok resolved =>
    rw [hresolved] at hmem
    cases resolved with
    | none => cases hmem
    | some topic' =>
      dsimp only at hmem
      split at hmem
      · split at hmem
        · simp at hmem
        · cases hmem
      · simp at hmem
      · cases hmem

theorem adapter_envelopeId {adapter : LocalRuntimeBusAdapter} {correlationUuid : Option UUID}
    {uuid4 : ℕ → UUID} {result : Result}
    (h : (adapter.publish t uuid5 correlationUuid uuid4 result).published[i]?
      = some (topic, .envelope e)) : e.envelopeId = correlationUuid.elim (uuid4 i) fun c =>
      uuid5 c (emissionName e.payload i) := by
  cases result with
  | none => cases h
  | sequence elements =>
    change (adapter.publishFanout t uuid5 elements correlationUuid uuid4).published[i]? = _ at h
    unfold LocalRuntimeBusAdapter.publishFanout at h
    split_ifs at h with hseam
    · cases houtbound : adapter.fanoutEnvelopes t uuid5 elements correlationUuid uuid4 with
      | error _ => rw [houtbound] at h; cases h
      | ok outbound =>
        rw [houtbound] at h
        obtain ⟨e', he, hsent⟩ := sendInOrder_published h
        injection he with he
        subst he
        unfold LocalRuntimeBusAdapter.fanoutEnvelopes at houtbound
        obtain ⟨emissions, -, hbuilt⟩ := bind_eq_ok houtbound
        rw [← Except.ok.inj hbuilt, List.getElem?_map] at hsent
        obtain ⟨⟨⟨topic', eventType, payload⟩, idx⟩, hemission, hsame⟩ :=
          Option.map_eq_some_iff.mp hsent
        rw [List.getElem?_zipIdx] at hemission
        obtain ⟨emission, -, hemission⟩ := Option.map_eq_some_iff.mp hemission
        have hi : i = idx := by simpa using congrArg Prod.snd hemission
        obtain ⟨-, rfl⟩ := Prod.mk.inj hsame
        subst hi
        cases correlationUuid <;> rfl
    · cases h
  | model m => exact absurd h (single_not_envelope adapter _)
  | dict json => exact absurd h (single_not_envelope adapter _)
  | other typeName => exact absurd h (single_not_envelope adapter _)

end

/-! ## Deliveries -/

inductive Node
  | dispatch (route : DispatchRoute)
  | adapter (adapter : LocalRuntimeBusAdapter)

structure InboundMessage where
  /-- `json.loads(msg.value)` -/
  decoded : Json StrictJsonPrimitive
  /-- `decode_inbound_envelope(message.value)`, if it returns -/
  envelope : Option InboundEnvelope

/-- Messages are delivered to nodes, any of them to several nodes and several times. -/
structure Deliveries (ι μ ν : Type) where
  content : μ → InboundMessage
  runtime : ν → Node
  message : ι → μ
  node : ι → ν
  /-- what the handler returns -/
  result : ι → Result
  /-- the values of `uuid4` while the delivery is handled -/
  uuid4 : ι → ℕ → UUID

namespace Deliveries

section
variable {ι μ ν : Type} (t : TextInterpreter) (uuid5 : UUID → String → UUID)
  (parse : String → Option UUID) (w : Deliveries ι μ ν)

def correlation (d : ι) : Option UUID :=
  match w.runtime (w.node d) with
  | .dispatch _ => (w.content (w.message d)).envelope.bind InboundEnvelope.correlationId
  | .adapter _ => coerceCorrelationUuid parse (correlationIdOf (w.content (w.message d)).decoded)

def publication (d : ι) : Publication :=
  match w.runtime (w.node d) with
  | .dispatch route =>
    match (w.content (w.message d)).envelope with
    | none => { failed := true }
    | some inbound => RuntimeDispatch.publish t uuid5 route inbound (w.result d)
  | .adapter adapter => adapter.publish t uuid5 (w.correlation parse d) (w.uuid4 d) (w.result d)

/-- At a position of what the handler has returned, the delivery leads to an envelope. -/
def Emits (d : ι) (i : ℕ) (e : ModelEventEnvelope) : Prop :=
  ∃ topic, (w.publication t uuid5 parse d).published[i]? = some (topic, .envelope e)

def SameSource (d d' : ι) : Prop := w.message d = w.message d' ∧ w.node d = w.node d'

/-- Two envelopes have one identifier if and only if they are at the same position for the same
message. -/
def IdsIdentify : Prop :=
  ∀ d d' i i' e e', w.Emits t uuid5 parse d i e → w.Emits t uuid5 parse d' i' e' →
    (e.envelopeId = e'.envelopeId ↔ w.SameSource d d' ∧ i = i')

/-- `uuid5` is injective on the names that are used, and `uuid4` makes identifiers that have not
been made before. -/
structure FreshIds : Prop where
  uuid5_inj : ∀ d d' i i' e e' c c', w.Emits t uuid5 parse d i e → w.Emits t uuid5 parse d' i' e' →
    w.correlation parse d = some c → w.correlation parse d' = some c' →
    uuid5 c (emissionName e.payload i) = uuid5 c' (emissionName e'.payload i') →
      c = c' ∧ emissionName e.payload i = emissionName e'.payload i'
  uuid4_inj : ∀ d d' i i' e e', w.Emits t uuid5 parse d i e → w.Emits t uuid5 parse d' i' e' →
    w.correlation parse d = none → w.correlation parse d' = none →
    w.uuid4 d i = w.uuid4 d' i' → d = d' ∧ i = i'
  uuid4_ne : ∀ d d' i i' e e' c', w.Emits t uuid5 parse d i e → w.Emits t uuid5 parse d' i' e' →
    w.correlation parse d = none → w.correlation parse d' = some c' →
    w.uuid4 d i ≠ uuid5 c' (emissionName e'.payload i')

end

section
variable {ι μ ν : Type} {t : TextInterpreter} {uuid5 : UUID → String → UUID}
  {parse : String → Option UUID} {w : Deliveries ι μ ν} {d d' : ι} {i i' : ℕ}
  {e e' : ModelEventEnvelope}

theorem Emits.envelopeId (h : w.Emits t uuid5 parse d i e) :
    e.envelopeId = (w.correlation parse d).elim (w.uuid4 d i) fun c =>
      uuid5 c (emissionName e.payload i) := by
  obtain ⟨topic, h⟩ := h
  unfold publication at h
  unfold correlation
  cases hruntime : w.runtime (w.node d) with
  | dispatch route =>
    rw [hruntime] at h
    dsimp only at h ⊢
    cases henvelope : (w.content (w.message d)).envelope with
    | none => rw [henvelope] at h; cases h
    | some inbound =>
      rw [henvelope] at h
      obtain ⟨c, hc, hid⟩ := dispatch_envelopeId h
      rw [Option.bind_some, hc]
      exact hid
  | adapter adapter =>
    rw [hruntime] at h
    have hcorrelation : w.correlation parse d
        = coerceCorrelationUuid parse (correlationIdOf (w.content (w.message d)).decoded) := by
      unfold correlation
      rw [hruntime]
    rw [hcorrelation] at h
    exact adapter_envelopeId h

theorem Emits.unique (h : w.Emits t uuid5 parse d i e) (h' : w.Emits t uuid5 parse d i e') :
    e = e' := by
  obtain ⟨topic, h⟩ := h
  obtain ⟨topic', h'⟩ := h'
  have hsame := Option.some.inj (h.symm.trans h')
  injection (Prod.mk.inj hsame).2

/-- Two deliveries with one correlation id whose events at a position are of one class. -/
def Agree (parse : String → Option UUID) (w : Deliveries ι μ ν) (d d' : ι)
    (e e' : ModelEventEnvelope) : Prop :=
  d = d' ∨ ∃ c, w.correlation parse d = some c ∧ w.correlation parse d' = some c ∧
    e.payload.className = e'.payload.className

/-- Two envelopes have one id if and only if they agree and stand at one position. -/
theorem envelopeId_eq_iff (hfresh : w.FreshIds t uuid5 parse) (h : w.Emits t uuid5 parse d i e)
    (h' : w.Emits t uuid5 parse d' i' e') :
    e.envelopeId = e'.envelopeId ↔ Agree parse w d d' e e' ∧ i = i' := by
  have hid := h.envelopeId
  have hid' := h'.envelopeId
  constructor
  · intro hsame
    rw [hid, hid'] at hsame
    cases hc : w.correlation parse d with
    | none =>
      cases hc' : w.correlation parse d' with
      | none =>
        rw [hc, hc'] at hsame
        obtain ⟨hd, hi⟩ := hfresh.uuid4_inj d d' i i' e e' h h' hc hc' hsame
        exact ⟨Or.inl hd, hi⟩
      | some c' =>
        rw [hc, hc'] at hsame
        exact absurd hsame (hfresh.uuid4_ne d d' i i' e e' c' h h' hc hc')
    | some c =>
      cases hc' : w.correlation parse d' with
      | none =>
        rw [hc, hc'] at hsame
        exact absurd hsame.symm (hfresh.uuid4_ne d' d i' i e' e c h' h hc' hc)
      | some c' =>
        rw [hc, hc'] at hsame
        obtain ⟨rfl, hname⟩ := hfresh.uuid5_inj d d' i i' e e' c c' h h' hc hc' hsame
        obtain ⟨hclass, hi⟩ := emissionName_inj.mp hname
        exact ⟨Or.inr ⟨c, hc, hc', hclass⟩, hi⟩
  · intro ⟨hagree, hi⟩
    subst hi
    rcases hagree with rfl | ⟨c, hc, hc', hclass⟩
    · rw [h.unique h']
    · rw [hid, hid', hc, hc', Option.elim_some, Option.elim_some,
        emissionName_inj.mpr ⟨hclass, rfl⟩]

/-- The identifiers identify the events if and only if two deliveries agree at a position, in their
correlation ids and in the classes of their events, just when they are deliveries of one message to
one node. -/
theorem idsIdentify_iff (hfresh : w.FreshIds t uuid5 parse) :
    w.IdsIdentify t uuid5 parse ↔
      ∀ d d' i e e', w.Emits t uuid5 parse d i e → w.Emits t uuid5 parse d' i e' →
        (Agree parse w d d' e e' ↔ w.SameSource d d') := by
  constructor
  · intro hids d d' i e e' h h'
    have hid := hids d d' i i e e' h h'
    rw [envelopeId_eq_iff hfresh h h'] at hid
    simpa using hid
  · intro hagree d d' i i' e e' h h'
    rw [envelopeId_eq_iff hfresh h h']
    by_cases hi : i = i'
    · subst hi
      rw [hagree d d' i e e' h h']
    · exact iff_of_false (fun h => hi h.2) fun h => hi h.2

end

end Deliveries

/-! ## One correlation -/

def invoiceRoute : DispatchRoute where
  name := "node_invoice"
  publishedEvents := [("InvoiceRequested", "onex.cmd.billing.invoice-requested.v1")]

def invoiceRequested (order : String) : BaseModel where
  className := "ModelInvoiceRequested"
  json := .ok order

def orderCorrelation : UUID := ⟨0x0b7c1e5a9d2f4c638a115f3e2d4c6b7a⟩

/-- `uuid5(orderCorrelation, "ModelInvoiceRequested:0")`. -/
def invoiceId : UUID := ⟨0x07a1180bf5f45a1194c992068a5cbd03⟩

def orders (message : Bool → Bool) : Deliveries Bool Bool Unit where
  content order :=
    { decoded := .null
      envelope := some { envelopeId := ⟨if order then 1 else 2⟩, correlationId := orderCorrelation } }
  runtime _ := .dispatch invoiceRoute
  message := message
  node _ := ()
  result d := .model (invoiceRequested (if message d then "A" else "B"))
  uuid4 _ _ := ⟨0⟩

def invoiceEnvelope (order : Bool) : ModelEventEnvelope where
  envelopeId := invoiceId
  payload := invoiceRequested (if order then "A" else "B")
  correlationId := orderCorrelation
  tags := [(causationIdTag, UUID.str ⟨if order then 1 else 2⟩)]
  eventType := "billing.invoice-requested"
  payloadType := "ModelInvoiceRequested"

theorem orders_publication (message : Bool → Bool) (d : Bool) :
    (orders message).publication asciiText (fun _ _ => invoiceId) (fun _ => none) d
      = { published := [("onex.cmd.billing.invoice-requested.v1",
            .envelope (invoiceEnvelope (message d)))]
          failed := false } := by
  have h : ∀ order, RuntimeDispatch.publish asciiText (fun _ _ => invoiceId) invoiceRoute
      { envelopeId := ⟨if order then 1 else 2⟩, correlationId := orderCorrelation }
      (.model (invoiceRequested (if order then "A" else "B")))
        = { published := [("onex.cmd.billing.invoice-requested.v1",
              .envelope (invoiceEnvelope order))]
            failed := false } := by
    decide +kernel
  exact h (message d)

theorem orders_emits {message : Bool → Bool} {d : Bool} {e : ModelEventEnvelope} :
    (orders message).Emits asciiText (fun _ _ => invoiceId) (fun _ => none) d i e ↔
      i = 0 ∧ e = invoiceEnvelope (message d) := by
  unfold Deliveries.Emits
  rw [orders_publication]
  cases i with
  | zero => simp [eq_comm]
  | succ i => simp

/-- A redelivery is recognised. -/
theorem redelivery_identified :
    (orders fun _ => true).IdsIdentify asciiText (fun _ _ => invoiceId) (fun _ => none) := by
  have hfresh : (orders fun _ => true).FreshIds asciiText (fun _ _ => invoiceId)
      (fun _ => none) := by
    refine ⟨fun d d' i i' e e' c c' h h' hc hc' _ => ?_,
      fun d d' i i' e e' _ _ hc => (nomatch hc), fun d d' i i' e e' c' _ _ hc => (nomatch hc)⟩
    obtain ⟨rfl, rfl⟩ := orders_emits.mp h
    obtain ⟨rfl, rfl⟩ := orders_emits.mp h'
    exact ⟨Option.some.inj (hc.symm.trans hc'), rfl⟩
  refine (Deliveries.idsIdentify_iff hfresh).mpr fun d d' i e e' h h' => ?_
  obtain ⟨-, rfl⟩ := orders_emits.mp h
  obtain ⟨-, rfl⟩ := orders_emits.mp h'
  exact iff_of_true (Or.inr ⟨orderCorrelation, rfl, rfl, rfl⟩) ⟨rfl, rfl⟩

/-- Two different orders are asked to be invoiced under one identifier. -/
theorem sharedCorrelation_collides :
    ¬ (orders id).IdsIdentify asciiText (fun _ _ => invoiceId) (fun _ => none) := by
  intro hids
  have hsame := (hids true false 0 0 _ _ (orders_emits.mpr ⟨rfl, rfl⟩)
    (orders_emits.mpr ⟨rfl, rfl⟩)).mp rfl
  exact absurd hsame.1.1 (by decide)

end OmnibaseCore.Dispatch
