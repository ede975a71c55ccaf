import OmnibaseCore.Normalization.ExtraFields

/-!
# Normalizing twice

Every step of the pipeline leaves alone what it has made. A reference that is hoisted from the
block `handler` comes after the step for references, so a contract is left alone when it is
normalized again exactly if no reference to a module and a name is hoisted:
`normalizesOnce_iff`.
-/

namespace OmnibaseCore.Normalization

/-! ## Assignments -/

theorem setItem_setItem_self {κ ν : Type} [DecidableEq κ] (d : List (κ × ν)) (e : κ × ν) :
    Dict.setItem (Dict.setItem d e) e = Dict.setItem d e := by
  have hmem : e.1 ∈ Dict.keys (Dict.setItem d e) := Dict.mem_keys_setItem d e |>.mpr (Or.inl rfl)
  rw [Dict.setItem_of_mem hmem]
  apply (List.map_congr_left fun e' he' => ?_).trans (List.map_id _)
  show (if e'.1 = e.1 then e else e') = e'
  split_ifs with hkey
  · -- the value at the key is the one that has been set
    by_cases hin : e.1 ∈ Dict.keys d
    · rw [Dict.setItem_of_mem hin, List.mem_map] at he'
      obtain ⟨e₀, -, heq⟩ := he'
      split_ifs at heq with h
      · exact heq
      · rw [heq] at h
        exact absurd hkey h
    · rw [Dict.setItem_of_notMem hin, List.mem_append, List.mem_singleton] at he'
      rcases he' with he' | he'
      · exact absurd (hkey ▸ Dict.mem_keys.mpr ⟨e'.2, he'⟩) hin
      · exact he'.symm
  · rfl

/-! ## Model references -/

def IsModelRef (value : Json JsonPrimitive) : Prop :=
  ∃ entries module name, value = .dict entries ∧ entries.lookup "module" = some (str module) ∧
    entries.lookup "name" = some (str name) ∧ module ≠ "" ∧ name ≠ ""

theorem normalizeIoRef_of_isModelRef {value : Json JsonPrimitive} (h : IsModelRef value) :
    ∃ normalized, normalizeIoRef value = str normalized := by
  obtain ⟨entries, module, name, rfl, hmodule, hname, hne⟩ := h
  refine ⟨module ++ "." ++ name, ?_⟩
  have hsome : normalizeSingleIoRef (.dict entries) = some (module ++ "." ++ name) := by
    unfold normalizeSingleIoRef
    dsimp only
    rw [hmodule, hname]
    exact if_pos hne
  unfold normalizeIoRef
  rw [hsome]

theorem normalizeIoRef_of_not_isModelRef {value : Json JsonPrimitive} (h : ¬ IsModelRef value) :
    normalizeIoRef value = value := by
  cases value with
  | dict entries =>
    have hnone : normalizeSingleIoRef (.dict entries) = none := by
      unfold normalizeSingleIoRef
      dsimp only
      split
      · next module name hmodule hname =>
        apply if_neg
        intro hne
        exact h ⟨entries, module, name, rfl, hmodule, hname, hne⟩
      · rfl
    unfold normalizeIoRef
    rw [hnone]
  | null => rfl
  | list items => rfl
  | prim a =>
    unfold normalizeIoRef normalizeSingleIoRef
    split
    · rfl
    · next normalized hnormalized =>
      split at hnormalized
      · next s heq =>
        rw [← Option.some.inj hnormalized]
        exact heq.symm
      · next heq => exact absurd heq (by simp)
      · exact (nomatch hnormalized)

theorem not_isModelRef_str (s : String) : ¬ IsModelRef (str s) := by
  rintro ⟨entries, module, name, heq, -⟩
  exact (nomatch heq)

theorem not_isModelRef_normalizeIoRef (value : Json JsonPrimitive) :
    ¬ IsModelRef (normalizeIoRef value) := by
  by_cases h : IsModelRef value
  · obtain ⟨normalized, hnormalized⟩ := normalizeIoRef_of_isModelRef h
    rw [hnormalized]
    exact not_isModelRef_str normalized
  · rw [normalizeIoRef_of_not_isModelRef h]
    exact h

/-! ## Evidence -/

theorem normalizeDodItem_normalizeDodItem (item : Json JsonPrimitive) :
    normalizeDodItem (normalizeDodItem item) = normalizeDodItem item := by
  cases item with
  | dict item =>
    unfold normalizeDodItem
    dsimp only
    cases hkind : item.lookup "kind" with
    | none =>
      dsimp only
      rw [hkind]
    | some kindValue =>
      dsimp only
      split_ifs with htype
      · dsimp only
        rw [hkind]
        dsimp only
        rw [if_pos htype]
      · -- the entry has a type now, and no kind
        have hnone : (Dict.setItem (item.filter fun e => e.1 ≠ "kind")
            ("type", dodType kindValue)).lookup "kind" = none := by
          rw [Dict.lookup_setItem, if_neg (show "kind" ≠ "type" by decide),
            Dict.lookup_eq_none_iff, Dict.mem_keys]
          rintro ⟨v, hv⟩
          simp at hv
        dsimp only
        rw [hnone]
  | null => rfl
  | prim a => rfl
  | list items => rfl

theorem normalizeDodItems_normalizeDodItems (items : Json JsonPrimitive) :
    normalizeDodItems (normalizeDodItems items) = normalizeDodItems items := by
  cases items with
  | list items =>
    show Json.list ((items.map normalizeDodItem).map normalizeDodItem) = _
    rw [List.map_map]
    congr 1
    apply List.map_congr_left
    intro item _
    exact normalizeDodItem_normalizeDodItem item
  | null => rfl
  | prim a => rfl
  | dict entries => rfl

/-! ## Handlers -/

theorem operationFromRoutingKey_cases (nh : Items) :
    "operation" ∈ Dict.keys (operationFromRoutingKey nh) ∨
      ∀ nh' : Items, nh'.lookup "routing_key" = nh.lookup "routing_key" →
        operationFromRoutingKey nh' = nh' := by
  unfold operationFromRoutingKey
  split_ifs with hoperation
  · exact Or.inl hoperation
  · split
    · next routingKey hkey =>
      split_ifs with hempty
      · left
        exact (Dict.mem_keys_setItem _ _).mpr (Or.inl rfl)
      · right
        intro nh' hnh'
        rw [hnh', hkey]
        dsimp only
        rw [if_neg hempty, ite_self]
    · next hkey =>
      right
      intro nh' hnh'
      rw [hnh']
      split_ifs
      · rfl
      · split
        · next routingKey hkey' => exact absurd hkey' (hkey routingKey)
        · rfl

theorem operationFromSupported_cases (nh : Items) :
    "operation" ∈ Dict.keys (operationFromSupported nh) ∨
      ∀ nh' : Items, nh'.lookup "supported_operations" = nh.lookup "supported_operations" →
        nh'.lookup "handler_type" = nh.lookup "handler_type" →
          operationFromSupported nh' = nh' := by
  unfold operationFromSupported
  split_ifs with hoperation
  · exact Or.inl hoperation
  · dsimp only
    split
    · left
      exact (Dict.mem_keys_setItem _ _).mpr (Or.inl rfl)
    · left
      refine (Dict.mem_keys_setItem _ _).mpr (Or.inr ?_)
      exact (Dict.mem_keys_setItem _ _).mpr (Or.inl rfl)
    · next hops =>
      split
      · left
        exact (Dict.mem_keys_setItem _ _).mpr (Or.inl rfl)
      · next htype =>
        right
        intro nh' hsupported hnh'
        rw [hsupported, hops, hnh', htype]
        exact ite_self nh'

variable {nh : Items}

theorem operationFromRoutingKey_of_mem (h : "operation" ∈ Dict.keys nh) :
    operationFromRoutingKey nh = nh :=
  if_pos h

theorem operationFromSupported_of_mem (h : "operation" ∈ Dict.keys nh) :
    operationFromSupported nh = nh :=
  if_pos h

def HasHandler (nh : Items) : Prop :=
  ∃ nested, nh.lookup "handler" = some (.dict nested) ∧ "name" ∈ Dict.keys nested ∧
    "module" ∈ Dict.keys nested

variable {k : String}

theorem lookup_handlerFromKey (hk : k ≠ "handler") :
    (handlerFromKey nh).lookup k = nh.lookup k := by
  unfold handlerFromKey
  split
  · split_ifs
    · exact (Dict.lookup_setItem _ _ k).trans (if_neg hk)
    · rfl
  · rfl

theorem lookup_withHandler (hk : k ≠ "handler") :
    (withHandler nh).lookup k = nh.lookup k := by
  unfold withHandler
  split
  · split_ifs
    · rfl
    · exact (Dict.lookup_setItem _ _ k).trans (if_neg hk)
    · exact lookup_handlerFromKey hk
  · exact lookup_handlerFromKey hk

theorem handlerFromKey_cases (nh : Items) :
    handlerFromKey nh = nh ∨ HasHandler (handlerFromKey nh) := by
  unfold handlerFromKey
  split
  · next handlerKey hkey =>
    split_ifs
    · right
      refine ⟨[("name", str handlerKey), ("module", str "")], ?_, by simp, by simp⟩
      exact (Dict.lookup_setItem _ _ _).trans (if_pos rfl)
    · exact Or.inl rfl
  · exact Or.inl rfl

theorem withHandler_cases (nh : Items) : withHandler nh = nh ∨ HasHandler (withHandler nh) := by
  unfold withHandler
  split
  · next nested hnested =>
    split_ifs with hname hmodule
    · exact Or.inl rfl
    · right
      refine ⟨_, (Dict.lookup_setItem _ _ _).trans (if_pos rfl), ?_, ?_⟩
      · exact (Dict.mem_keys_setItem _ _).mpr (Or.inr hname)
      · exact (Dict.mem_keys_setItem _ _).mpr (Or.inl rfl)
    · exact handlerFromKey_cases nh
  · exact handlerFromKey_cases nh

theorem withHandler_withHandler (nh : Items) : withHandler (withHandler nh) = withHandler nh := by
  rcases withHandler_cases nh with h | ⟨nested, hnested, hname, hmodule⟩
  · rw [h, h]
  · generalize withHandler nh = nh' at hnested ⊢
    unfold withHandler
    rw [hnested]
    dsimp only
    rw [if_neg (not_not.mpr hname), if_neg (not_not.mpr hmodule)]

theorem mem_keys_withHandler (hk : k ≠ "handler") :
    k ∈ Dict.keys (withHandler nh) ↔ k ∈ Dict.keys nh := by
  rw [← Dict.exists_lookup_iff, ← Dict.exists_lookup_iff, lookup_withHandler hk]

theorem mem_keys_operationFromSupported (h : "operation" ∈ Dict.keys nh) :
    "operation" ∈ Dict.keys (operationFromSupported nh) := by
  rw [operationFromSupported_of_mem h]
  exact h

theorem operation_withHandler (h : Items) :
    operationFromSupported (operationFromRoutingKey (withHandler
        (operationFromSupported (operationFromRoutingKey h)))) =
      withHandler (operationFromSupported (operationFromRoutingKey h)) := by
  have hdone : ∀ nh : Items, "operation" ∈ Dict.keys nh →
      operationFromSupported (operationFromRoutingKey (withHandler nh)) = withHandler nh := by
    intro nh hmem
    have hmem' : "operation" ∈ Dict.keys (withHandler nh) :=
      (mem_keys_withHandler (by decide)).mpr hmem
    rw [operationFromRoutingKey_of_mem hmem', operationFromSupported_of_mem hmem']
  rcases operationFromRoutingKey_cases h with hmem | hkey
  · exact hdone _ (mem_keys_operationFromSupported hmem)
  · rw [hkey h rfl]
    rcases operationFromSupported_cases h with hmem | hsupported
    · exact hdone _ hmem
    · rw [hsupported h rfl rfl, hkey _ (lookup_withHandler (by decide)),
        hsupported _ (lookup_withHandler (by decide)) (lookup_withHandler (by decide))]

theorem normalizeHandler_normalizeHandler (h : Json JsonPrimitive) :
    normalizeHandler (normalizeHandler h) = normalizeHandler h := by
  cases h with
  | dict h =>
    show Json.dict (withHandler (operationFromSupported (operationFromRoutingKey (withHandler
      (operationFromSupported (operationFromRoutingKey h)))))) = Json.dict _
    -- the operation is there, or there is nothing to take it from
    have hdone : operationFromSupported (operationFromRoutingKey (withHandler
        (operationFromSupported (operationFromRoutingKey h)))) =
          withHandler (operationFromSupported (operationFromRoutingKey h)) :=
      operation_withHandler h
    rw [hdone, withHandler_withHandler]
  | null => rfl
  | prim a => rfl
  | list items => rfl

theorem normalizeRoutingBlock_of_handlers {hr : Items} {handlers : List (Json JsonPrimitive)}
    (hversion : "version" ∈ Dict.keys hr)
    (hhandlers : (hr.lookup "handlers").getD (.list []) = .list handlers) :
    normalizeRoutingBlock (.dict hr) =
      .dict (Dict.setItem hr ("handlers", .list (handlers.map normalizeHandler))) := by
  unfold normalizeRoutingBlock
  dsimp only
  rw [if_pos hversion, hhandlers]

theorem normalizeRoutingBlock_of_not_handlers {hr : Items} (hversion : "version" ∈ Dict.keys hr)
    (hhandlers : ∀ handlers, (hr.lookup "handlers").getD (.list []) ≠ .list handlers) :
    normalizeRoutingBlock (.dict hr) = .dict hr := by
  unfold normalizeRoutingBlock
  dsimp only
  rw [if_pos hversion]
  split
  · next handlers h => exact absurd h (hhandlers handlers)
  · rfl

/-- A routing block that has been normalized stays as it is. -/
theorem normalizeRoutingBlock_normalizeRoutingBlock (hr : Json JsonPrimitive) :
    normalizeRoutingBlock (normalizeRoutingBlock hr) = normalizeRoutingBlock hr := by
  cases hr with
  | dict hr =>
    -- the version comes first
    obtain ⟨versioned, hversion, heq⟩ : ∃ versioned : Items, "version" ∈ Dict.keys versioned ∧
        normalizeRoutingBlock (.dict hr) = normalizeRoutingBlock (.dict versioned) := by
      by_cases h : "version" ∈ Dict.keys hr
      · exact ⟨hr, h, rfl⟩
      · have hmem := (Dict.mem_keys_setItem hr ("version", defaultHandlerRoutingVersion)).mpr
          (Or.inl rfl)
        refine ⟨_, hmem, ?_⟩
        unfold normalizeRoutingBlock
        dsimp only
        rw [if_neg h, if_pos hmem]
    rw [heq]
    by_cases hlist : ∃ handlers, (versioned.lookup "handlers").getD (.list []) = .list handlers
    · obtain ⟨handlers, hhandlers⟩ := hlist
      have hnormal := normalizeRoutingBlock_of_handlers hversion hhandlers
      have hlookup : ((Dict.setItem versioned ("handlers",
          .list (handlers.map normalizeHandler))).lookup "handlers").getD (.list []) =
            .list (handlers.map normalizeHandler) := by
        rw [Dict.lookup_setItem, if_pos rfl]
        rfl
      rw [hnormal, normalizeRoutingBlock_of_handlers
        ((Dict.mem_keys_setItem _ _).mpr (Or.inr hversion)) hlookup, List.map_map]
      have hmap : handlers.map (normalizeHandler ∘ normalizeHandler) =
          handlers.map normalizeHandler :=
        List.map_congr_left fun h _ => normalizeHandler_normalizeHandler h
      rw [hmap, setItem_setItem_self]
    · push Not at hlist
      rw [normalizeRoutingBlock_of_not_handlers hversion hlist,
        normalizeRoutingBlock_of_not_handlers hversion hlist]
  | null => rfl
  | prim a => rfl
  | list items => rfl

/-! ## Steps of the pipeline -/

/-- The step for contracts of the first version. -/
def normalizeOmnimarket (raw : RawContract) : RawContract :=
  if isOmnimarketV0 raw then normalizeOmnimarketV0Contract raw else raw

theorem composeNormalizationPipeline_eq (raw : RawContract) :
    composeNormalizationPipeline raw =
      normalizeMiscExtraFields knownContractKeys (normalizeDodEvidence (normalizeOmnimarket
        (normalizeHandlerRouting (normalizeIoModelRef (normalizeEventBus
          (stripLegacyMetadata raw)))))) := by
  unfold composeNormalizationPipeline normalizeContractWithFlags normalizeOmnimarket
  dsimp only
  split_ifs <;> rfl

section
variable (raw : RawContract) (k : String)

theorem get_stripLegacyMetadata : (stripLegacyMetadata raw).get k =
    if k ∈ legacyMetadataKeys then none else raw.get k := by
  refine (raw.get_filterKeys _ k).trans ?_
  by_cases hk : k ∈ legacyMetadataKeys <;> simp [hk]

theorem get_normalizeEventBus : (normalizeEventBus raw).get k =
    if k ∈ legacyEventBusKeys then none else raw.get k := by
  refine (raw.get_filterKeys _ k).trans ?_
  by_cases hk : k ∈ legacyEventBusKeys <;> simp [hk]

theorem get_normalizeIoModelRef : (normalizeIoModelRef raw).get k =
    if k = "input_model" ∨ k = "output_model" then (raw.get k).map normalizeIoRef
    else raw.get k := by
  unfold normalizeIoModelRef
  rw [PyDict.get_modify, PyDict.get_modify]
  by_cases hinput : k = "input_model"
  · simp [hinput]
  · by_cases houtput : k = "output_model"
    · simp [houtput]
    · simp [hinput, houtput]

theorem get_normalizeHandlerRouting : (normalizeHandlerRouting raw).get k =
    if k = "handler_routing" then (raw.get k).map normalizeRoutingBlock else raw.get k :=
  raw.get_modify "handler_routing" normalizeRoutingBlock k

theorem get_normalizeDodEvidence : (normalizeDodEvidence raw).get k =
    if k = "dod_evidence" then (raw.get k).map normalizeDodItems else raw.get k :=
  raw.get_modify "dod_evidence" normalizeDodItems k

/-- The blocks of the first version. -/
def omnimarketKeys : List String := ["handler", "descriptor", "terminal_event"]

/-- The reference that a contract of the first version has hoisted. -/
def hoisted : Option (Json JsonPrimitive) :=
  if isOmnimarketV0 raw then hoistedInputModel raw else none

theorem get_delItem_omnimarketKeys :
    (((raw.delItem "handler").delItem "descriptor").delItem "terminal_event").get k =
      if k ∈ omnimarketKeys then none else raw.get k := by
  rw [PyDict.get_delItem, PyDict.get_delItem, PyDict.get_delItem]
  unfold omnimarketKeys
  by_cases h₁ : k = "handler"
  · simp [h₁]
  · by_cases h₂ : k = "descriptor"
    · simp [h₂]
    · by_cases h₃ : k = "terminal_event" <;> simp [h₁, h₂, h₃]

theorem get_normalizeOmnimarketV0Contract : (normalizeOmnimarketV0Contract raw).get k =
    if k ∈ omnimarketKeys then none
    else if k = "input_model" then (raw.get k).or (hoistedInputModel raw)
    else raw.get k := by
  have hresult := get_delItem_omnimarketKeys raw
  unfold normalizeOmnimarketV0Contract
  dsimp only
  generalize ((raw.delItem "handler").delItem "descriptor").delItem "terminal_event" = result at *
  have hinput : result.get "input_model" = raw.get "input_model" := by
    rw [hresult, if_neg (by decide)]
  cases hoistedInputModel raw with
  | none =>
    dsimp only
    rw [hresult]
    simp
  | some inputModel =>
    dsimp only
    unfold PyDict.contains
    rw [hinput]
    cases hget : raw.get "input_model" with
    | none =>
      rw [if_neg (by simp), PyDict.get_setItem, hresult]
      by_cases hk : k = "input_model"
      · rw [hk, if_pos rfl, if_neg (by decide), if_pos rfl, hget]
        rfl
      · rw [if_neg hk, if_neg hk]
    | some value =>
      rw [if_pos (by simp), hresult]
      by_cases hk : k = "input_model"
      · rw [hk, if_neg (by decide), if_neg (by decide), if_pos rfl, hget]
        rfl
      · rw [if_neg hk]

theorem get_normalizeOmnimarket : (normalizeOmnimarket raw).get k =
    if isOmnimarketV0 raw = true ∧ k ∈ omnimarketKeys then none
    else if k = "input_model" then (raw.get k).or (hoisted raw)
    else raw.get k := by
  unfold normalizeOmnimarket hoisted
  by_cases hv0 : isOmnimarketV0 raw = true
  · rw [if_pos hv0, if_pos hv0, get_normalizeOmnimarketV0Contract]
    simp [hv0]
  · rw [if_neg hv0, if_neg hv0]
    simp [hv0]

end

/-! ## Normal contracts -/

/-- A contract that every step of the pipeline leaves as it is. -/
structure Normal (c : RawContract) : Prop where
  known : ∀ k, c.get k ≠ none → k ∈ knownContractKeys
  metadata : ∀ k ∈ legacyMetadataKeys, c.get k = none
  eventBus : ∀ k ∈ legacyEventBusKeys, c.get k = none
  inputModel : ∀ v, c.get "input_model" = some v → ¬ IsModelRef v
  outputModel : ∀ v, c.get "output_model" = some v → ¬ IsModelRef v
  routing : ∀ v, c.get "handler_routing" = some v → normalizeRoutingBlock v = v
  handler : c.get "handler" = none
  evidence : ∀ v, c.get "dod_evidence" = some v → normalizeDodItems v = v

theorem filterKeys_of_absent {c : RawContract} {keys : List String}
    (h : ∀ k ∈ keys, c.get k = none) : (c.filterKeys fun k => k ∉ keys) = c := by
  apply PyDict.filterKeys_of_forall
  intro k hk
  rw [decide_eq_true_eq]
  exact fun hmem => hk (h k hmem)

theorem composeNormalizationPipeline_of_normal {c : RawContract} (h : Normal c) :
    composeNormalizationPipeline c = c := by
  have hv0 : isOmnimarketV0 c = false := by
    unfold isOmnimarketV0
    rw [h.handler]
  have hinput : c.modify "input_model" normalizeIoRef = c :=
    PyDict.modify_of_fixed fun v hv => normalizeIoRef_of_not_isModelRef (h.inputModel v hv)
  have houtput : c.modify "output_model" normalizeIoRef = c :=
    PyDict.modify_of_fixed fun v hv => normalizeIoRef_of_not_isModelRef (h.outputModel v hv)
  have hrouting : normalizeHandlerRouting c = c := PyDict.modify_of_fixed h.routing
  have hevidence : normalizeDodEvidence c = c := PyDict.modify_of_fixed h.evidence
  have hio : normalizeIoModelRef c = c := by
    unfold normalizeIoModelRef
    rw [hinput, houtput]
  have homnimarket : normalizeOmnimarket c = c := by
    unfold normalizeOmnimarket
    rw [hv0, if_neg Bool.false_ne_true]
  rw [composeNormalizationPipeline_eq, show stripLegacyMetadata c = c from
    filterKeys_of_absent h.metadata, show normalizeEventBus c = c from
      filterKeys_of_absent h.eventBus, hio, hrouting, homnimarket, hevidence,
    normalizeMiscExtraFields_of_known h.known]

/-! ## Normalized contracts -/

def routed (raw : RawContract) : RawContract :=
  normalizeHandlerRouting (normalizeIoModelRef (normalizeEventBus (stripLegacyMetadata raw)))

section
variable (raw : RawContract)

theorem get_routed (k : String) : (routed raw).get k =
    if k ∈ legacyMetadataKeys ∨ k ∈ legacyEventBusKeys then none
    else if k = "input_model" ∨ k = "output_model" then (raw.get k).map normalizeIoRef
    else if k = "handler_routing" then (raw.get k).map normalizeRoutingBlock
    else raw.get k := by
  unfold routed
  rw [get_normalizeHandlerRouting, get_normalizeIoModelRef, get_normalizeEventBus,
    get_stripLegacyMetadata]
  by_cases hbus : k ∈ legacyEventBusKeys
  · simp [hbus]
  · by_cases hmetadata : k ∈ legacyMetadataKeys
    · simp [hmetadata]
    · simp only [hbus, hmetadata, or_self, if_false]
      by_cases hrouting : k = "handler_routing"
      · simp [hrouting]
      · simp [hrouting]

theorem get_handler_routed : (routed raw).get "handler" = raw.get "handler" := by
  rw [get_routed, if_neg (by decide), if_neg (by decide), if_neg (by decide)]

theorem hoisted_routed : hoisted (routed raw) = hoisted raw := by
  unfold hoisted isOmnimarketV0 hoistedInputModel
  rw [get_handler_routed]

theorem get_composeNormalizationPipeline (hknown : k ∈ knownContractKeys)
    (hk : k ≠ "annotations") : (composeNormalizationPipeline raw).get k =
      if k = "input_model" then ((routed raw).get k).or (hoisted raw)
      else if k = "dod_evidence" then ((routed raw).get k).map normalizeDodItems
      else (routed raw).get k := by
  have homnimarket : k ∉ omnimarketKeys := by
    intro hmem
    have hnone : ∀ k ∈ omnimarketKeys, k ∉ knownContractKeys := by decide +kernel
    exact hnone k hmem hknown
  have hget : (normalizeOmnimarket (routed raw)).get k =
      if k = "input_model" then ((routed raw).get k).or (hoisted raw) else (routed raw).get k := by
    rw [get_normalizeOmnimarket, if_neg fun h => homnimarket h.2, hoisted_routed]
  rw [composeNormalizationPipeline_eq, get_normalizeMiscExtraFields _ _ hk, if_pos hknown,
    get_normalizeDodEvidence]
  show (if k = "dod_evidence" then
    ((normalizeOmnimarket (routed raw)).get k).map normalizeDodItems
      else (normalizeOmnimarket (routed raw)).get k) = _
  rw [hget]
  by_cases hinput : k = "input_model"
  · simp [hinput]
  · simp [hinput]

theorem mem_knownContractKeys (h : (composeNormalizationPipeline raw).get k ≠ none) :
    k ∈ knownContractKeys := by
  by_contra hknown
  have hk : k ≠ "annotations" := by
    intro heq
    rw [heq] at hknown
    exact hknown (by decide +kernel)
  rw [composeNormalizationPipeline_eq, get_normalizeMiscExtraFields _ _ hk, if_neg hknown] at h
  exact h rfl

theorem get_input_model : (composeNormalizationPipeline raw).get "input_model" =
    ((raw.get "input_model").map normalizeIoRef).or (hoisted raw) := by
  rw [get_composeNormalizationPipeline raw (by decide +kernel) (by decide), if_pos rfl, get_routed,
    if_neg (by decide), if_pos (by decide)]

/-- The result is normal, unless it has a model reference left to hoist. -/
theorem normal_composeNormalizationPipeline
    (h : ∀ v, (composeNormalizationPipeline raw).get "input_model" = some v → ¬ IsModelRef v) :
    Normal (composeNormalizationPipeline raw) where
  known k hk := mem_knownContractKeys raw hk
  metadata k hk := by
    by_contra hget
    have hknown := mem_knownContractKeys raw hget
    have hother : ∀ k ∈ legacyMetadataKeys, k ≠ "annotations" ∧ k ≠ "input_model" ∧
        k ≠ "dod_evidence" := by decide
    obtain ⟨h₁, h₂, h₃⟩ := hother k hk
    rw [get_composeNormalizationPipeline raw hknown h₁, if_neg h₂, if_neg h₃, get_routed,
      if_pos (Or.inl hk)] at hget
    exact hget rfl
  eventBus k hk := by
    by_contra hget
    have hknown := mem_knownContractKeys raw hget
    have hother : ∀ k ∈ legacyEventBusKeys, k ≠ "annotations" ∧ k ≠ "input_model" ∧
        k ≠ "dod_evidence" := by decide
    obtain ⟨h₁, h₂, h₃⟩ := hother k hk
    rw [get_composeNormalizationPipeline raw hknown h₁, if_neg h₂, if_neg h₃, get_routed,
      if_pos (Or.inr hk)] at hget
    exact hget rfl
  inputModel := h
  outputModel v hv := by
    rw [get_composeNormalizationPipeline raw (by decide +kernel) (by decide), if_neg (by decide),
      if_neg (by decide), get_routed, if_neg (by decide), if_pos (by decide),
      Option.map_eq_some_iff] at hv
    obtain ⟨value, -, rfl⟩ := hv
    exact not_isModelRef_normalizeIoRef value
  routing v hv := by
    rw [get_composeNormalizationPipeline raw (by decide +kernel) (by decide), if_neg (by decide),
      if_neg (by decide), get_routed, if_neg (by decide), if_neg (by decide), if_pos rfl,
      Option.map_eq_some_iff] at hv
    obtain ⟨value, -, rfl⟩ := hv
    exact normalizeRoutingBlock_normalizeRoutingBlock value
  handler := by
    by_contra hget
    have hknown := mem_knownContractKeys raw hget
    exact absurd hknown (by decide +kernel)
  evidence v hv := by
    rw [get_composeNormalizationPipeline raw (by decide +kernel) (by decide), if_neg (by decide),
      if_pos rfl, Option.map_eq_some_iff] at hv
    obtain ⟨value, -, rfl⟩ := hv
    exact normalizeDodItems_normalizeDodItems value

end

/-! ## Normalizing twice -/

def NormalizesOnce (raw : RawContract) : Prop :=
  composeNormalizationPipeline (composeNormalizationPipeline raw) =
      composeNormalizationPipeline raw ∧
    (normalizeContractWithFlags (normalizeContractWithFlags raw).1).1 =
      (normalizeContractWithFlags raw).1

/-- A contract of the first version without a reference of its own, whose block `handler` has a
reference to a module and a name. -/
def HoistsModelRef (raw : RawContract) : Prop :=
  raw.get "input_model" = none ∧ ∃ handler inputModel, raw.get "handler" = some (.dict handler) ∧
    "class" ∈ Dict.keys handler ∧ handler.lookup "input_model" = some inputModel ∧
      IsModelRef inputModel

theorem hoisted_eq_some_iff {raw : RawContract} {v : Json JsonPrimitive} :
    hoisted raw = some v ↔ ∃ handler, raw.get "handler" = some (.dict handler) ∧
      "class" ∈ Dict.keys handler ∧ handler.lookup "input_model" = some v := by
  unfold hoisted isOmnimarketV0 hoistedInputModel
  split
  · next handler hhandler =>
    rw [hhandler]
    simp
  · next hhandler =>
    constructor
    · intro h
      exact absurd h (by simp)
    · rintro ⟨handler, h, -⟩
      exact absurd h (hhandler handler)

theorem isModelRef_iff (raw : RawContract) :
    (∃ v, (composeNormalizationPipeline raw).get "input_model" = some v ∧ IsModelRef v) ↔
      HoistsModelRef raw := by
  rw [get_input_model]
  unfold HoistsModelRef
  cases hinput : raw.get "input_model" with
  | some value =>
    constructor
    · rintro ⟨v, hv, href⟩
      rw [Option.map_some, Option.some_or] at hv
      rw [← Option.some.inj hv] at href
      exact absurd href (not_isModelRef_normalizeIoRef value)
    · rintro ⟨h, -⟩
      exact (nomatch h)
  | none =>
    rw [Option.map_none, Option.none_or]
    constructor
    · rintro ⟨v, hv, href⟩
      obtain ⟨handler, hhandler, hclass, hlookup⟩ := hoisted_eq_some_iff.mp hv
      exact ⟨rfl, handler, v, hhandler, hclass, hlookup, href⟩
    · rintro ⟨-, handler, v, hhandler, hclass, hlookup, href⟩
      exact ⟨v, hoisted_eq_some_iff.mpr ⟨handler, hhandler, hclass, hlookup⟩, href⟩

/-- A normalized contract is left alone exactly if no reference to a module and a name has been
hoisted into it. -/
theorem normalizesOnce_iff (raw : RawContract) : NormalizesOnce raw ↔ ¬ HoistsModelRef raw := by
  constructor
  · rintro ⟨honce, -⟩ hhoists
    obtain ⟨v, hv, href⟩ := (isModelRef_iff raw).mpr hhoists
    -- the second run normalizes the reference
    have hagain := get_input_model (composeNormalizationPipeline raw)
    rw [honce, hv, Option.map_some, Option.some_or] at hagain
    rw [Option.some.inj hagain] at href
    exact not_isModelRef_normalizeIoRef v href
  · intro hhoists
    have hnormal : Normal (composeNormalizationPipeline raw) := by
      apply normal_composeNormalizationPipeline
      intro v hv href
      exact hhoists ((isModelRef_iff raw).mp ⟨v, hv, href⟩)
    have honce := composeNormalizationPipeline_of_normal hnormal
    exact ⟨honce, honce⟩

def firstVersionContract : RawContract where
  entries := [("name", str "node_orders"), ("handler", .dict [("class", str "HandlerOrders"),
    ("input_model", .dict [("module", str "orders.models"), ("name", str "ModelOrder")])])]
  nodup_keys := by decide

/-- The reference is hoisted by the first run and normalized by the second. -/
theorem firstVersionContract_not_normalizesOnce : ¬ NormalizesOnce firstVersionContract := by
  rintro ⟨honce, -⟩
  have hinput := congrArg (fun c : RawContract => c.get "input_model") honce
  revert hinput
  decide +kernel

end OmnibaseCore.Normalization
