import OmnibaseCore.Json.Value
import OmnibaseCore.Python.Identifier

/-!
# Capabilities and their providers

The models that the capability resolver reads and makes. What the validators of a model make
sure of, as far as the resolver depends on it, is a field of the structure.
-/

namespace OmnibaseCore.Capability

abbrev JsonType := Json JsonPrimitive

/-- `dict[str, JsonType]`. -/
abbrev JsonObject := List (String × JsonType)

/-- `a == b` of values of `JsonType`. -/
def jsonEq (a b : JsonType) : Bool := Json.pyEq JsonPrimitive.pyEq a b

/-! ## Dependencies -/

inductive EnumResolutionTier
  | localExact
  | localCompatible
  | orgTrusted
  | federatedTrusted
  | quarantine
deriving DecidableEq

def EnumResolutionTier.value : EnumResolutionTier → String
  | .localExact => "local_exact"
  | .localCompatible => "local_compatible"
  | .orgTrusted => "org_trusted"
  | .federatedTrusted => "federated_trusted"
  | .quarantine => "quarantine"

structure ModelTieredResolutionConfig where
  minTier : Option EnumResolutionTier := none
  maxTier : Option EnumResolutionTier := none
  requireProofs : List String := []
  classification : Option String := none

structure ModelRequirementSet where
  must : JsonObject := []
  prefer : JsonObject := []
  forbid : JsonObject := []
  hints : JsonObject := []
  /-- `validate_json_serializable` -/
  serializable : ∀ e ∈ must ++ prefer ++ forbid ++ hints, e.2.All JsonPrimitive.Serializable

inductive SelectionPolicy
  | autoIfUnique
  | bestScore
  | requireExplicit

def SelectionPolicy.value : SelectionPolicy → String
  | .autoIfUnique => "auto_if_unique"
  | .bestScore => "best_score"
  | .requireExplicit => "require_explicit"

/-- `ModelCapabilityDependency`. The patterns for the names exclude space at both ends, but for
one newline. -/
structure ModelCapabilityDependency where
  aliasName : String
  capability : String
  requirements : ModelRequirementSet
  selectionPolicy : SelectionPolicy := .autoIfUnique
  strict : Bool := true
  versionRange : Option String := none
  tieredResolution : Option ModelTieredResolutionConfig := none
  aliasName_length : aliasName.length ≤ 64
  aliasName_nonblank : strip aliasName ≠ ""
  capability_length : 3 ≤ capability.length ∧ capability.length ≤ 128
  capability_nonblank : strip capability ≠ ""

/-! ## Providers -/

/-- `ModelProviderDescriptor`, without tags and health. -/
structure ModelProviderDescriptor where
  providerId : UUID
  capabilities : List String
  adapter : String
  connectionRef : String
  attributes : JsonObject := []
  declaredFeatures : JsonObject := []
  observedFeatures : JsonObject := []
  adapter_nonblank : strip adapter ≠ ""
  connectionRef_nonblank : strip connectionRef ≠ ""

def ModelProviderDescriptor.getEffectiveFeatures (provider : ModelProviderDescriptor) :
    JsonObject :=
  if provider.observedFeatures.isEmpty then provider.declaredFeatures
  else provider.observedFeatures

/-- A registry, an implementation of `ProtocolProviderRegistry`: it returns the providers that
offer a capability, in some order. The identifier of a provider is its own. -/
structure ProviderRegistry where
  getProvidersForCapability : String → List ModelProviderDescriptor
  offers : ∀ capability, ∀ provider ∈ getProvidersForCapability capability,
    capability ∈ provider.capabilities
  nodup_ids : ∀ capability,
    ((getProvidersForCapability capability).map ModelProviderDescriptor.providerId).Nodup

/-! ## Profiles -/

/-- A profile, with the attributes that the resolver looks for. Numbers are exact. -/
structure ModelProfile where
  profileId : Option String
  id : Option String := none
  providerWeights : Option (List (String × ℚ)) := none
  weights : Option (List (String × ℚ)) := none
  explicitBindings : Option (List (String × String)) := none
  bindings : Option (List (String × String)) := none
  pins : Option (List (String × String)) := none

/-! ## Bindings -/

structure ModelBinding where
  dependencyAlias : String
  capability : String
  resolvedProvider : String
  adapter : String
  connectionRef : String
  requirementsHash : String
  resolutionProfile : String
  resolvedAt : ℤ
  resolutionNotes : List String
  candidatesConsidered : ℕ

/-- A field of text of `ModelBinding`, with its bounds. -/
structure BindingField where
  name : String
  value : String
  minLength : ℕ := 1
  maxLength : Option ℕ := none

def BindingField.lengthOk (f : BindingField) : Bool :=
  f.minLength ≤ f.value.length && f.maxLength.all fun m => f.value.length ≤ m

def ModelBinding.textFields (b : ModelBinding) : List BindingField := [
  { name := "dependency_alias", value := b.dependencyAlias, maxLength := some 64 },
  { name := "capability", value := b.capability, minLength := 3, maxLength := some 128 },
  { name := "resolved_provider", value := b.resolvedProvider },
  { name := "adapter", value := b.adapter },
  { name := "connection_ref", value := b.connectionRef },
  { name := "requirements_hash", value := b.requirementsHash },
  { name := "resolution_profile", value := b.resolutionProfile }]

/-- What the validators of single fields make of their values. -/
def ModelBinding.stripped (b : ModelBinding) : ModelBinding := { b with
  dependencyAlias := strip b.dependencyAlias
  capability := strip b.capability
  resolvedProvider := strip b.resolvedProvider
  adapter := strip b.adapter
  connectionRef := strip b.connectionRef
  requirementsHash := strip b.requirementsHash
  resolutionProfile := strip b.resolutionProfile
  resolutionNotes := (b.resolutionNotes.map strip).filter fun note => note ≠ "" }

/-- The validation of a `ModelBinding`. The validators of single fields raise an error of their
own, which ends the validation; a field that breaks its bounds does not get to its validator. -/
def ModelBinding.validate (validationText : String → List String → String) (b : ModelBinding) :
    Except PyException ModelBinding :=
  match b.textFields.find? fun f => f.lengthOk && strip f.value = "" with
  | some f => .error (.modelOnexError {
      errorCode := .validationError
      message := f.name ++ " cannot be empty or whitespace-only"
      context := [(f.name, .str f.value)] })
  | none =>
    let bad := b.textFields.filter fun f => !f.lengthOk
    if bad.isEmpty then .ok b.stripped
    else .error (.validationError (validationText "ModelBinding" (bad.map BindingField.name)))

/-- A binding is valid if its texts are neither too long nor blank, and is stored stripped. -/
theorem ModelBinding.validate_eq_ok_iff {validationText : String → List String → String}
    {b b' : ModelBinding} : b.validate validationText = .ok b' ↔
      (∀ f ∈ b.textFields, f.lengthOk = true ∧ strip f.value ≠ "") ∧ b' = b.stripped := by
  unfold validate
  cases hfind : b.textFields.find? fun f => f.lengthOk && strip f.value = "" with
  | some f =>
    refine iff_of_false nofun fun h => ?_
    have hf := List.find?_some hfind
    rw [Bool.and_eq_true, decide_eq_true_eq] at hf
    exact (h.1 f (List.mem_of_find?_eq_some hfind)).2 hf.2
  | none =>
    rw [List.find?_eq_none] at hfind
    by_cases hbad : (b.textFields.filter fun f => !f.lengthOk).isEmpty = true
    · have hlength : ∀ f ∈ b.textFields, f.lengthOk = true := by
        intro f hf
        rw [List.isEmpty_iff, List.filter_eq_nil_iff] at hbad
        simpa using hbad f hf
      show (if _ then Except.ok b.stripped else _) = _ ↔ _
      rw [if_pos hbad]
      constructor
      · intro h
        refine ⟨fun f hf => ⟨hlength f hf, fun hblank => hfind f hf ?_⟩, (Except.ok.inj h).symm⟩
        rw [hlength f hf, hblank]
        rfl
      · intro h
        rw [h.2]
    · show (if _ then Except.ok b.stripped else _) = _ ↔ _
      rw [if_neg hbad]
      refine iff_of_false nofun fun h => hbad ?_
      rw [List.isEmpty_iff, List.filter_eq_nil_iff]
      intro f hf
      simp [(h.1 f hf).1]

/-!
## The capability resolver

`ServiceCapabilityResolver`: the providers of a capability are filtered, scored, and one is
chosen by the policy of the dependency. Times and durations are left out but for the time of a
binding, `now`.
-/

structure ResolverInterpreter where
  /-- `str(value)`, for values without integers that are too long to be printed -/
  str : JsonType → String
  /-- `x + y` of floats -/
  add : ℚ → ℚ → ℚ
  /-- The score in a note, `.2f` -/
  formatScore : ℚ → String
  /-- `repr(x)` of a finite float -/
  floatRepr : ℚ → String
  /-- `hashlib.sha256(text.encode("utf-8")).hexdigest()` -/
  sha256 : String → String
  /-- `str` of the `ValidationError` of a model, given the fields at fault -/
  validationText : String → List String → String

/-- The decorator `standard_error_handling`. -/
def standardErrorHandling {α : Type} (operationName : String) :
    Except PyException α → Except PyException α
  | .ok a => .ok a
  | .error (.modelOnexError e) => .error (.modelOnexError e)
  | .error e => .error (.modelOnexError {
      errorCode := .operationFailed
      message := operationName ++ " failed: " ++ e.str
      context := [("original_error_type", .str e.typeName), ("operation", .str operationName)] })

def resolutionFailed (dependency : ModelCapabilityDependency) (message : String)
    (context : List (String × ContextValue)) : PyException :=
  .modelOnexError {
    errorCode := .registryResolutionFailed
    message := message
    context := ("alias", .str dependency.aliasName) ::
      ("capability", .str dependency.capability) :: context }

/-! ## What the profile says -/

def getProfileId : Option ModelProfile → String
  | none => "default"
  | some profile =>
    match profile.profileId, profile.id with
    | some profileId, _ => profileId
    | none, some id => id
    | none, none => "default"

def getProfileWeight (profile : Option ModelProfile) (providerId : String) : ℚ :=
  match profile with
  | none => 0
  | some profile =>
    match profile.providerWeights.or profile.weights with
    | some weights => (weights.lookup providerId).getD 0
    | none => 0

def getPinnedProvider (profile : Option ModelProfile) (aliasName : String) : Option String :=
  match profile with
  | none => none
  | some profile =>
    match (profile.explicitBindings.or profile.bindings).or profile.pins with
    | some bindings => bindings.lookup aliasName
    | none => none

/-! ## Filtering -/

/-- `provider_values.get(key)`: features override attributes. -/
def ModelProviderDescriptor.value (provider : ModelProviderDescriptor) (key : String) :
    Option JsonType :=
  (provider.getEffectiveFeatures.lookup key).or (provider.attributes.lookup key)

/-- `key in provider_values and provider_values[key] == value`. -/
def ModelProviderDescriptor.satisfies (provider : ModelProviderDescriptor)
    (constraint : String × JsonType) : Bool :=
  match provider.value constraint.1 with
  | none => false
  | some value => jsonEq value constraint.2

/-- The reason to reject a provider for a constraint of `must`. -/
def mustRejection (i : ResolverInterpreter) (provider : ModelProviderDescriptor)
    (constraint : String × JsonType) : Option String :=
  match provider.value constraint.1 with
  | none => some ("Missing required attribute '" ++ constraint.1 ++ "'")
  | some value =>
    if jsonEq value constraint.2 then none
    else some ("Attribute '" ++ constraint.1 ++ "' value '" ++ i.str value ++
      "' does not match required '" ++ i.str constraint.2 ++ "'")

/-- The reason to reject a provider for a constraint of `forbid`. -/
def forbidRejection (i : ResolverInterpreter) (provider : ModelProviderDescriptor)
    (constraint : String × JsonType) : Option String :=
  if provider.satisfies constraint then
    some ("Has forbidden attribute '" ++ constraint.1 ++ "' with value '" ++
      i.str constraint.2 ++ "'")
  else none

def checkHardConstraints (i : ResolverInterpreter) (provider : ModelProviderDescriptor)
    (dependency : ModelCapabilityDependency) : Option String :=
  let requirements := dependency.requirements
  (requirements.must.findSome? (mustRejection i provider)).or
    (requirements.forbid.findSome? (forbidRejection i provider))

/-! ## Scoring -/

/-- The score of a provider in `_score_providers`. -/
def score (i : ResolverInterpreter) (dependency : ModelCapabilityDependency)
    (profile : Option ModelProfile) (provider : ModelProviderDescriptor) : ℚ :=
  let preferred := dependency.requirements.prefer.foldl
    (fun score constraint => if provider.satisfies constraint then i.add score 1 else score) 0
  match profile with
  | none => preferred
  | some _ => i.add preferred (getProfileWeight profile provider.providerId.str)

def sortKey (scored : ModelProviderDescriptor × ℚ) : ℚ ×ₗ String :=
  toLex (-scored.2, scored.1.providerId.str)

def scoreProviders (i : ResolverInterpreter) (providers : List ModelProviderDescriptor)
    (dependency : ModelCapabilityDependency) (profile : Option ModelProfile) :
    List (ModelProviderDescriptor × ℚ) :=
  sortedAsc sortKey (providers.map fun p => (p, score i dependency profile p))

/-! ## Selection -/

def scoredIds (scored : List (ModelProviderDescriptor × ℚ)) : List String :=
  scored.map fun x => x.1.providerId.str

def scoresById (scored : List (ModelProviderDescriptor × ℚ)) : List (String × ℚ) :=
  scored.foldl (fun d x => dictSet d x.1.providerId.str x.2) []

def applySelectionPolicy (i : ResolverInterpreter)
    (scoredProviders : List (ModelProviderDescriptor × ℚ))
    (dependency : ModelCapabilityDependency) (profile : Option ModelProfile)
    (rejectionReasons : List (String × String)) :
    Except PyException (ModelProviderDescriptor × List String) :=
  let pinned := (getPinnedProvider profile dependency.aliasName).getD ""
  -- an empty pin is no pin
  if pinned ≠ "" then
    match scoredProviders.find? fun x => x.1.providerId.str = pinned with
    | some x => .ok (x.1, ["Selected via profile pin: " ++ pinned, "Score: " ++ i.formatScore x.2])
    | none => .error (resolutionFailed dependency ("Profile-pinned provider '" ++ pinned ++
        "' not found among eligible candidates for '" ++ dependency.aliasName ++ "'.")
        [("pinned_provider_id", .str pinned),
          ("available_candidates", .strs (scoredIds scoredProviders))])
  else
    match dependency.selectionPolicy with
    | .requireExplicit => .error (resolutionFailed dependency ("Dependency '" ++
        dependency.aliasName ++ "' requires explicit binding " ++
        "(selection_policy='require_explicit') but no profile pin was provided.")
        [("candidates", .strs (scoredIds scoredProviders))])
    | .autoIfUnique =>
      match scoredProviders with
      | [x] => .ok (x.1, ["Selected via auto_if_unique (single candidate)",
          "Score: " ++ i.formatScore x.2])
      | _ => .error (resolutionFailed dependency ("Ambiguous resolution for '" ++
          dependency.aliasName ++ "': " ++ toString scoredProviders.length ++
          " candidates match with selection_policy='auto_if_unique'. " ++
          "Use 'best_score' policy or provide explicit binding.")
          [("candidates", .strs (scoredIds scoredProviders)),
            ("scores", .floats (scoresById scoredProviders))])
    | .bestScore =>
      match scoredProviders with
      -- there is always a candidate here
      | [] => .error (.other "IndexError" "list index out of range")
      | x :: _ =>
        let tied := scoredProviders.filter fun y => y.2 = x.2
        .ok (x.1, ["Selected via best_score (highest scoring candidate)",
            "Score: " ++ i.formatScore x.2] ++
          (if 1 < tied.length then ["Tie-breaker: selected by provider_id ordering (" ++
            toString tied.length ++ " providers with same score)"] else []) ++
          if rejectionReasons.isEmpty then [] else ["Rejected " ++
            toString rejectionReasons.length ++ " provider(s) (failed hard constraints)"])

/-! ## Bindings -/

def computeRequirementsHash (i : ResolverInterpreter) (dependency : ModelCapabilityDependency) :
    Except PyException String := do
  let requirements := dependency.requirements
  let hashableData : JsonObject := [
    ("must", .dict (sortedAsc Prod.fst requirements.must)),
    ("prefer", .dict (sortedAsc Prod.fst requirements.prefer)),
    ("forbid", .dict (sortedAsc Prod.fst requirements.forbid)),
    ("hints", .dict (sortedAsc Prod.fst requirements.hints)),
    ("selection_policy", .prim (.strict (.str dependency.selectionPolicy.value))),
    ("strict", .prim (.strict (.bool dependency.strict)))]
  let jsonStr ← Json.dumps (JsonPrimitive.text i.floatRepr) .compact (.dict hashableData)
  return "sha256:" ++ i.sha256 jsonStr

/-- `TypedDictResolutionAuditData`. -/
structure ResolutionAuditData where
  candidates : List String
  scores : List (String × ℚ)
  rejectionReasons : List (String × String)

def rejections (i : ResolverInterpreter) (dependency : ModelCapabilityDependency)
    (providers : List ModelProviderDescriptor) : List (String × String) :=
  providers.foldl (fun reasons provider =>
    match checkHardConstraints i provider dependency with
    | some rejection => dictSet reasons provider.providerId.str rejection
    | none => reasons) []

/-- Steps 4 and 5 of `_resolve_with_audit`: selection and binding. -/
def bindSelected (i : ResolverInterpreter) (now : ℤ) (dependency : ModelCapabilityDependency)
    (profile : Option ModelProfile) (sortedProviders : List ModelProviderDescriptor)
    (rejectionReasons : List (String × String))
    (scoredProviders : List (ModelProviderDescriptor × ℚ)) :
    Except PyException (ModelBinding × ResolutionAuditData) := do
  let selected ← applySelectionPolicy i scoredProviders dependency profile rejectionReasons
  let requirementsHash ← computeRequirementsHash i dependency
  let binding ← ModelBinding.validate i.validationText {
    dependencyAlias := dependency.aliasName
    capability := dependency.capability
    resolvedProvider := selected.1.providerId.str
    adapter := selected.1.adapter
    connectionRef := selected.1.connectionRef
    requirementsHash := requirementsHash
    resolutionProfile := getProfileId profile
    resolvedAt := now
    resolutionNotes := selected.2
    candidatesConsidered := sortedProviders.length }
  return (binding, {
    candidates := sortedProviders.map fun p => p.providerId.str
    scores := scoresById scoredProviders
    rejectionReasons := rejectionReasons })

def resolveWithAudit (i : ResolverInterpreter) (now : ℤ) (dependency : ModelCapabilityDependency)
    (registry : ProviderRegistry) (profile : Option ModelProfile) :
    Except PyException (ModelBinding × ResolutionAuditData) :=
  let providers := registry.getProvidersForCapability dependency.capability
  if providers.isEmpty then
    .error (resolutionFailed dependency ("No providers found for capability '" ++
      dependency.capability ++
      "'. Ensure at least one provider is registered with this capability.") [])
  else
    let sortedProviders := sortedAsc ModelProviderDescriptor.providerId providers
    let rejectionReasons := rejections i dependency sortedProviders
    let filteredProviders :=
      sortedProviders.filter fun p => (checkHardConstraints i p dependency).isNone
    if filteredProviders.isEmpty then
      .error (resolutionFailed dependency ("No providers for capability '" ++
        dependency.capability ++ "' satisfy the required constraints. " ++
        toString sortedProviders.length ++ " provider(s) were rejected.")
        [("candidates_considered", .int sortedProviders.length),
          ("rejection_reasons", .pairs rejectionReasons)])
    else
      bindSelected i now dependency profile sortedProviders rejectionReasons
        (scoreProviders i filteredProviders dependency profile)

/-- `ServiceCapabilityResolver.resolve`. -/
def resolve (i : ResolverInterpreter) (now : ℤ) (dependency : ModelCapabilityDependency)
    (registry : ProviderRegistry) (profile : Option ModelProfile) :
    Except PyException ModelBinding :=
  standardErrorHandling "Capability resolution"
    ((resolveWithAudit i now dependency registry profile).map Prod.fst)

/-! ## Batches -/

structure ModelResolutionResult where
  bindings : List (String × ModelBinding) := []
  success : Bool := false
  candidatesByAlias : List (String × List String) := []
  scoresByAlias : List (String × List (String × ℚ)) := []
  rejectionReasons : List (String × List (String × String)) := []
  resolutionProfile : Option String := none
  errors : List String := []

def ModelResolutionResult.validateErrors (errors : List String) : List String :=
  (errors.map strip).filter fun e => e ≠ ""

/-- One turn of the loop in `_resolve_all_impl`. -/
def resolveOne (i : ResolverInterpreter) (now : ℤ) (registry : ProviderRegistry)
    (profile : Option ModelProfile) (result : ModelResolutionResult)
    (dep : ModelCapabilityDependency) : Except PyException ModelResolutionResult :=
  match resolveWithAudit i now dep registry profile with
  | .ok (binding, audit) => .ok { result with
      bindings := dictSet result.bindings dep.aliasName binding
      candidatesByAlias := dictSet result.candidatesByAlias dep.aliasName audit.candidates
      scoresByAlias :=
        if audit.scores.isEmpty then result.scoresByAlias
        else dictSet result.scoresByAlias dep.aliasName audit.scores
      rejectionReasons :=
        if audit.rejectionReasons.isEmpty then result.rejectionReasons
        else dictSet result.rejectionReasons dep.aliasName audit.rejectionReasons }
  | .error (.modelOnexError e) => .ok { result with
      errors := result.errors ++
        ["Failed to resolve '" ++ dep.aliasName ++ "' (" ++ dep.capability ++ "): " ++ e.message] }
  | .error e => .error e

/-- `ServiceCapabilityResolver.resolve_all`. -/
def resolveAll (i : ResolverInterpreter) (now : ℤ) (dependencies : List ModelCapabilityDependency)
    (registry : ProviderRegistry) (profile : Option ModelProfile) :
    Except PyException ModelResolutionResult :=
  standardErrorHandling "Batch capability resolution" do
    let result ← dependencies.foldlM (resolveOne i now registry profile) {}
    return { result with
      success := result.errors.isEmpty
      resolutionProfile := some (getProfileId profile)
      errors := ModelResolutionResult.validateErrors result.errors }

end OmnibaseCore.Capability
