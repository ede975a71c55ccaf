import OmnibaseCore.Python.Path
import OmnibaseCore.Python.FirstOf
import OmnibaseCore.Tiered.TokenVerifier

/-!
# The tiered resolver

`ServiceTieredResolver`: the trust domains are tried in the order of their tiers, and the first
in which the capability resolver succeeds wins. The event that is published afterwards, whose
errors are ignored, is left out.
-/

namespace OmnibaseCore.Tiered

open Capability

structure ServiceTieredResolver where
  registry : ProviderRegistry
  tokenVerifier : Option ServiceCapabilityTokenVerifier := none

/-! ## What a domain may see -/

def ModelTrustDomain.allows (domain : ModelTrustDomain) (capability : String) : Bool :=
  domain.allowedCapabilities.isEmpty || domain.allowedCapabilities.any (fnmatch capability)

def filteredProviderRegistry (baseRegistry : ProviderRegistry) (trustDomain : ModelTrustDomain) :
    ProviderRegistry where
  getProvidersForCapability capability :=
    if trustDomain.allows capability then baseRegistry.getProvidersForCapability capability
    else []
  offers capability provider h := by
    by_cases hallows : trustDomain.allows capability = true
    · rw [if_pos hallows] at h
      exact baseRegistry.offers capability provider h
    · rw [if_neg hallows] at h
      exact absurd h List.not_mem_nil
  nodup_ids capability := by
    by_cases hallows : trustDomain.allows capability = true
    · rw [if_pos hallows]
      exact baseRegistry.nodup_ids capability
    · rw [if_neg hallows]
      exact List.nodup_nil

/-! ## Hashes -/

/-- What `_compute_trust_graph_hash` writes for a domain. -/
def domainDump (domain : ModelTrustDomain) : Dump := .dict [
  ("domain_id", textDump domain.domainId),
  ("tier", textDump domain.tier.value),
  ("trust_root_public_key", textDump domain.trustRootPublicKey),
  ("allowed_capabilities", .list ((sortedAsc id domain.allowedCapabilities).map textDump)),
  ("policy_bundle_hash", textDump domain.policyBundleHash)]

def computeTrustGraphHash (i : TieredInterpreter) (trustDomains : List ModelTrustDomain) :
    Except PyException String := do
  let canonical ← Json.dumps (StrictJsonPrimitive.text i.floatRepr) .compact
    (.list ((sortedAsc ModelTrustDomain.domainId trustDomains).map domainDump))
  return "sha256:" ++ i.sha256 canonical

/-- What `compute_registry_snapshot_hash` writes for a provider. -/
def providerDump (provider : ModelProviderDescriptor) : JsonType :=
  let text := fun s => Json.prim (.strict (.str s))
  .dict [
    ("provider_id", text provider.providerId.str),
    ("capabilities", .list ((sortedAsc id provider.capabilities).map text)),
    ("adapter", text provider.adapter),
    ("connection_ref", text provider.connectionRef),
    ("attributes", .dict (sortedAsc Prod.fst provider.attributes))]

def computeRegistrySnapshotHash (i : TieredInterpreter) (registry : ProviderRegistry)
    (capability : String) : Except PyException String := do
  let providers := registry.getProvidersForCapability capability
  let canonical ← Json.dumps (JsonPrimitive.text i.floatRepr) .compact
    (.list ((sortedAsc (fun p => p.providerId.str) providers).map providerDump))
  return "blake3:" ++ i.blake3 canonical

def ModelPolicyBundle.computeHash (i : TieredInterpreter) (bundle : ModelPolicyBundle) :
    Except PyException String := do
  let canonical ← Json.dumps (StrictJsonPrimitive.text i.floatRepr) .compact bundle.dump
  return "sha256:" ++ i.sha256 canonical

def getPolicyBundleHash (i : TieredInterpreter) (policyBundle : Option ModelPolicyBundle)
    (trustDomains : List ModelTrustDomain) : Except PyException String :=
  match policyBundle, trustDomains with
  | some bundle, _ => bundle.computeHash i
  | none, domain :: _ => .ok domain.policyBundleHash
  | none, [] => .ok "sha256:none"

/-! ## Checks before the capability resolver -/

def gateRefusal (i : TieredInterpreter) (domain : ModelTrustDomain)
    (gate : ModelClassificationGate) : Option String :=
  if !gate.allowedTiers.isEmpty && domain.tier ∉ gate.allowedTiers then
    some ("Classification gate '" ++ gate.classification.value ++ "' does not allow tier '" ++
      domain.tier.value ++ "'. Allowed tiers: " ++
      i.reprStrs (gate.allowedTiers.map EnumResolutionTier.value))
  else if gate.requireEncryption && !domain.encryptionEnforced then
    some ("Classification gate '" ++ gate.classification.value ++
      "' requires encryption, but domain '" ++ domain.domainId ++
      "' does not enforce encryption.")
  else if gate.requireRedaction && !domain.redactionEnforced then
    some ("Classification gate '" ++ gate.classification.value ++
      "' requires redaction, but domain '" ++ domain.domainId ++
      "' does not enforce redaction.")
  else none

def checkClassificationGates (i : TieredInterpreter) (domain : ModelTrustDomain)
    (policyBundle : ModelPolicyBundle) : Option String :=
  policyBundle.classificationGates.findSome? (gateRefusal i domain)

/-- The loop of `_verify_capability_token`, from reading `n` of the clock on: whether a token was
verified. -/
def verifyTokens (i : TieredInterpreter) (verifier : ServiceCapabilityTokenVerifier)
    (capability : String) (turn : ℕ) : ℕ → List ModelCapabilityToken → Except PyException Bool
  | _, [] => .ok false
  | n, token :: rest => do
    let proof ← verifyToken i verifier (i.clock turn n) token capability
    if proof.verified then return true
    else verifyTokens i verifier capability turn (n + 1) rest

def verifyCapabilityToken (i : TieredInterpreter) (verifier : ServiceCapabilityTokenVerifier)
    (turn : ℕ) (domain : ModelTrustDomain) (capability : String)
    (tokens : List ModelCapabilityToken) : Except PyException (Option String) :=
  let domainTokens := tokens.filter fun t => t.issuerDomain = domain.domainId
  match domainTokens.getLast? with
  | none => .ok (some ("No capability token found for domain '" ++ domain.domainId ++
      "' attesting capability '" ++ capability ++ "'"))
  | some last => do
    if ← verifyTokens i verifier capability turn 1 domainTokens then return none
    else
      -- the last token is verified once more, for its notes
      let lastProof ← verifyToken i verifier (i.clock turn (domainTokens.length + 1)) last
        capability
      return some ("Capability token verification failed for domain '" ++ domain.domainId ++
        "': " ++ lastProof.verificationNotes)

/-! ## One domain -/

/-- An attempt that ends before the capability resolver is asked. -/
def blockedAttempt (tier : EnumResolutionTier) (code : EnumResolutionFailureCode)
    (reason : String) : ModelTierAttempt where
  tier := tier
  candidatesFound := 0
  candidatesAfterTrustFilter := 0
  failureCode := some code
  failureReason := some reason

def resolvedAttempt (tier : EnumResolutionTier) (candidates : ℕ)
    (failure : Option (EnumResolutionFailureCode × String)) : ModelTierAttempt where
  tier := tier
  candidatesFound := candidates
  candidatesAfterTrustFilter := candidates
  failureCode := failure.map Prod.fst
  failureReason := failure.map Prod.snd

/-- `min_tier` of a dependency. -/
def minTier (dependency : ModelCapabilityDependency) : Option EnumResolutionTier :=
  dependency.tieredResolution.bind ModelTieredResolutionConfig.minTier

/-- The guard: a tier that comes before `min_tier`. -/
def belowMinTier (dependency : ModelCapabilityDependency) (tier : EnumResolutionTier) :
    Option EnumResolutionTier :=
  (minTier dependency).filter fun m => tierIndex tier < tierIndex m

def noProvidersReason (dependency : ModelCapabilityDependency) (domain : ModelTrustDomain) :
    String :=
  "No providers for '" ++ dependency.capability ++ "' in domain '" ++ domain.domainId ++ "'"

/-- The reason of an attempt that the guard stopped. -/
def minTierReason (tier minTier : EnumResolutionTier) : String :=
  "Resolved tier '" ++ tier.value ++ "' is below required min_tier '" ++ minTier.value ++ "'"

section
variable (i : TieredInterpreter) (resolver : ServiceTieredResolver)
  (dependency : ModelCapabilityDependency)

def resolveInDomain (turn : ℕ) (domain : ModelTrustDomain) : Except PyException
    (Turn ModelTierAttempt (ModelTrustDomain × ModelResolutionResult × ModelBinding)) :=
  let filteredRegistry := filteredProviderRegistry resolver.registry domain
  let candidatesFound :=
    (filteredRegistry.getProvidersForCapability dependency.capability).length
  if candidatesFound = 0 then
    .ok (.next (blockedAttempt domain.tier .noMatch (noProvidersReason dependency domain)))
  else
    match resolveAll i.toResolverInterpreter (i.clock turn 0) [dependency] filteredRegistry
        none with
    | .error (.modelOnexError _) => .ok (.next (resolvedAttempt domain.tier candidatesFound
        (some (.noMatch, "Base resolver failed for '" ++ dependency.capability ++
          "' in domain '" ++ domain.domainId ++ "'"))))
    | .error e => .error e
    | .ok baseResult =>
      let binding := if baseResult.success then baseResult.bindings.lookup dependency.aliasName
        else none
      match binding with
      | none => .ok (.next (resolvedAttempt domain.tier candidatesFound (some (.noMatch,
          if baseResult.errors.isEmpty then "No match" else "; ".intercalate baseResult.errors))))
      | some binding =>
        match belowMinTier dependency domain.tier with
        | some minTier => .ok (.next (resolvedAttempt domain.tier candidatesFound
            (some (.matchInsufficientTrust, minTierReason domain.tier minTier))))
        | none => .ok (.stop (resolvedAttempt domain.tier candidatesFound none)
            (domain, baseResult, binding))

/-- Whether the tokens let a domain pass: the reason if they do not. Without a verifier or
without tokens nothing is checked. -/
def attestationRefusal (capabilityTokens : Option (List ModelCapabilityToken)) (turn : ℕ)
    (domain : ModelTrustDomain) : Except PyException (Option String) :=
  match resolver.tokenVerifier, capabilityTokens with
  | some verifier, some tokens =>
    if domain.tier ≠ .localExact then
      verifyCapabilityToken i verifier turn domain dependency.capability tokens
    else .ok none
  | _, _ => .ok none

/-- One turn of the loop of `resolve_tiered`. -/
def attemptDomain (policyBundle : Option ModelPolicyBundle)
    (capabilityTokens : Option (List ModelCapabilityToken)) (turn : ℕ)
    (domain : ModelTrustDomain) : Except PyException
      (Turn ModelTierAttempt (ModelTrustDomain × ModelResolutionResult × ModelBinding)) :=
  match policyBundle.bind (checkClassificationGates i domain) with
  | some reason => .ok (.next (blockedAttempt domain.tier .policyDenied reason))
  | none => do
    match ← attestationRefusal i resolver dependency capabilityTokens turn domain with
    | some reason => return .next (blockedAttempt domain.tier .attestationInvalid reason)
    | none => resolveInDomain i resolver dependency turn domain

/-! ## All domains -/

def getRequiredProofs : EnumResolutionTier → List String
  | .localExact => []
  | .localCompatible => ["node_identity"]
  | .orgTrusted => ["node_identity", "org_membership"]
  | .federatedTrusted => ["node_identity", "capability_attested"]
  | .quarantine => ["node_identity", "capability_attested", "policy_compliance"]

def failClosedResult (tierAttempts : List ModelTierAttempt)
    (failureCode : EnumResolutionFailureCode) (failureReason : String) :
    ModelTieredResolutionResult where
  baseResolution := { errors := ModelResolutionResult.validateErrors [failureReason] }
  tierProgression := tierAttempts
  finalTier := tierAttempts.getLast?.map ModelTierAttempt.tier
  structuredFailure := some failureCode

/-- The result after the last turn. The guard for `min_tier` alone gives its failure code. -/
def exhaustedResult (tierAttempts : List ModelTierAttempt) : ModelTieredResolutionResult :=
  let minTierBlockCount :=
    tierAttempts.countP fun a => a.failureCode = some .matchInsufficientTrust
  if 0 < minTierBlockCount ∧ minTierBlockCount = tierAttempts.length then
    failClosedResult tierAttempts .matchInsufficientTrust
      "All configured tiers below required min_tier; no provider meets trust requirement"
  else
    failClosedResult tierAttempts .tierExhausted
      "All configured tiers attempted without resolution"

def successResult (trustDomains : List ModelTrustDomain) (policyBundle : Option ModelPolicyBundle)
    (tierAttempts : List ModelTierAttempt) (domain : ModelTrustDomain)
    (baseResult : ModelResolutionResult) (binding : ModelBinding) :
    Except PyException ModelTieredResolutionResult := do
  let registrySnapshotHash ←
    computeRegistrySnapshotHash i resolver.registry dependency.capability
  let trustGraphHash ← computeTrustGraphHash i trustDomains
  let policyHash ← getPolicyBundleHash i policyBundle trustDomains
  return {
    routePlan := some {
      hops := [{
        hopIndex := 0
        adapterId := binding.adapter
        trustDomain := domain.domainId
        tier := domain.tier
        requiredProofs := getRequiredProofs domain.tier }]
      sourceCapability := dependency.capability
      resolutionTierUsed := domain.tier
      tierProgression := tierAttempts
      registrySnapshotHash := registrySnapshotHash
      policyBundleHash := policyHash
      trustGraphHash := trustGraphHash }
    baseResolution := baseResult
    tierProgression := tierAttempts
    finalTier := some domain.tier }

/-- `ServiceTieredResolver.resolve_tiered`. -/
def resolveTiered (trustDomains : List ModelTrustDomain)
    (policyBundle : Option ModelPolicyBundle)
    (capabilityTokens : Option (List ModelCapabilityToken)) :
    Except PyException ModelTieredResolutionResult :=
  if trustDomains.isEmpty then
    .ok (failClosedResult [] .tierExhausted "No trust domains configured")
  else do
    let sortedDomains := sortedAsc (fun d => tierIndex d.tier) trustDomains
    let (tierAttempts, success) ← firstStop
      (attemptDomain i resolver dependency policyBundle capabilityTokens) 0 sortedDomains []
    match success with
    | some (domain, baseResult, binding) =>
      successResult i resolver dependency trustDomains policyBundle tierAttempts domain baseResult
        binding
    | none => return exhaustedResult tierAttempts

end

end OmnibaseCore.Tiered
