import OmnibaseCore.Capability.Resolver

/-!
# Trust domains, policies and route plans

The models that the tiered resolver reads and makes. Times, durations and generated identifiers
are left out.
-/

namespace OmnibaseCore.Tiered

open Capability

/-! ## Enumerations -/

inductive EnumResolutionFailureCode
  | noMatch
  | matchInsufficientTrust
  | policyDenied
  | keyMismatch
  | attestationInvalid
  | slaNotMet
  | tierExhausted
deriving DecidableEq

inductive EnumClassification
  /-- `PUBLIC` -/
  | publicData
  | internal
  | confidential
  | restricted

def EnumClassification.value : EnumClassification → String
  | .publicData => "public"
  | .internal => "internal"
  | .confidential => "confidential"
  | .restricted => "restricted"

def tierOrder : List EnumResolutionTier :=
  [.localExact, .localCompatible, .orgTrusted, .federatedTrusted, .quarantine]

/-- `_TIER_ORDER.index(tier) if tier in _TIER_ORDER else len(_TIER_ORDER)`. -/
def tierIndex (tier : EnumResolutionTier) : ℕ := tierOrder.idxOf tier

theorem tierIndex_injective : Function.Injective tierIndex := by
  intro t t'
  cases t <;> cases t' <;> decide

/-! ## Trust domains -/

structure ModelTrustDomain where
  domainId : String
  tier : EnumResolutionTier
  trustRootPublicKey : String
  allowedCapabilities : List String := []
  policyBundleHash : String
  encryptionEnforced : Bool := false
  redactionEnforced : Bool := false
  domainId_length : 1 ≤ domainId.length ∧ domainId.length ≤ 128 := by decide
  trustRootPublicKey_length : 1 ≤ trustRootPublicKey.length := by decide
  policyBundleHash_length : 1 ≤ policyBundleHash.length := by decide

/-! ## Policies -/

structure ModelClassificationGate where
  classification : EnumClassification
  allowedTiers : List EnumResolutionTier := []
  requireEncryption : Bool := false
  requireRedaction : Bool := false
  redactionPolicy : Option String := none

structure ModelRedactionPolicy where
  policyName : String
  rules : List (String × String) := []

/-- What `model_dump(mode="json")` gives. -/
abbrev Dump := Json StrictJsonPrimitive

def textDump (s : String) : Dump := .prim (.str s)

/-- `ModelPolicyBundle`. The trust policy is only dumped here. -/
structure ModelPolicyBundle where
  bundleId : UUID
  trustPolicy : Dump
  classificationGates : List ModelClassificationGate := []
  redactionPolicies : List ModelRedactionPolicy := []
  version : String

def ModelClassificationGate.dump (gate : ModelClassificationGate) : Dump := .dict [
  ("classification", textDump gate.classification.value),
  ("allowed_tiers", .list (gate.allowedTiers.map fun t => textDump t.value)),
  ("require_encryption", .prim (.bool gate.requireEncryption)),
  ("require_redaction", .prim (.bool gate.requireRedaction)),
  ("redaction_policy", (gate.redactionPolicy.map textDump).getD .null)]

def ModelRedactionPolicy.dump (policy : ModelRedactionPolicy) : Dump := .dict [
  ("policy_name", textDump policy.policyName),
  ("rules", .dict (policy.rules.map fun e => (e.1, textDump e.2)))]

/-- `model_dump(mode="json")`. -/
def ModelPolicyBundle.dump (bundle : ModelPolicyBundle) : Dump := .dict [
  ("bundle_id", textDump bundle.bundleId.str),
  ("trust_policy", bundle.trustPolicy),
  ("classification_gates", .list (bundle.classificationGates.map ModelClassificationGate.dump)),
  ("redaction_policies", .list (bundle.redactionPolicies.map ModelRedactionPolicy.dump)),
  ("version", textDump bundle.version)]

/-! ## Tokens -/

/-- A `datetime`: what its clock shows, in microseconds, and the offset of the clock from UTC, if
it has one. -/
structure Datetime where
  reading : ℤ
  utcOffset : Option ℤ := some 0
deriving DecidableEq

def Datetime.instant (d : Datetime) : Option ℤ := d.utcOffset.map fun offset => d.reading - offset

structure ModelCapabilityToken where
  tokenId : UUID
  subjectNodeId : String
  issuerDomain : String
  capabilities : List String
  issuedAt : Datetime
  expiresAt : Datetime
  issuerPublicKey : String
  signature : String
deriving DecidableEq

/-- `ModelResolutionProof`, of the type `capability_attested`. -/
structure ModelResolutionProof where
  verified : Bool
  verificationNotes : String
  token : Option ModelCapabilityToken
  verifiedAt : Option ℤ

/-! ## Results -/

structure ModelTierAttempt where
  tier : EnumResolutionTier
  candidatesFound : ℕ
  candidatesAfterTrustFilter : ℕ
  failureCode : Option EnumResolutionFailureCode
  failureReason : Option String

structure ModelHopConstraints where
  ttlMs : Option ℕ := none
  requireEncryption : Bool := false
  classification : Option String := none
  redactionPolicy : Option String := none

structure ModelResolutionRouteHop where
  hopIndex : ℕ
  adapterId : String
  trustDomain : String
  tier : EnumResolutionTier
  requiredProofs : List String := []
  constraints : ModelHopConstraints := {}

structure ModelRoutePlan where
  hops : List ModelResolutionRouteHop
  sourceCapability : String
  resolutionTierUsed : EnumResolutionTier
  tierProgression : List ModelTierAttempt := []
  registrySnapshotHash : String
  policyBundleHash : String
  trustGraphHash : String

structure ModelTieredResolutionResult where
  routePlan : Option ModelRoutePlan := none
  baseResolution : ModelResolutionResult
  tierProgression : List ModelTierAttempt := []
  finalTier : Option EnumResolutionTier := none
  failClosed : Bool := true
  structuredFailure : Option EnumResolutionFailureCode := none

end OmnibaseCore.Tiered
