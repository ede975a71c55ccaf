import OmnibaseCore.Capability.ResolverTheorems
import OmnibaseCore.Tiered.Resolver

/-!
# One turn of the tiered resolver

A domain lets a dependency pass if the gates are open for it, the tokens do not stand against it,
it supplies a provider that the policy picks, and its tier is not below `min_tier`.
-/

namespace OmnibaseCore.Tiered

open Capability

/-! ## Gates -/

def Opens (domain : ModelTrustDomain) (gate : ModelClassificationGate) : Prop :=
  (gate.allowedTiers = [] ∨ domain.tier ∈ gate.allowedTiers) ∧
    (gate.requireEncryption = true → domain.encryptionEnforced = true) ∧
    (gate.requireRedaction = true → domain.redactionEnforced = true)

instance (domain : ModelTrustDomain) (gate : ModelClassificationGate) :
    Decidable (Opens domain gate) :=
  inferInstanceAs (Decidable (_ ∧ _))

variable {domain : ModelTrustDomain}

theorem gateRefusal_eq_none_iff {i : TieredInterpreter}
    {gate : ModelClassificationGate} : gateRefusal i domain gate = none ↔ Opens domain gate := by
  have htiers : (!gate.allowedTiers.isEmpty && decide (domain.tier ∉ gate.allowedTiers)) = true ↔
      ¬ (gate.allowedTiers = [] ∨ domain.tier ∈ gate.allowedTiers) := by
    simp
  unfold gateRefusal Opens
  by_cases hallowed : gate.allowedTiers = [] ∨ domain.tier ∈ gate.allowedTiers
  · rw [if_neg (fun h => htiers.mp h hallowed)]
    cases gate.requireEncryption <;> cases domain.encryptionEnforced <;>
      cases gate.requireRedaction <;> cases domain.redactionEnforced <;> simp [hallowed]
  · rw [if_pos (htiers.mpr hallowed)]
    exact iff_of_false nofun fun h => hallowed h.1

def gatesOf (policyBundle : Option ModelPolicyBundle) : List ModelClassificationGate :=
  (policyBundle.map ModelPolicyBundle.classificationGates).getD []

theorem checkClassificationGates_eq_none_iff {i : TieredInterpreter}
    {policyBundle : Option ModelPolicyBundle} :
    policyBundle.bind (checkClassificationGates i domain) = none ↔
      ∀ gate ∈ gatesOf policyBundle, Opens domain gate := by
  cases policyBundle with
  | none => simp [gatesOf]
  | some bundle =>
    show List.findSome? _ _ = none ↔ _
    rw [List.findSome?_eq_none_iff]
    simp only [gateRefusal_eq_none_iff]
    rfl

/-! ## The bound from below -/

theorem belowMinTier_eq_none_iff {dependency : ModelCapabilityDependency}
    {tier : EnumResolutionTier} : belowMinTier dependency tier = none ↔
      ∀ m, minTier dependency = some m → tierIndex m ≤ tierIndex tier := by
  unfold belowMinTier
  cases minTier dependency with
  | none => simp
  | some m => simp [Option.filter_some]

/-! ## Tokens -/

section
variable {i : TieredInterpreter} {verifier : ServiceCapabilityTokenVerifier}
  {capability : String} {turn : ℕ}

variable {tokens : List ModelCapabilityToken}

theorem attests_of_verifyTokens {n : ℕ}
    (h : verifyTokens i verifier capability turn n tokens = .ok true) :
    ∃ k, ∃ token ∈ tokens, Attests i verifier (i.clock turn k) token capability := by
  induction tokens generalizing n with
  | nil => exact nomatch h
  | cons token rest ih =>
    obtain ⟨proof, hproof, hrest⟩ := bind_eq_ok h
    by_cases hverified : proof.verified = true
    · exact ⟨n, token, List.mem_cons_self, verifyToken_verified_iff.mp ⟨proof, hproof, hverified⟩⟩
    · rw [if_neg hverified] at hrest
      obtain ⟨k, t, ht, hattests⟩ := ih hrest
      exact ⟨k, t, List.mem_cons_of_mem token ht, hattests⟩

/-- A domain that the tokens let pass has issued one that attests the capability. -/
theorem attests_of_verifyCapabilityToken
    (h : verifyCapabilityToken i verifier turn domain capability tokens = .ok none) :
    ∃ k, ∃ token ∈ tokens, token.issuerDomain = domain.domainId ∧
      Attests i verifier (i.clock turn k) token capability := by
  unfold verifyCapabilityToken at h
  simp only at h
  cases hlast : (tokens.filter fun t => t.issuerDomain = domain.domainId).getLast? with
  | none =>
    rw [hlast] at h
    exact nomatch h
  | some last =>
    rw [hlast] at h
    obtain ⟨found, hfound, h⟩ := bind_eq_ok h
    cases found with
    | false =>
      obtain ⟨lastProof, -, h⟩ := bind_eq_ok h
      exact nomatch h
    | true =>
      obtain ⟨k, token, htoken, hattests⟩ := attests_of_verifyTokens hfound
      rw [List.mem_filter, decide_eq_true_eq] at htoken
      exact ⟨k, token, htoken.1, htoken.2, hattests⟩

end

/-! ## One domain -/

section
variable (i : TieredInterpreter) (resolver : ServiceTieredResolver)
  (dependency : ModelCapabilityDependency) (policyBundle : Option ModelPolicyBundle)
  (capabilityTokens : Option (List ModelCapabilityToken))

def providersOf : List ModelProviderDescriptor :=
  resolver.registry.getProvidersForCapability dependency.capability

/-- A domain may see the capability, and the policy of the dependency picks a provider. -/
def Supplies (domain : ModelTrustDomain) : Prop :=
  domain.allows dependency.capability = true ∧
    ∃ p, Picks i.toResolverInterpreter dependency none (providersOf resolver dependency) p

structure Qualifies (domain : ModelTrustDomain) : Prop where
  gates : ∀ gate ∈ gatesOf policyBundle, Opens domain gate
  supplies : Supplies i resolver dependency domain
  trusted : ∀ m, minTier dependency = some m → tierIndex m ≤ tierIndex domain.tier

structure Passes (turn : ℕ) (domain : ModelTrustDomain) : Prop where
  qualifies : Qualifies i resolver dependency policyBundle domain
  attested : attestationRefusal i resolver dependency capabilityTokens turn domain = .ok none

def Raises (turn : ℕ) (domain : ModelTrustDomain) : Prop :=
  (∀ gate ∈ gatesOf policyBundle, Opens domain gate) ∧
    ∃ e, attestationRefusal i resolver dependency capabilityTokens turn domain = .error e

def hopTo (domain : ModelTrustDomain) (provider : ModelProviderDescriptor) :
    ModelResolutionRouteHop where
  hopIndex := 0
  adapterId := strip provider.adapter
  trustDomain := domain.domainId
  tier := domain.tier
  requiredProofs := getRequiredProofs domain.tier

variable {i resolver dependency policyBundle capabilityTokens}

theorem providers_filteredProviderRegistry {domain : ModelTrustDomain}
    (h : domain.allows dependency.capability = true) :
    (filteredProviderRegistry resolver.registry domain).getProvidersForCapability
      dependency.capability = providersOf resolver dependency :=
  if_pos h

theorem resolveInDomain_of_supplies {turn : ℕ} {domain : ModelTrustDomain}
    (hsupplies : Supplies i resolver dependency domain) :
    ∃ baseResult binding, (resolveInDomain i resolver dependency turn domain
      = match belowMinTier dependency domain.tier with
        | some m => .ok (.next (resolvedAttempt domain.tier (providersOf resolver dependency).length
            (some (.matchInsufficientTrust, minTierReason domain.tier m))))
        | none => .ok (.stop
            (resolvedAttempt domain.tier (providersOf resolver dependency).length none)
            (domain, baseResult, binding))) ∧
      ∃ p, Picks i.toResolverInterpreter dependency none (providersOf resolver dependency) p ∧
        binding.adapter = strip p.adapter := by
  obtain ⟨hallows, p, hp⟩ := hsupplies
  have hproviders := @providers_filteredProviderRegistry resolver dependency domain hallows
  have hpositive : (providersOf resolver dependency).length ≠ 0 :=
    (List.length_pos_of_mem hp.eligible.1).ne'
  have hpicks : Picks i.toResolverInterpreter dependency none
      ((filteredProviderRegistry resolver.registry domain).getProvidersForCapability
        dependency.capability) p := by
    rw [hproviders]
    exact hp
  obtain ⟨baseResult, binding, hbase, hsuccess, hbinding⟩ :=
    @exists_resolveAll i.toResolverInterpreter dependency none (i.clock turn 0)
      (filteredProviderRegistry resolver.registry domain) p (by decide) hpicks
  obtain ⟨q, hq, hbinds⟩ := resolveAll_binds hbase hsuccess hbinding
  rw [hproviders] at hq
  refine ⟨baseResult, binding, ?_, q, hq, hbinds.adapter⟩
  unfold resolveInDomain
  simp only [hproviders]
  rw [if_neg hpositive, hbase]
  cases hmin : belowMinTier dependency domain.tier <;>
    simp only [hsuccess, if_true, hbinding]

variable {turn : ℕ}

/-- A domain without a provider, or below the tier, goes on to the next one. -/
theorem resolveInDomain_of_not
    (h : ¬ (Supplies i resolver dependency domain ∧ belowMinTier dependency domain.tier = none)) :
    ∃ record, resolveInDomain i resolver dependency turn domain = .ok (.next record) := by
  unfold resolveInDomain
  by_cases hnone : ((filteredProviderRegistry resolver.registry
      domain).getProvidersForCapability dependency.capability).length = 0
  · exact ⟨_, if_pos hnone⟩
  · simp only [if_neg hnone]
    have hallows : domain.allows dependency.capability = true := by
      by_contra hallows
      exact hnone (congrArg List.length (if_neg hallows))
    cases haudit : resolveWithAudit i.toResolverInterpreter (i.clock turn 0) dependency
        (filteredProviderRegistry resolver.registry domain) none with
    | error e =>
      rcases resolveAll_of_error haudit with ⟨result, hresult, hfails⟩ | ⟨e', he⟩
      · rw [hresult]
        simp only [hfails]
        exact ⟨_, rfl⟩
      · rw [he]
        exact ⟨_, rfl⟩
    | ok bound =>
      obtain ⟨result, hresult, hsuccess, hbindings⟩ := resolveAll_of_ok haudit
      have hlookup : result.bindings.lookup dependency.aliasName = some bound.1 := by
        rw [hbindings, List.lookup_cons_self]
      obtain ⟨p, hp, -⟩ := resolveAll_binds hresult hsuccess hlookup
      rw [providers_filteredProviderRegistry hallows] at hp
      have hsupplies : Supplies i resolver dependency domain := ⟨hallows, p, hp⟩
      rw [hresult]
      simp only [hsuccess, if_true, hlookup]
      cases hbelow : belowMinTier dependency domain.tier with
      | none => exact absurd ⟨hsupplies, hbelow⟩ h
      | some m => exact ⟨_, rfl⟩

theorem attemptDomain_of_passes
    (h : Passes i resolver dependency policyBundle capabilityTokens turn domain) :
    ∃ baseResult binding,
      attemptDomain i resolver dependency policyBundle capabilityTokens turn domain
        = .ok (.stop (resolvedAttempt domain.tier (providersOf resolver dependency).length none)
            (domain, baseResult, binding)) ∧
      ∃ p, Picks i.toResolverInterpreter dependency none (providersOf resolver dependency) p ∧
        binding.adapter = strip p.adapter := by
  obtain ⟨baseResult, binding, hresolve, hp⟩ := @resolveInDomain_of_supplies i resolver dependency
    turn domain h.qualifies.supplies
  rw [belowMinTier_eq_none_iff.mpr h.qualifies.trusted] at hresolve
  refine ⟨baseResult, binding, ?_, hp⟩
  unfold attemptDomain
  rw [checkClassificationGates_eq_none_iff.mpr h.qualifies.gates, h.attested]
  exact hresolve

theorem attemptDomain_of_raises
    (h : Raises i resolver dependency policyBundle capabilityTokens turn domain) :
    ∃ e, attemptDomain i resolver dependency policyBundle capabilityTokens turn domain
      = .error e := by
  obtain ⟨hgates, e, he⟩ := h
  unfold attemptDomain
  rw [checkClassificationGates_eq_none_iff.mpr hgates, he]
  exact ⟨e, rfl⟩

/-- The loop goes on at a domain if and only if it does not let the dependency pass, and no check
of a token raises an error. -/
theorem attemptDomain_next_iff :
    (∃ record, attemptDomain i resolver dependency policyBundle capabilityTokens turn domain
        = .ok (.next record)) ↔
      ¬ Passes i resolver dependency policyBundle capabilityTokens turn domain ∧
        ¬ Raises i resolver dependency policyBundle capabilityTokens turn domain := by
  constructor
  · intro ⟨record, hnext⟩
    refine ⟨fun hpasses => ?_, fun hraises => ?_⟩
    · obtain ⟨baseResult, binding, hstop, -⟩ := attemptDomain_of_passes hpasses
      exact nomatch hnext.symm.trans hstop
    · obtain ⟨e, he⟩ := attemptDomain_of_raises hraises
      exact nomatch hnext.symm.trans he
  · intro ⟨hpasses, hraises⟩
    unfold attemptDomain
    cases hgates : policyBundle.bind (checkClassificationGates i domain) with
    | some reason => exact ⟨_, rfl⟩
    | none =>
      have hopen := checkClassificationGates_eq_none_iff.mp hgates
      cases htokens : attestationRefusal i resolver dependency capabilityTokens turn domain with
      | error e => exact absurd ⟨hopen, e, htokens⟩ hraises
      | ok refusal =>
        cases refusal with
        | some reason => exact ⟨_, rfl⟩
        | none =>
          refine resolveInDomain_of_not fun h => hpasses ?_
          exact ⟨⟨hopen, h.1, belowMinTier_eq_none_iff.mp h.2⟩, htokens⟩

end

/-! ## Hashes -/

/-- What the hashes are made of can be written as JSON. -/
structure Recordable (providers : List ModelProviderDescriptor)
    (policyBundle : Option ModelPolicyBundle) : Prop where
  attributes : ∀ p ∈ providers, ∀ e ∈ p.attributes, e.2.All JsonPrimitive.Serializable
  trustPolicy : ∀ bundle, policyBundle = some bundle →
    bundle.trustPolicy.All fun a => JsonPrimitive.Serializable (.strict a)

section
variable {i : TieredInterpreter}

theorem exists_strictText_iff {a : StrictJsonPrimitive} {floatRepr : ℚ → String} :
    (∃ text, a.text floatRepr = .ok text) ↔ JsonPrimitive.Serializable (.strict a) :=
  JsonPrimitive.exists_text_iff (a := .strict a)

theorem exists_dumps_json_iff {floatRepr : ℚ → String} {style : JsonStyle} {j : JsonType} :
    (∃ text, Json.dumps (JsonPrimitive.text floatRepr) style j = .ok text) ↔
      j.All JsonPrimitive.Serializable := by
  rw [Json.exists_dumps_iff]
  simp only [JsonPrimitive.exists_text_iff]

theorem exists_dumps_dump_iff {floatRepr : ℚ → String} {style : JsonStyle} {j : Dump} :
    (∃ text, Json.dumps (StrictJsonPrimitive.text floatRepr) style j = .ok text) ↔
      j.All fun a => JsonPrimitive.Serializable (.strict a) := by
  rw [Json.exists_dumps_iff]
  simp only [exists_strictText_iff]

@[simp] theorem all_textDump (s : String) :
    (textDump s).All fun a => JsonPrimitive.Serializable (.strict a) :=
  trivial

/-- The hash of the registry exists if and only if the attributes of the providers are JSON. -/
theorem exists_registrySnapshotHash_iff {registry : ProviderRegistry} {capability : String} :
    (∃ hash, computeRegistrySnapshotHash i registry capability = .ok hash) ↔
      ∀ p ∈ registry.getProvidersForCapability capability, ∀ e ∈ p.attributes,
        e.2.All JsonPrimitive.Serializable := by
  have htext : (∃ hash, computeRegistrySnapshotHash i registry capability = .ok hash) ↔
      ∃ text, Json.dumps (JsonPrimitive.text i.floatRepr) .compact (.list ((sortedAsc
        (fun p => p.providerId.str) (registry.getProvidersForCapability capability)).map
          providerDump)) = .ok text := by
    constructor
    · intro ⟨hash, h⟩
      obtain ⟨text, htext, -⟩ := bind_eq_ok h
      exact ⟨text, htext⟩
    · intro ⟨text, h⟩
      exact ⟨"blake3:" ++ i.blake3 text, bind_eq_ok_iff.mpr ⟨text, h, rfl⟩⟩
  have hprovider : ∀ p : ModelProviderDescriptor, (providerDump p).All JsonPrimitive.Serializable ↔
      ∀ e ∈ p.attributes, e.2.All JsonPrimitive.Serializable := by
    intro p
    simp only [providerDump, Json.all_dict, List.forall_mem_cons, Json.all_prim, Json.all_list,
      List.forall_mem_map, (perm_sortedAsc Prod.fst p.attributes).mem_iff]
    constructor
    · intro h
      exact h.2.2.2.2.1
    · intro h
      exact ⟨trivial, fun _ _ => trivial, trivial, trivial, h, by simp⟩
  rw [htext, exists_dumps_json_iff, Json.all_list, List.forall_mem_map]
  simp only [hprovider, (perm_sortedAsc _ (registry.getProvidersForCapability capability)).mem_iff]

theorem exists_trustGraphHash (i : TieredInterpreter) (trustDomains : List ModelTrustDomain) :
    ∃ hash, computeTrustGraphHash i trustDomains = .ok hash := by
  have hall : (Json.list ((sortedAsc ModelTrustDomain.domainId trustDomains).map domainDump)).All
      fun a => JsonPrimitive.Serializable (.strict a) := by
    rw [Json.all_list, List.forall_mem_map]
    intro d _
    simp [domainDump]
  obtain ⟨text, htext⟩ := (@exists_dumps_dump_iff i.floatRepr .compact _).mpr hall
  exact ⟨"sha256:" ++ i.sha256 text, bind_eq_ok_iff.mpr ⟨text, htext, rfl⟩⟩

theorem all_bundleDump_iff {bundle : ModelPolicyBundle} :
    (bundle.dump.All fun a => JsonPrimitive.Serializable (.strict a)) ↔
      bundle.trustPolicy.All fun a => JsonPrimitive.Serializable (.strict a) := by
  have hgate : ∀ gate : ModelClassificationGate,
      gate.dump.All fun a => JsonPrimitive.Serializable (.strict a) := by
    intro gate
    have hflag : ∀ b : Bool, JsonPrimitive.Serializable (.strict (.bool b)) := fun _ => trivial
    cases hpolicy : gate.redactionPolicy <;> simp [ModelClassificationGate.dump, hflag, hpolicy]
  have hredaction : ∀ policy : ModelRedactionPolicy,
      policy.dump.All fun a => JsonPrimitive.Serializable (.strict a) := by
    intro policy
    simp only [ModelRedactionPolicy.dump, Json.all_dict, List.forall_mem_cons, List.forall_mem_map]
    exact ⟨all_textDump _, fun _ _ => all_textDump _, by simp⟩
  simp only [ModelPolicyBundle.dump, Json.all_dict, List.forall_mem_cons, Json.all_list,
    List.forall_mem_map]
  constructor
  · intro h
    exact h.2.1
  · intro h
    exact ⟨all_textDump _, h, fun _ _ => hgate _, fun _ _ => hredaction _, all_textDump _,
      by simp⟩

theorem exists_policyBundleHash_iff {policyBundle : Option ModelPolicyBundle}
    {trustDomains : List ModelTrustDomain} :
    (∃ hash, getPolicyBundleHash i policyBundle trustDomains = .ok hash) ↔
      ∀ bundle, policyBundle = some bundle →
        bundle.trustPolicy.All fun a => JsonPrimitive.Serializable (.strict a) := by
  cases policyBundle with
  | none =>
    refine iff_of_true ?_ nofun
    cases trustDomains <;> exact ⟨_, rfl⟩
  | some bundle =>
    have hbundle : (∀ b, some bundle = some b →
        b.trustPolicy.All fun a => JsonPrimitive.Serializable (.strict a)) ↔
          bundle.trustPolicy.All fun a => JsonPrimitive.Serializable (.strict a) := by
      simp
    rw [hbundle, ← all_bundleDump_iff, ← @exists_dumps_dump_iff i.floatRepr .compact]
    constructor
    · intro ⟨hash, h⟩
      obtain ⟨text, htext, -⟩ := bind_eq_ok h
      exact ⟨text, htext⟩
    · intro ⟨text, h⟩
      exact ⟨"sha256:" ++ i.sha256 text, bind_eq_ok_iff.mpr ⟨text, h, rfl⟩⟩

end

end OmnibaseCore.Tiered
