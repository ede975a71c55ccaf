import OmnibaseCore.Tiered.ResolverTheorems

/-!
# Where the tiered resolver leads

* `attestationLaw_iff`: with a token verifier, when domains beyond `local_exact` need a token.
* `boundsLaw_iff`: when the tier of a route plan is within its bounds.
-/

namespace OmnibaseCore.Tiered

open Capability

section
variable (i : TieredInterpreter) (resolver : ServiceTieredResolver)
  (dependency : ModelCapabilityDependency) (trustDomains : List ModelTrustDomain)
  (policyBundle : Option ModelPolicyBundle)
  (capabilityTokens : Option (List ModelCapabilityToken))

/-- The domains in the order in which they are tried. -/
def sortedDomains : List ModelTrustDomain := sortedAsc (fun d => tierIndex d.tier) trustDomains

/-- The `k`th domain lets the dependency pass, and the loop goes on at those before it. -/
structure ResolvesAt (k : ℕ) (domain : ModelTrustDomain) : Prop where
  at_turn : (sortedDomains trustDomains)[k]? = some domain
  passes : Passes i resolver dependency policyBundle capabilityTokens k domain
  before : ∀ j < k, ∀ d, (sortedDomains trustDomains)[j]? = some d →
    ¬ Passes i resolver dependency policyBundle capabilityTokens j d ∧
      ¬ Raises i resolver dependency policyBundle capabilityTokens j d

def Plans (plan : ModelRoutePlan) : Prop :=
  ∃ result, resolveTiered i resolver dependency trustDomains policyBundle capabilityTokens
    = .ok result ∧ result.routePlan = some plan

variable {i resolver dependency trustDomains policyBundle capabilityTokens}

structure Routes (dependency : ModelCapabilityDependency) (plan : ModelRoutePlan)
    (domain : ModelTrustDomain) (provider : ModelProviderDescriptor) : Prop where
  hops : plan.hops = [hopTo domain provider]
  sourceCapability : plan.sourceCapability = dependency.capability
  resolutionTierUsed : plan.resolutionTierUsed = domain.tier

theorem successResult_eq_ok_iff {attempts : List ModelTierAttempt} {domain : ModelTrustDomain}
    {baseResult : ModelResolutionResult} {binding : ModelBinding}
    {result : ModelTieredResolutionResult} :
    successResult i resolver dependency trustDomains policyBundle attempts domain baseResult binding
        = .ok result ↔
      ∃ registryHash graphHash policyHash,
        computeRegistrySnapshotHash i resolver.registry dependency.capability = .ok registryHash ∧
        computeTrustGraphHash i trustDomains = .ok graphHash ∧
        getPolicyBundleHash i policyBundle trustDomains = .ok policyHash ∧
        result = {
          routePlan := some {
            hops := [{
              hopIndex := 0
              adapterId := binding.adapter
              trustDomain := domain.domainId
              tier := domain.tier
              requiredProofs := getRequiredProofs domain.tier }]
            sourceCapability := dependency.capability
            resolutionTierUsed := domain.tier
            tierProgression := attempts
            registrySnapshotHash := registryHash
            policyBundleHash := policyHash
            trustGraphHash := graphHash }
          baseResolution := baseResult
          tierProgression := attempts
          finalTier := some domain.tier } := by
  unfold successResult
  constructor
  · intro h
    obtain ⟨registryHash, hregistry, h⟩ := bind_eq_ok h
    obtain ⟨graphHash, hgraph, h⟩ := bind_eq_ok h
    obtain ⟨policyHash, hpolicy, h⟩ := bind_eq_ok h
    exact ⟨registryHash, graphHash, policyHash, hregistry, hgraph, hpolicy, (Except.ok.inj h).symm⟩
  · intro ⟨registryHash, graphHash, policyHash, hregistry, hgraph, hpolicy, hresult⟩
    rw [hregistry, hgraph, hpolicy, hresult]
    rfl

variable {plan : ModelRoutePlan}

/-- A plan is made from the domain at which the walk stops. -/
theorem plans_iff :
    Plans i resolver dependency trustDomains policyBundle capabilityTokens plan ↔
      ∃ attempts domain baseResult binding result,
        firstStop (attemptDomain i resolver dependency policyBundle capabilityTokens) 0
            (sortedDomains trustDomains) [] = .ok (attempts, some (domain, baseResult, binding)) ∧
        successResult i resolver dependency trustDomains policyBundle attempts domain baseResult
          binding = .ok result ∧ result.routePlan = some plan := by
  unfold Plans resolveTiered
  by_cases hempty : trustDomains.isEmpty = true
  · have hsorted : sortedDomains trustDomains = [] := by
      rw [List.isEmpty_iff.mp hempty]
      rfl
    rw [if_pos hempty, hsorted]
    refine iff_of_false ?_ ?_
    · intro ⟨result, hresult, hplan⟩
      cases hresult
      exact nomatch hplan
    · intro ⟨_, _, _, _, _, h, _⟩
      exact nomatch h
  · rw [if_neg hempty]
    constructor
    · intro ⟨result, hresult, hplan⟩
      obtain ⟨⟨attempts, success⟩, hloop, hresult⟩ := bind_eq_ok hresult
      cases success with
      | none =>
        cases hresult
        by_cases hblocked : 0 < attempts.countP (fun a => decide (a.failureCode
            = some .matchInsufficientTrust)) ∧ attempts.countP (fun a => decide (a.failureCode
            = some .matchInsufficientTrust)) = attempts.length
        · have hnone : (exhaustedResult attempts).routePlan = none :=
            congrArg ModelTieredResolutionResult.routePlan (if_pos hblocked)
          exact nomatch hnone.symm.trans hplan
        · have hnone : (exhaustedResult attempts).routePlan = none :=
            congrArg ModelTieredResolutionResult.routePlan (if_neg hblocked)
          exact nomatch hnone.symm.trans hplan
      | some found => exact ⟨attempts, _, _, _, result, hloop, hresult, hplan⟩
    · intro ⟨attempts, domain, baseResult, binding, result, hloop, hresult, hplan⟩
      exact ⟨result, bind_eq_ok_iff.mpr ⟨_, hloop, hresult⟩, hplan⟩

theorem passes_of_stop {turn : ℕ} {domain found : ModelTrustDomain} {record : ModelTierAttempt}
    {baseResult : ModelResolutionResult} {binding : ModelBinding}
    (h : attemptDomain i resolver dependency policyBundle capabilityTokens turn domain
      = .ok (.stop record (found, baseResult, binding))) :
    Passes i resolver dependency policyBundle capabilityTokens turn domain ∧ found = domain ∧
      ∃ p, Picks i.toResolverInterpreter dependency none (providersOf resolver dependency) p ∧
        binding.adapter = strip p.adapter := by
  have hpasses : Passes i resolver dependency policyBundle capabilityTokens turn domain := by
    by_contra hpasses
    by_cases hraises : Raises i resolver dependency policyBundle capabilityTokens turn domain
    · obtain ⟨e, he⟩ := attemptDomain_of_raises hraises
      exact nomatch h.symm.trans he
    · obtain ⟨record', hnext⟩ := attemptDomain_next_iff.mpr ⟨hpasses, hraises⟩
      exact nomatch h.symm.trans hnext
  obtain ⟨baseResult', binding', hstop, hp⟩ := attemptDomain_of_passes hpasses
  cases h.symm.trans hstop
  exact ⟨hpasses, rfl, hp⟩

/-- A route plan leads to the first domain that lets the dependency pass. -/
theorem resolvesAt_of_plan
    (h : Plans i resolver dependency trustDomains policyBundle capabilityTokens plan) :
    Recordable (providersOf resolver dependency) policyBundle ∧ ∃ k domain p,
      ResolvesAt i resolver dependency trustDomains policyBundle capabilityTokens k domain ∧
      Picks i.toResolverInterpreter dependency none (providersOf resolver dependency) p ∧
      Routes dependency plan domain p := by
  obtain ⟨attempts, domain, baseResult, binding, result, hloop, hresult, hplan⟩ := plans_iff.mp h
  obtain ⟨k, a, record, hk, hstop, hbefore⟩ := exists_firstStop_iff.mp ⟨attempts, hloop⟩
  obtain ⟨registryHash, graphHash, policyHash, hregistry, -, hpolicy, hresult⟩ :=
    successResult_eq_ok_iff.mp hresult
  obtain ⟨hpasses, hdomain, p, hp, hadapter⟩ := passes_of_stop hstop
  rw [hresult, Option.some.injEq] at hplan
  refine ⟨⟨exists_registrySnapshotHash_iff.mp ⟨_, hregistry⟩,
    exists_policyBundleHash_iff.mp ⟨_, hpolicy⟩⟩, k, domain, p, ?_, hp, ?_⟩
  · rw [hdomain]
    exact ⟨hk, hpasses, fun j hj d hd => attemptDomain_next_iff.mp (hbefore j hj d hd)⟩
  · rw [← hplan]
    exact ⟨by rw [hadapter]; rfl, rfl, rfl⟩

structure ModelRoutePlan.WithinBounds (plan : ModelRoutePlan) : Prop where
  hops : 1 ≤ plan.hops.length
  hop : ∀ hop ∈ plan.hops, hop.adapterId ≠ "" ∧ 1 ≤ hop.trustDomain.length
  sourceCapability : 1 ≤ plan.sourceCapability.length
  registrySnapshotHash : plan.registrySnapshotHash ≠ ""
  policyBundleHash : 1 ≤ plan.policyBundleHash.length
  trustGraphHash : plan.trustGraphHash ≠ ""

theorem label_append_ne_empty {label text : String} (h : label ≠ "") : label ++ text ≠ "" := by
  simp [h]

/-- A route plan is within its bounds, so its validation, which is left out, accepts it. -/
theorem withinBounds_of_plan
    (h : Plans i resolver dependency trustDomains policyBundle capabilityTokens plan) :
    plan.WithinBounds := by
  obtain ⟨-, k, domain, p, -, -, hroutes⟩ := resolvesAt_of_plan h
  obtain ⟨attempts, found, baseResult, binding, result, -, hresult, hplan⟩ := plans_iff.mp h
  obtain ⟨registryHash, graphHash, policyHash, hregistry, hgraph, hpolicy, hresult⟩ :=
    successResult_eq_ok_iff.mp hresult
  obtain ⟨registryText, -, hregistry⟩ := bind_eq_ok hregistry
  obtain ⟨graphText, -, hgraph⟩ := bind_eq_ok hgraph
  have hpositive : 1 ≤ policyHash.length := by
    cases policyBundle with
    | none =>
      cases trustDomains with
      | nil =>
        cases hpolicy
        decide
      | cons d rest =>
        cases hpolicy
        exact d.policyBundleHash_length
    | some bundle =>
      obtain ⟨text, -, hpolicy⟩ := bind_eq_ok hpolicy
      cases hpolicy
      rw [String.length_append, show "sha256:".length = 7 from rfl]
      omega
  rw [hresult, Option.some.injEq] at hplan
  refine ⟨by rw [hroutes.hops]; exact le_rfl, ?_, ?_, ?_, ?_, ?_⟩
  · rw [hroutes.hops, List.forall_mem_singleton]
    exact ⟨p.adapter_nonblank, domain.domainId_length.1⟩
  · rw [hroutes.sourceCapability]
    exact le_trans (by decide) dependency.capability_length.1
  · cases hregistry
    rw [← hplan]
    exact label_append_ne_empty (by decide)
  · rw [← hplan]
    exact hpositive
  · cases hgraph
    rw [← hplan]
    exact label_append_ne_empty (by decide)

variable {domain : ModelTrustDomain}

/-- The first domain that lets the dependency pass has a route plan, if the hashes can be
computed. -/
theorem exists_plan {k : ℕ}
    (hrecordable : Recordable (providersOf resolver dependency) policyBundle)
    (h : ResolvesAt i resolver dependency trustDomains policyBundle capabilityTokens k domain) :
    ∃ plan p, Plans i resolver dependency trustDomains policyBundle capabilityTokens plan ∧
      Routes dependency plan domain p := by
  obtain ⟨baseResult, binding, hstop, p, -, hadapter⟩ := attemptDomain_of_passes h.passes
  obtain ⟨attempts, hloop⟩ := exists_firstStop_iff.mpr ⟨k, domain, _, h.at_turn, hstop,
    fun j hj d hd => attemptDomain_next_iff.mpr (h.before j hj d hd)⟩
  obtain ⟨registryHash, hregistry⟩ :=
    (@exists_registrySnapshotHash_iff i resolver.registry dependency.capability).mpr
      hrecordable.attributes
  obtain ⟨graphHash, hgraph⟩ := exists_trustGraphHash i trustDomains
  obtain ⟨policyHash, hpolicy⟩ :=
    (@exists_policyBundleHash_iff i policyBundle trustDomains).mpr hrecordable.trustPolicy
  have hresult := (@successResult_eq_ok_iff i resolver dependency trustDomains policyBundle attempts
    domain baseResult binding _).mpr
      ⟨registryHash, graphHash, policyHash, hregistry, hgraph, hpolicy, rfl⟩
  refine ⟨_, p, plans_iff.mpr ⟨attempts, domain, baseResult, binding, _, hloop, hresult, rfl⟩, ?_⟩
  exact ⟨by rw [hadapter]; rfl, rfl, rfl⟩

theorem exists_first {k : ℕ} (hk : (sortedDomains trustDomains)[k]? = some domain)
    (h : Passes i resolver dependency policyBundle capabilityTokens k domain ∨
      Raises i resolver dependency policyBundle capabilityTokens k domain) :
    ∃ j d, j ≤ k ∧ (Raises i resolver dependency policyBundle capabilityTokens j d ∧
        (sortedDomains trustDomains)[j]? = some d ∨
      ResolvesAt i resolver dependency trustDomains policyBundle capabilityTokens j d) := by
  classical
  let P : ℕ → Prop := fun j => ∃ d, (sortedDomains trustDomains)[j]? = some d ∧
    (Passes i resolver dependency policyBundle capabilityTokens j d ∨
      Raises i resolver dependency policyBundle capabilityTokens j d)
  have hP : ∃ j, P j := ⟨k, domain, hk, h⟩
  have hleast : Nat.find hP ≤ k := Nat.find_min' hP ⟨domain, hk, h⟩
  obtain ⟨d, hd, hends⟩ := Nat.find_spec hP
  refine ⟨Nat.find hP, d, hleast, ?_⟩
  rcases hends with hpasses | hraises
  · refine Or.inr ⟨hd, hpasses, fun j hj d' hd' => ?_⟩
    have hbefore : ¬ P j := Nat.find_min hP hj
    exact ⟨fun hp => hbefore ⟨d', hd', Or.inl hp⟩, fun hr => hbefore ⟨d', hd', Or.inr hr⟩⟩
  · exact Or.inl ⟨hraises, hd⟩

theorem mem_sortedDomains :
    domain ∈ sortedDomains trustDomains ↔ domain ∈ trustDomains :=
  (perm_sortedAsc _ trustDomains).mem_iff

theorem tierIndex_le_of_le {j k : ℕ} {d d' : ModelTrustDomain}
    (hj : (sortedDomains trustDomains)[j]? = some d)
    (hk : (sortedDomains trustDomains)[k]? = some d') (hjk : j ≤ k) :
    tierIndex d.tier ≤ tierIndex d'.tier := by
  have hsorted := pairwise_sortedAsc (fun d : ModelTrustDomain => tierIndex d.tier) trustDomains
  obtain ⟨hjlt, hjd⟩ := List.getElem?_eq_some_iff.mp hj
  obtain ⟨hklt, hkd⟩ := List.getElem?_eq_some_iff.mp hk
  rcases Nat.lt_or_eq_of_le hjk with hlt | heq
  · rw [← hjd, ← hkd]
    exact List.pairwise_iff_getElem.mp hsorted j k hjlt hklt hlt
  · subst heq
    rw [← hjd, ← hkd]

theorem tierIndex_eq_zero_iff {tier : EnumResolutionTier} :
    tierIndex tier = 0 ↔ tier = .localExact := by
  cases tier <;> decide

end

/-! ## Attestation -/

section
variable (i : TieredInterpreter) (registry : ProviderRegistry)
  (verifier : ServiceCapabilityTokenVerifier) (dependency : ModelCapabilityDependency)
  (trustDomains : List ModelTrustDomain) (policyBundle : Option ModelPolicyBundle)
  (capabilityTokens : Option (List ModelCapabilityToken))

def withVerifier : ServiceTieredResolver where
  registry := registry
  tokenVerifier := some verifier

/-- A token of the trust domain of the plan was verified, if its tier is beyond `local_exact`. -/
def AttestationLaw : Prop :=
  ∀ plan, Plans i (withVerifier registry verifier) dependency trustDomains policyBundle
      capabilityTokens plan → plan.resolutionTierUsed ≠ .localExact →
    ∃ tokens, capabilityTokens = some tokens ∧ ∃ token ∈ tokens,
      (∀ hop ∈ plan.hops, token.issuerDomain = hop.trustDomain) ∧
      ∃ turn reading proof, verifyToken i verifier (i.clock turn reading) token
        dependency.capability = .ok proof ∧ proof.verified = true

variable {i registry verifier dependency trustDomains policyBundle capabilityTokens}

theorem passes_without_tokens {turn : ℕ} {domain : ModelTrustDomain} :
    Passes i (withVerifier registry verifier) dependency policyBundle none turn domain ↔
      Qualifies i (withVerifier registry verifier) dependency policyBundle domain :=
  ⟨fun h => h.qualifies, fun h => ⟨h, rfl⟩⟩

theorem not_raises_without_tokens {turn : ℕ} {domain : ModelTrustDomain} :
    ¬ Raises i (withVerifier registry verifier) dependency policyBundle none turn domain := by
  intro ⟨_, e, he⟩
  exact nomatch he

theorem verified_of_passes {turn : ℕ} {domain : ModelTrustDomain}
    {tokens : List ModelCapabilityToken} (htier : domain.tier ≠ .localExact)
    (h : Passes i (withVerifier registry verifier) dependency policyBundle (some tokens) turn
      domain) :
    ∃ token ∈ tokens, token.issuerDomain = domain.domainId ∧
      ∃ turn reading proof, verifyToken i verifier (i.clock turn reading) token
        dependency.capability = .ok proof ∧ proof.verified = true := by
  have hattested := h.attested
  unfold attestationRefusal at hattested
  simp only [withVerifier, if_pos htier] at hattested
  obtain ⟨k, token, htoken, hissuer, hattests⟩ := attests_of_verifyCapabilityToken hattested
  exact ⟨token, htoken, hissuer, turn, k, verifyToken_verified_iff.mpr hattests⟩

/-- Domains beyond `local_exact` need a token if tokens are given. Without, the law is kept if no
plan can be made, no such domain qualifies, or a domain of the tier `local_exact` does. -/
theorem attestationLaw_iff :
    AttestationLaw i registry verifier dependency trustDomains policyBundle capabilityTokens ↔
      capabilityTokens ≠ none ∨
      ¬ Recordable (providersOf (withVerifier registry verifier) dependency) policyBundle ∨
      (∀ d ∈ trustDomains, d.tier ≠ .localExact →
        ¬ Qualifies i (withVerifier registry verifier) dependency policyBundle d) ∨
      ∃ d ∈ trustDomains, d.tier = .localExact ∧
        Qualifies i (withVerifier registry verifier) dependency policyBundle d := by
  constructor
  · intro hlaw
    by_contra hnot
    simp only [not_or, not_not] at hnot
    obtain ⟨hnone, hrecordable, hbeyond, hlocal⟩ := hnot
    subst hnone
    push Not at hbeyond
    obtain ⟨d, hd, -, hqualifies⟩ := hbeyond
    obtain ⟨k, hk⟩ := List.mem_iff_getElem?.mp (mem_sortedDomains.mpr hd)
    obtain ⟨j, first, -, hraises | hfirst⟩ :=
      exists_first hk (Or.inl (@passes_without_tokens i registry verifier dependency policyBundle k
        d |>.mpr hqualifies))
    · exact not_raises_without_tokens hraises.1
    · obtain ⟨plan, p, hplan, hroutes⟩ := exists_plan hrecordable hfirst
      have hmem : first ∈ trustDomains :=
        mem_sortedDomains.mp (List.mem_of_getElem? hfirst.at_turn)
      have htier : plan.resolutionTierUsed ≠ .localExact := by
        rw [hroutes.resolutionTierUsed]
        exact fun heq => hlocal ⟨first, hmem, heq, hfirst.passes.qualifies⟩
      obtain ⟨tokens, htokens, -⟩ := hlaw plan hplan htier
      exact nomatch htokens
  · intro h plan hplan htier
    obtain ⟨hrecordable, k, domain, p, hresolves, -, hroutes⟩ := resolvesAt_of_plan hplan
    rw [hroutes.resolutionTierUsed] at htier
    have hmem : domain ∈ trustDomains :=
      mem_sortedDomains.mp (List.mem_of_getElem? hresolves.at_turn)
    cases capabilityTokens with
    | some tokens =>
      obtain ⟨token, htoken, hissuer, hverified⟩ := verified_of_passes htier hresolves.passes
      refine ⟨tokens, rfl, token, htoken, ?_, hverified⟩
      rw [hroutes.hops, List.forall_mem_singleton]
      exact hissuer
    | none =>
      rcases h with htokens | hnot | hbeyond | ⟨d, hd, hlocal, hqualifies⟩
      · exact absurd rfl htokens
      · exact absurd hrecordable hnot
      · exact absurd hresolves.passes.qualifies (hbeyond domain hmem htier)
      · -- the domain of the tier `local_exact` is tried before
        obtain ⟨j, hj⟩ := List.mem_iff_getElem?.mp (mem_sortedDomains.mpr hd)
        have hkj : k ≤ j := by
          by_contra hlt
          exact (hresolves.before j (by omega) d hj).1 (passes_without_tokens.mpr hqualifies)
        have hle := tierIndex_le_of_le hresolves.at_turn hj hkj
        rw [hlocal] at hle
        exact absurd (tierIndex_eq_zero_iff.mp (Nat.le_zero.mp hle)) htier

end

/-- An interpreter for calls without tokens. -/
def tokenlessInterpreter : TieredInterpreter where
  toResolverInterpreter := exactInterpreter
  reprStrs texts := "[" ++ ", ".intercalate (texts.map fun s => "'" ++ s ++ "'") ++ "]"
  isoformat _ := ""
  urlsafeB64decode _ := none
  ed25519Verify _ _ _ := false
  blake3 text := text
  clock _ _ := 0

/-- An open domain of the tier `org_trusted`. -/
def orgDomain : ModelTrustDomain where
  domainId := "org.omninode"
  tier := .orgTrusted
  trustRootPublicKey := "a2V5"
  policyBundleHash := "sha256:none"

variable {verifier : Option ServiceCapabilityTokenVerifier} {dependency : ModelCapabilityDependency}

theorem providersOf_postgres (hcapability : dependency.capability = "database.relational") :
    providersOf ⟨postgresRegistry, verifier⟩ dependency = [postgres] := by
  unfold providersOf
  rw [hcapability]
  rfl

theorem resolvesAt_orgDomain {dependency : ModelCapabilityDependency}
    {verifier : Option ServiceCapabilityTokenVerifier}
    (hcapability : dependency.capability = "database.relational")
    (hrequirements : dependency.requirements.must = [] ∧ dependency.requirements.forbid = [])
    (hpolicy : dependency.selectionPolicy = .autoIfUnique) (hmin : minTier dependency = none) :
    ResolvesAt tokenlessInterpreter ⟨postgresRegistry, verifier⟩ dependency [orgDomain] none none 0
      orgDomain := by
  have heligible : Eligible dependency postgres := by
    unfold Eligible
    rw [hrequirements.1, hrequirements.2]
    simp
  have hpicks : Picks exactInterpreter dependency none [postgres] postgres := by
    have hpin : pin dependency none = "" := rfl
    rw [Picks, if_neg (not_not.mpr hpin), hpolicy]
    show [postgres].filter _ = [postgres]
    simp [heligible]
  refine ⟨rfl, ⟨⟨by simp [gatesOf], ⟨rfl, postgres, ?_⟩, ?_⟩, ?_⟩, fun j hj => absurd hj (by omega)⟩
  · rw [providersOf_postgres hcapability]
    exact hpicks
  · simp [hmin]
  · unfold attestationRefusal
    cases verifier <;> rfl

theorem recordable_postgres (hcapability : dependency.capability = "database.relational") :
    Recordable (providersOf ⟨postgresRegistry, verifier⟩ dependency) none := by
  rw [providersOf_postgres hcapability]
  exact ⟨by simp [postgres], nofun⟩

/-- Without tokens the domain resolves the dependency, although the verifier, which knows no
trust root, could not verify any. -/
theorem orgDomain_not_attestationLaw :
    ¬ AttestationLaw tokenlessInterpreter postgresRegistry ⟨fun _ => none⟩ databaseDependency
      [orgDomain] none none := by
  intro hlaw
  obtain ⟨plan, p, hplan, hroutes⟩ := exists_plan (recordable_postgres rfl)
    (@resolvesAt_orgDomain databaseDependency (some ⟨fun _ => none⟩) rfl ⟨rfl, rfl⟩ rfl rfl)
  have htier : plan.resolutionTierUsed ≠ .localExact := by
    rw [hroutes.resolutionTierUsed]
    decide
  obtain ⟨tokens, htokens, -⟩ := hlaw plan hplan htier
  exact nomatch htokens

/-! ## Bounds -/

/-- `max_tier` of a dependency. -/
def maxTier (dependency : ModelCapabilityDependency) : Option EnumResolutionTier :=
  dependency.tieredResolution.bind ModelTieredResolutionConfig.maxTier

section
variable (i : TieredInterpreter) (resolver : ServiceTieredResolver)
  (dependency : ModelCapabilityDependency) (trustDomains : List ModelTrustDomain)
  (policyBundle : Option ModelPolicyBundle)
  (capabilityTokens : Option (List ModelCapabilityToken))

structure BoundsLaw : Prop where
  fromBelow : ∀ plan,
    Plans i resolver dependency trustDomains policyBundle capabilityTokens plan →
      ∀ m, minTier dependency = some m → tierIndex m ≤ tierIndex plan.resolutionTierUsed
  fromAbove : ∀ plan,
    Plans i resolver dependency trustDomains policyBundle capabilityTokens plan →
      ∀ m, maxTier dependency = some m → tierIndex plan.resolutionTierUsed ≤ tierIndex m

/-- The tier is within its bounds if and only if, before a domain beyond `max_tier` that lets the
dependency pass, one within does, or the check of its tokens raises an error. -/
theorem boundsLaw_iff :
    BoundsLaw i resolver dependency trustDomains policyBundle capabilityTokens ↔
      ∀ m, maxTier dependency = some m →
        Recordable (providersOf resolver dependency) policyBundle →
        ∀ k d, (sortedDomains trustDomains)[k]? = some d → tierIndex m < tierIndex d.tier →
          Passes i resolver dependency policyBundle capabilityTokens k d →
          ∃ j < k, ∃ d', (sortedDomains trustDomains)[j]? = some d' ∧
            (Raises i resolver dependency policyBundle capabilityTokens j d' ∨
              tierIndex d'.tier ≤ tierIndex m ∧
                Passes i resolver dependency policyBundle capabilityTokens j d') := by
  constructor
  · intro hlaw m hm hrecordable k d hk hbeyond hpasses
    obtain ⟨j, first, hjk, hraises | hfirst⟩ := exists_first hk (Or.inl hpasses)
    · refine ⟨j, ?_, first, hraises.2, Or.inl hraises.1⟩
      rcases Nat.lt_or_eq_of_le hjk with hlt | heq
      · exact hlt
      · -- no domain both passes and raises an error
        rw [heq, hk, Option.some.injEq] at hraises
        obtain ⟨⟨-, e, he⟩, hfirst⟩ := hraises
        rw [← hfirst, hpasses.attested] at he
        exact nomatch he
    · obtain ⟨plan, p, hplan, hroutes⟩ := exists_plan hrecordable hfirst
      have hle := hlaw.fromAbove plan hplan m hm
      rw [hroutes.resolutionTierUsed] at hle
      refine ⟨j, ?_, first, hfirst.at_turn, Or.inr ⟨hle, hfirst.passes⟩⟩
      rcases Nat.lt_or_eq_of_le hjk with hlt | heq
      · exact hlt
      · have hat := hfirst.at_turn
        rw [heq, hk, Option.some.injEq] at hat
        rw [hat] at hbeyond
        omega
  · intro h
    constructor
    · intro plan hplan m hm
      obtain ⟨-, k, domain, p, hresolves, -, hroutes⟩ := resolvesAt_of_plan hplan
      rw [hroutes.resolutionTierUsed]
      exact hresolves.passes.qualifies.trusted m hm
    · intro plan hplan m hm
      obtain ⟨hrecordable, k, domain, p, hresolves, -, hroutes⟩ := resolvesAt_of_plan hplan
      rw [hroutes.resolutionTierUsed]
      by_contra hbeyond
      obtain ⟨j, hj, d, hd, hends⟩ := h m hm hrecordable k domain hresolves.at_turn
        (Nat.lt_of_not_le hbeyond) hresolves.passes
      obtain ⟨hpasses, hraises⟩ := hresolves.before j hj d hd
      rcases hends with hr | ⟨-, hp⟩
      · exact hraises hr
      · exact hpasses hp

end

/-- A dependency that is to be resolved at `local_exact` only. -/
def localDependency : ModelCapabilityDependency :=
  { databaseDependency with tieredResolution := some { maxTier := some .localExact } }

/-- The domain resolves the dependency, beyond its `max_tier`. -/
theorem orgDomain_not_boundsLaw :
    ¬ BoundsLaw tokenlessInterpreter ⟨postgresRegistry, none⟩ localDependency [orgDomain] none
      none := by
  intro hlaw
  obtain ⟨plan, p, hplan, hroutes⟩ := exists_plan (recordable_postgres rfl)
    (@resolvesAt_orgDomain localDependency none rfl ⟨rfl, rfl⟩ rfl rfl)
  have hle := hlaw.fromAbove plan hplan .localExact rfl
  rw [hroutes.resolutionTierUsed] at hle
  exact absurd hle (by decide)

end OmnibaseCore.Tiered
