import OmnibaseCore.Json.Unambiguous
import OmnibaseCore.Tiered.RouteTheorems

/-!
# What the recorded hashes determine

A route plan records three hashes, of the registry, of the trust graph and of the policy.

* `determined_iff`: two calls with equal hashes have the same plans if and only if gates and
  patterns refuse the same domains, in the order in which they are tried, and the same provider
  is picked. The hashes leave out the features of providers, the flags of domains, the order of
  domains of one tier, and whether there is a policy bundle.
* `determined_of_sameUnhashed`: calls that agree on these have the same plans.
-/

namespace OmnibaseCore.Tiered

open Capability

/-! ## The walk through the domains -/

section
variable (i : TieredInterpreter) (resolver : ServiceTieredResolver)
  (dependency : ModelCapabilityDependency) (policyBundle : Option ModelPolicyBundle)

/-- Why a domain is refused before the capability resolver is asked, without tokens. -/
def refusal (domain : ModelTrustDomain) : Option (EnumResolutionFailureCode × String) :=
  match policyBundle.bind (checkClassificationGates i domain) with
  | some reason => some (.policyDenied, reason)
  | none =>
    if domain.allows dependency.capability then none
    else some (.noMatch, noProvidersReason dependency domain)

/-- The attempt that is recorded for a domain that does not let the dependency pass, if a provider
is picked from the registry. -/
def refusedAttempt (domain : ModelTrustDomain) : ModelTierAttempt :=
  match refusal i dependency policyBundle domain with
  | some (code, reason) => blockedAttempt domain.tier code reason
  | none => resolvedAttempt domain.tier (providersOf resolver dependency).length
      (some (.matchInsufficientTrust,
        ((minTier dependency).map (minTierReason domain.tier)).getD ""))

variable {i resolver dependency policyBundle}

theorem belowMinTier_eq_some {tier m : EnumResolutionTier}
    (h : belowMinTier dependency tier = some m) : minTier dependency = some m := by
  unfold belowMinTier at h
  exact (Option.filter_eq_some_iff.mp h).1

/-- A domain that does not pass is recorded, and the walk goes on to the next one. -/
theorem attemptDomain_of_not_passes {turn : ℕ} {domain : ModelTrustDomain}
    (hpicks : ∃ p, Picks i.toResolverInterpreter dependency none (providersOf resolver dependency) p)
    (h : ¬ Passes i resolver dependency policyBundle none turn domain) :
    attemptDomain i resolver dependency policyBundle none turn domain
      = .ok (.next (refusedAttempt i resolver dependency policyBundle domain)) := by
  have hattested : attestationRefusal i resolver dependency none turn domain = .ok none := by
    unfold attestationRefusal
    cases resolver.tokenVerifier <;> rfl
  unfold attemptDomain refusedAttempt refusal
  cases hgates : policyBundle.bind (checkClassificationGates i domain) with
  | some reason => rfl
  | none =>
    rw [hattested]
    show resolveInDomain i resolver dependency turn domain = _
    by_cases hallows : domain.allows dependency.capability = true
    · have hsupplies : Supplies i resolver dependency domain := ⟨hallows, hpicks⟩
      obtain ⟨baseResult, binding, hresolve, -⟩ :=
        @resolveInDomain_of_supplies i resolver dependency turn domain hsupplies
      rw [hresolve]
      cases hbelow : belowMinTier dependency domain.tier with
      | none =>
        refine absurd ⟨⟨?_, hsupplies, ?_⟩, hattested⟩ h
        · exact checkClassificationGates_eq_none_iff.mp hgates
        · exact belowMinTier_eq_none_iff.mp hbelow
      | some m =>
        simp only [hallows, if_true, belowMinTier_eq_some hbelow]
        rfl
    · unfold resolveInDomain
      have hnone : (filteredProviderRegistry resolver.registry
          domain).getProvidersForCapability dependency.capability = [] := if_neg hallows
      simp only [hnone, List.length_nil, if_true, if_neg hallows]

theorem not_raises {turn : ℕ} {domain : ModelTrustDomain} :
    ¬ Raises i resolver dependency policyBundle none turn domain := by
  intro ⟨_, e, he⟩
  unfold attestationRefusal at he
  cases hverifier : resolver.tokenVerifier <;> rw [hverifier] at he <;> exact nomatch he

end

/-! ## Calls -/

/-- A call of `resolve_tiered` without tokens, but for the dependency. -/
structure Call where
  clock : ℕ → ℕ → ℤ
  resolver : ServiceTieredResolver
  trustDomains : List ModelTrustDomain
  policyBundle : Option ModelPolicyBundle

section
variable (i : TieredInterpreter) (dependency : ModelCapabilityDependency)

def TieredInterpreter.at (c : Call) : TieredInterpreter := { i with clock := c.clock }

def Call.Plans (c : Call) (plan : ModelRoutePlan) : Prop :=
  Tiered.Plans (i.at c) c.resolver dependency c.trustDomains c.policyBundle none plan

/-- The `k`th domain of a call is the first that lets the dependency pass. -/
def Call.ResolvesAt (c : Call) (k : ℕ) (domain : ModelTrustDomain) : Prop :=
  Tiered.ResolvesAt (i.at c) c.resolver dependency c.trustDomains c.policyBundle none k domain

def Call.Picks (c : Call) (p : ModelProviderDescriptor) : Prop :=
  Capability.Picks i.toResolverInterpreter dependency none (providersOf c.resolver dependency) p

def Call.refusal (c : Call) (domain : ModelTrustDomain) :
    Option (EnumResolutionFailureCode × String) :=
  Tiered.refusal i dependency c.policyBundle domain

def Call.refusedAttempt (c : Call) (domain : ModelTrustDomain) : ModelTierAttempt :=
  Tiered.refusedAttempt i c.resolver dependency c.policyBundle domain

structure Call.Walk (c : Call) (plan : ModelRoutePlan) (k : ℕ) (domain : ModelTrustDomain)
    (p : ModelProviderDescriptor) : Prop where
  resolves : c.ResolvesAt i dependency k domain
  picks : c.Picks i dependency p
  hops : plan.hops = [hopTo domain p]
  resolutionTierUsed : plan.resolutionTierUsed = domain.tier
  tierProgression : plan.tierProgression =
    ((sortedDomains c.trustDomains).take k).map (c.refusedAttempt i dependency) ++
      [resolvedAttempt domain.tier (providersOf c.resolver dependency).length none]
  registryHash : computeRegistrySnapshotHash i c.resolver.registry dependency.capability
    = .ok plan.registrySnapshotHash
  graphHash : computeTrustGraphHash i c.trustDomains = .ok plan.trustGraphHash
  policyHash : getPolicyBundleHash i c.policyBundle c.trustDomains = .ok plan.policyBundleHash

variable {i dependency}

theorem records_eq_map {turn : ℕ → ModelTrustDomain → Except PyException
      (Turn ModelTierAttempt (ModelTrustDomain × ModelResolutionResult × ModelBinding))}
    {f : ModelTrustDomain → ModelTierAttempt} {n : ℕ} {l : List ModelTrustDomain}
    {records : List ModelTierAttempt} (h : GoesOn turn n l records)
    (hf : ∀ j d, l[j]? = some d → turn (n + j) d = .ok (.next (f d))) : records = l.map f := by
  induction l generalizing n records with
  | nil => exact h
  | cons a rest ih =>
    obtain ⟨record, records', hrecords, hturn, hrest⟩ := h
    have hfirst := hf 0 a rfl
    rw [Nat.add_zero, hturn, Except.ok.injEq, Turn.next.injEq] at hfirst
    have htail := ih hrest fun j d hj => by
      rw [Nat.add_assoc, Nat.add_comm 1 j]
      exact hf (j + 1) d hj
    rw [hrecords, hfirst, htail, List.map_cons]

/-- A plan tells the walk through the domains, and the provider. -/
theorem walk_of_plan {c : Call} {plan : ModelRoutePlan} (h : c.Plans i dependency plan) :
    ∃ k domain p, c.Walk i dependency plan k domain p := by
  obtain ⟨attempts, found, baseResult, binding, result, hloop, hresult, hplan⟩ := plans_iff.mp h
  obtain ⟨registryHash, graphHash, policyHash, hregistry, hgraph, hpolicy, hresult⟩ :=
    successResult_eq_ok_iff.mp hresult
  obtain ⟨front, domain, back, fronts, record, hsorted, hfront, hstop, hattempts⟩ :=
    firstStop_eq_ok_some_iff.mp hloop
  rw [Nat.zero_add] at hstop
  obtain ⟨hpasses, hfound, p, hp, hadapter⟩ := passes_of_stop hstop
  obtain ⟨baseResult', binding', hstop', -⟩ := attemptDomain_of_passes hpasses
  rw [hresult, Option.some.injEq] at hplan
  have hbefore : ∀ j d, front[j]? = some d →
      ¬ Passes (i.at c) c.resolver dependency c.policyBundle none j d := by
    intro j d hj
    have hnext := exists_goesOn_iff.mp ⟨fronts, hfront⟩ j d hj
    rw [Nat.zero_add] at hnext
    exact (attemptDomain_next_iff.mp hnext).1
  have hfronts : fronts = front.map (c.refusedAttempt i dependency) := by
    apply records_eq_map hfront
    intro j d hj
    rw [Nat.zero_add]
    exact attemptDomain_of_not_passes ⟨p, hp⟩ (hbefore j d hj)
  have hrecord : record
      = resolvedAttempt domain.tier (providersOf c.resolver dependency).length none := by
    cases hstop.symm.trans hstop'
    rfl
  have htake : (sortedDomains c.trustDomains).take front.length = front := by
    rw [hsorted, List.take_left']
    rfl
  refine ⟨front.length, domain, p, ?_⟩
  rw [← hplan]
  refine ⟨⟨by rw [hsorted]; simp, hpasses, fun j hj d hd => ⟨hbefore j d ?_, not_raises⟩⟩, hp, ?_,
    ?_, ?_, hregistry, hgraph, hpolicy⟩
  · rwa [hsorted, List.getElem?_append_left hj] at hd
  · rw [hadapter, hfound]
    rfl
  · rw [hfound]
  · rw [htake, ← hfronts, ← hrecord, hattempts, List.nil_append]

theorem resolvesAt_unique {c : Call} {k k' : ℕ} {d d' : ModelTrustDomain}
    (h : c.ResolvesAt i dependency k d) (h' : c.ResolvesAt i dependency k' d') :
    k = k' ∧ d = d' := by
  have hk : k = k' := by
    rcases Nat.lt_trichotomy k k' with hlt | heq | hlt
    · exact absurd h.passes (h'.before k hlt d h.at_turn).1
    · exact heq
    · exact absurd h'.passes (h.before k' hlt d' h'.at_turn).1
  have hat := h.at_turn
  rw [hk, h'.at_turn, Option.some.injEq] at hat
  exact ⟨hk, hat.symm⟩

end

/-! ## Records -/

def registryDump (registry : ProviderRegistry) (capability : String) : JsonType :=
  .list ((sortedAsc (fun p => p.providerId.str)
    (registry.getProvidersForCapability capability)).map providerDump)

def trustGraphDump (trustDomains : List ModelTrustDomain) : Dump :=
  .list ((sortedAsc ModelTrustDomain.domainId trustDomains).map domainDump)

section
variable (i : TieredInterpreter) (dependency : ModelCapabilityDependency)

def SamePolicy (c c' : Call) : Prop :=
  match c.policyBundle, c'.policyBundle with
  | some bundle, some bundle' => bundle.dump.sortKeys = bundle'.dump.sortKeys
  | _, _ => getPolicyBundleHash i c.policyBundle c.trustDomains
      = getPolicyBundleHash i c'.policyBundle c'.trustDomains

/-- What the hashes of two calls are made of is the same, up to the order of keys. -/
structure SameRecord (c c' : Call) : Prop where
  registry : (registryDump c.resolver.registry dependency.capability).sortKeys
    = (registryDump c'.resolver.registry dependency.capability).sortKeys
  graph : (trustGraphDump c.trustDomains).sortKeys = (trustGraphDump c'.trustDomains).sortKeys
  policy : SamePolicy i c c'

structure SameHashes (plan plan' : ModelRoutePlan) : Prop where
  registrySnapshotHash : plan.registrySnapshotHash = plan'.registrySnapshotHash
  policyBundleHash : plan.policyBundleHash = plan'.policyBundleHash
  trustGraphHash : plan.trustGraphHash = plan'.trustGraphHash

variable {i dependency}

theorem textHash_eq_iff {α : Type} {leaf : α → Except PyException String} (hleaf : LeafCode leaf)
    {f : String → String} (hf : Function.Injective f) {label : String} {j j' : Json α}
    {hash hash' : String}
    (h : (do let canonical ← Json.dumps leaf .compact j; return label ++ f canonical) = .ok hash)
    (h' : (do let canonical ← Json.dumps leaf .compact j'; return label ++ f canonical)
      = .ok hash') :
    hash = hash' ↔ j.sortKeys = j'.sortKeys := by
  obtain ⟨t, ht, h⟩ := bind_eq_ok h
  obtain ⟨t', ht', h'⟩ := bind_eq_ok h'
  cases h
  cases h'
  rw [String.append_right_inj, hf.eq_iff]
  exact Json.dumps_eq_iff hleaf ht ht'

section
variable (hsha : Function.Injective i.sha256) (hblake : Function.Injective i.blake3)
  (hfloat : FloatDigits i.floatRepr)
include hsha hblake hfloat

/-- Plans have the same hashes if and only if their calls have the same record. -/
theorem sameRecord_iff {c c' : Call} {plan plan' : ModelRoutePlan} {k k' : ℕ}
    {d d' : ModelTrustDomain} {p p' : ModelProviderDescriptor}
    (h : c.Walk i dependency plan k d p) (h' : c'.Walk i dependency plan' k' d' p') :
    SameHashes plan plan' ↔ SameRecord i dependency c c' := by
  have hregistry := textHash_eq_iff (jsonText_leafCode hfloat) hblake h.registryHash h'.registryHash
  have hgraph := textHash_eq_iff (strictText_leafCode hfloat) hsha h.graphHash h'.graphHash
  have hpolicy : plan.policyBundleHash = plan'.policyBundleHash ↔ SamePolicy i c c' := by
    have hhash := h.policyHash
    have hhash' := h'.policyHash
    unfold SamePolicy
    cases hbundle : c.policyBundle with
    | none =>
      rw [hbundle] at hhash
      rw [hhash, hhash', Except.ok.injEq]
    | some bundle =>
      cases hbundle' : c'.policyBundle with
      | none =>
        rw [hbundle] at hhash
        rw [hbundle'] at hhash'
        rw [hhash, hhash', Except.ok.injEq]
      | some bundle' =>
        rw [hbundle] at hhash
        rw [hbundle'] at hhash'
        exact textHash_eq_iff (strictText_leafCode hfloat) hsha hhash hhash'
  constructor
  · intro hsame
    exact ⟨hregistry.mp hsame.registrySnapshotHash, hgraph.mp hsame.trustGraphHash,
      hpolicy.mp hsame.policyBundleHash⟩
  · intro hsame
    exact ⟨hregistry.mpr hsame.registry, hpolicy.mpr hsame.policy, hgraph.mpr hsame.graph⟩

end

/-! ## What the records tell -/

theorem tierValue_injective : Function.Injective EnumResolutionTier.value := by
  intro t t' h
  cases t <;> cases t' <;> first | rfl | exact absurd h (by decide)

theorem map_tier_sortedDomains {trustDomains trustDomains' : List ModelTrustDomain}
    (h : (trustGraphDump trustDomains).sortKeys = (trustGraphDump trustDomains').sortKeys) :
    (sortedDomains trustDomains).map ModelTrustDomain.tier
      = (sortedDomains trustDomains').map ModelTrustDomain.tier := by
  have hdump : ∀ d d' : ModelTrustDomain, (domainDump d).sortKeys = (domainDump d').sortKeys →
      d.tier = d'.tier := by
    intro d d' hd
    have hvalue : (textDump d.tier.value).sortKeys = (textDump d'.tier.value).sortKeys :=
      @Json.sortKeys_value_eq _ _ _ hd (by simp) "tier" _ _ (by simp) (by simp)
    apply tierValue_injective
    simpa [textDump] using hvalue
  have hlists : ∀ l l' : List ModelTrustDomain,
      l.map (fun d => (domainDump d).sortKeys) = l'.map (fun d => (domainDump d).sortKeys) →
        l.map ModelTrustDomain.tier = l'.map ModelTrustDomain.tier := by
    intro l
    induction l with
    | nil =>
      intro l' hl
      rw [List.map_nil, eq_comm, List.map_eq_nil_iff] at hl
      rw [hl]
    | cons d rest ih =>
      intro l' hl
      cases l' with
      | nil => exact absurd hl (by simp)
      | cons d' rest' =>
        rw [List.map_cons, List.map_cons, List.cons.injEq] at hl
        rw [List.map_cons, List.map_cons, hdump d d' hl.1, ih rest' hl.2]
  unfold trustGraphDump at h
  rw [Json.sortKeys_list, Json.sortKeys_list, Json.list.injEq, List.map_map, List.map_map] at h
  have htiers := hlists _ _ h
  have hperm : (trustDomains.map ModelTrustDomain.tier).Perm
      (trustDomains'.map ModelTrustDomain.tier) := by
    have hleft := (perm_sortedAsc ModelTrustDomain.domainId trustDomains).map ModelTrustDomain.tier
    have hright := (perm_sortedAsc ModelTrustDomain.domainId trustDomains').map
      ModelTrustDomain.tier
    rw [htiers] at hleft
    exact hleft.symm.trans hright
  have hsorted := sortedAsc_eq_of_perm tierIndex tierIndex_injective hperm
  have hmap : ∀ l : List ModelTrustDomain, sortedAsc tierIndex (l.map ModelTrustDomain.tier)
      = (sortedDomains l).map ModelTrustDomain.tier :=
    fun l => sortedAsc_map _ (fun _ => rfl) l
  rw [← hmap, ← hmap, hsorted]

theorem length_providersOf {c c' : Call}
    (h : (registryDump c.resolver.registry dependency.capability).sortKeys
      = (registryDump c'.resolver.registry dependency.capability).sortKeys) :
    (providersOf c.resolver dependency).length = (providersOf c'.resolver dependency).length := by
  unfold registryDump at h
  rw [Json.sortKeys_list, Json.sortKeys_list, Json.list.injEq] at h
  have hlength := congrArg List.length h
  simp only [List.length_map, (perm_sortedAsc _ _).length_eq] at hlength
  exact hlength

end

/-! ## Determinism -/

section
variable (i : TieredInterpreter) (dependency : ModelCapabilityDependency) (c c' : Call)

def Determined : Prop :=
  ∀ plan plan', c.Plans i dependency plan → c'.Plans i dependency plan' →
    SameHashes plan plan' → plan.hops = plan'.hops ∧
      plan.resolutionTierUsed = plan'.resolutionTierUsed ∧
      plan.tierProgression = plan'.tierProgression

/-- The hashes of a call can be computed. -/
def Call.Recordable : Prop :=
  Tiered.Recordable (providersOf c.resolver dependency) c.policyBundle

/-- Two calls refuse the same domains for the same reasons, up to the domain in which they resolve
the dependency, and pick providers with the same adapter. -/
structure SameWalk (k k' : ℕ) (domain domain' : ModelTrustDomain) : Prop where
  turns : k = k'
  domainId : domain.domainId = domain'.domainId
  refusals : ∀ j < k, ∀ e e', (sortedDomains c.trustDomains)[j]? = some e →
    (sortedDomains c'.trustDomains)[j]? = some e' →
      c.refusal i dependency e = c'.refusal i dependency e'
  adapter : ∃ p p', c.Picks i dependency p ∧ c'.Picks i dependency p' ∧
    strip p.adapter = strip p'.adapter

variable {i dependency c c'}

def attemptRefusal (a : ModelTierAttempt) : Option (EnumResolutionFailureCode × String) :=
  if a.failureCode = some .matchInsufficientTrust then none
  else a.failureCode.bind fun code => a.failureReason.map fun reason => (code, reason)

theorem attemptRefusal_refusedAttempt (domain : ModelTrustDomain) :
    attemptRefusal (c.refusedAttempt i dependency domain) = c.refusal i dependency domain := by
  unfold Call.refusedAttempt Call.refusal refusedAttempt
  have hcode : ∀ code reason, refusal i dependency c.policyBundle domain = some (code, reason) →
      code ≠ .matchInsufficientTrust := by
    intro code reason h
    unfold refusal at h
    cases hgates : c.policyBundle.bind (checkClassificationGates i domain) with
    | some reason' =>
      rw [hgates] at h
      cases h
      decide
    | none =>
      rw [hgates] at h
      by_cases hallows : domain.allows dependency.capability = true
      · simp [hallows] at h
      · simp only [hallows] at h
        cases h
        decide
  cases hrefusal : refusal i dependency c.policyBundle domain with
  | none => rfl
  | some r =>
    obtain ⟨code, reason⟩ := r
    have hne := hcode code reason hrefusal
    simp [attemptRefusal, blockedAttempt, hne]

theorem refusedAttempt_congr {e e' : ModelTrustDomain} (htier : e.tier = e'.tier)
    (hlength : (providersOf c.resolver dependency).length
      = (providersOf c'.resolver dependency).length)
    (hrefusal : c.refusal i dependency e = c'.refusal i dependency e') :
    c.refusedAttempt i dependency e = c'.refusedAttempt i dependency e' := by
  unfold Call.refusedAttempt refusedAttempt
  unfold Call.refusal at hrefusal
  rw [hrefusal, htier, hlength]

section
variable (hsha : Function.Injective i.sha256) (hblake : Function.Injective i.blake3)
  (hfloat : FloatDigits i.floatRepr)
include hsha hblake hfloat

/-- Two resolutions that walk alike have the same result. -/
theorem determined_of_sameWalk
    (h : c.Recordable dependency → c'.Recordable dependency → SameRecord i dependency c c' →
      ∀ k domain k' domain', c.ResolvesAt i dependency k domain →
        c'.ResolvesAt i dependency k' domain' →
          SameWalk i dependency c c' k k' domain domain') : Determined i dependency c c' := by
  intro plan plan' hplan hplan' hhashes
  obtain ⟨k, d, p, hwalk⟩ := walk_of_plan hplan
  obtain ⟨k', d', p', hwalk'⟩ := walk_of_plan hplan'
  have hrecord := (sameRecord_iff hsha hblake hfloat hwalk hwalk').mp hhashes
  have hsame := h (resolvesAt_of_plan hplan).1 (resolvesAt_of_plan hplan').1 hrecord k d k' d'
    hwalk.resolves hwalk'.resolves
  have hlength := length_providersOf hrecord.registry
  have htiers := map_tier_sortedDomains hrecord.graph
  have htier : ∀ {j : ℕ} {e e' : ModelTrustDomain},
      (sortedDomains c.trustDomains)[j]? = some e →
      (sortedDomains c'.trustDomains)[j]? = some e' → e.tier = e'.tier := by
    intro j e e' he he'
    have htier := congrArg (fun l => l[j]?) htiers
    simpa only [List.getElem?_map, he, he', Option.map_some, Option.some.injEq] using htier
  -- both walks stop at the same turn
  have hturns := hsame.turns
  subst hturns
  have hlast : d.tier = d'.tier := htier hwalk.resolves.at_turn hwalk'.resolves.at_turn
  obtain ⟨q, q', hq, hq', hadapter⟩ := hsame.adapter
  rw [hq.unique (c.resolver.registry.nodup_ids _) hwalk.picks,
    hq'.unique (c'.resolver.registry.nodup_ids _) hwalk'.picks] at hadapter
  refine ⟨?_, ?_, ?_⟩
  · rw [hwalk.hops, hwalk'.hops]
    unfold hopTo
    rw [hadapter, hsame.domainId, hlast]
  · rw [hwalk.resolutionTierUsed, hwalk'.resolutionTierUsed, hlast]
  · rw [hwalk.tierProgression, hwalk'.tierProgression, hlast, hlength]
    refine congrArg (· ++ _) (List.ext_getElem? fun j => ?_)
    by_cases hj : j < k
    · have hsize : (sortedDomains c.trustDomains).length
          = (sortedDomains c'.trustDomains).length := by
        simpa using congrArg List.length htiers
      have hlt : k < (sortedDomains c.trustDomains).length :=
        (List.getElem?_eq_some_iff.mp hwalk.resolves.at_turn).1
      have he := List.getElem?_eq_getElem (show j < (sortedDomains c.trustDomains).length by omega)
      have he' := List.getElem?_eq_getElem
        (show j < (sortedDomains c'.trustDomains).length by omega)
      rw [List.getElem?_map, List.getElem?_map, List.getElem?_take_of_lt hj,
        List.getElem?_take_of_lt hj, he, he', Option.map_some, Option.map_some,
        refusedAttempt_congr (htier he he') hlength (hsame.refusals j hj _ _ he he')]
    · rw [List.getElem?_map, List.getElem?_map, List.getElem?_take_eq_none (not_lt.mp hj),
        List.getElem?_take_eq_none (not_lt.mp hj), Option.map_none, Option.map_none]

/-- With equal hashes the plans are the same if and only if the walks are, and the adapters of the
providers that are picked. -/
theorem determined_iff :
    Determined i dependency c c' ↔
      (c.Recordable dependency → c'.Recordable dependency → SameRecord i dependency c c' →
        ∀ k domain k' domain', c.ResolvesAt i dependency k domain →
          c'.ResolvesAt i dependency k' domain' →
            SameWalk i dependency c c' k k' domain domain') := by
  constructor
  · intro hdetermined hrecordable hrecordable' hrecord k d k' d' hresolves hresolves'
    obtain ⟨plan, -, hplan, -⟩ := exists_plan hrecordable hresolves
    obtain ⟨plan', -, hplan', -⟩ := exists_plan hrecordable' hresolves'
    obtain ⟨k₀, d₀, p, hwalk⟩ := walk_of_plan hplan
    obtain ⟨k₀', d₀', p', hwalk'⟩ := walk_of_plan hplan'
    obtain ⟨rfl, rfl⟩ := resolvesAt_unique hwalk.resolves hresolves
    obtain ⟨rfl, rfl⟩ := resolvesAt_unique hwalk'.resolves hresolves'
    obtain ⟨hhops, -, hprogression⟩ := hdetermined plan plan' hplan hplan'
      ((sameRecord_iff hsha hblake hfloat hwalk hwalk').mpr hrecord)
    rw [hwalk.hops, hwalk'.hops, List.cons.injEq] at hhops
    rw [hwalk.tierProgression, hwalk'.tierProgression] at hprogression
    have hlt : k₀ < (sortedDomains c.trustDomains).length :=
      (List.getElem?_eq_some_iff.mp hresolves.at_turn).1
    have hlt' : k₀' < (sortedDomains c'.trustDomains).length :=
      (List.getElem?_eq_some_iff.mp hresolves'.at_turn).1
    have hturns : k₀ = k₀' := by
      have hlength := congrArg List.length hprogression
      simp only [List.length_append, List.length_map, List.length_take,
        List.length_singleton] at hlength
      omega
    refine ⟨hturns, congrArg ModelResolutionRouteHop.trustDomain hhops.1, ?_,
      p, p', hwalk.picks, hwalk'.picks, congrArg ModelResolutionRouteHop.adapterId hhops.1⟩
    intro j hj e e' he he'
    have hfronts := (List.append_inj' hprogression rfl).1
    have hattempt := congrArg (fun l => l[j]?) hfronts
    simp only [List.getElem?_map, List.getElem?_take_of_lt hj,
      List.getElem?_take_of_lt (hturns ▸ hj), he, he', Option.map_some, Option.some.injEq]
      at hattempt
    rw [← attemptRefusal_refusedAttempt, ← attemptRefusal_refusedAttempt, hattempt]
  · exact determined_of_sameWalk hsha hblake hfloat

end

/-! ### What the hashes leave out -/

variable (dependency c c') in
/-- Two calls agree on what the hashes leave out: the values of providers, where features override
attributes, the order of domains in a tier, what domains enforce, and whether there is a bundle. -/
structure SameUnhashed : Prop where
  values : ∀ p ∈ providersOf c.resolver dependency, ∀ p' ∈ providersOf c'.resolver dependency,
    p.providerId = p'.providerId → p.value = p'.value
  order : (sortedDomains c.trustDomains).map ModelTrustDomain.domainId
    = (sortedDomains c'.trustDomains).map ModelTrustDomain.domainId
  enforced : ∀ d ∈ c.trustDomains, ∀ d' ∈ c'.trustDomains, d.domainId = d'.domainId →
    d.encryptionEnforced = d'.encryptionEnforced ∧ d.redactionEnforced = d'.redactionEnforced
  bundle : c.policyBundle.isSome = c'.policyBundle.isSome

theorem exists_mem_of_map_sortedAsc {α β κ : Type} [LinearOrder κ] {key : α → κ} {f : α → β}
    {l l' : List α} (h : (sortedAsc key l).map f = (sortedAsc key l').map f) {a : α} (ha : a ∈ l) :
    ∃ a' ∈ l', f a = f a' := by
  have hmem : f a ∈ (sortedAsc key l').map f := by
    rw [← h]
    exact List.mem_map_of_mem ((perm_sortedAsc key l).mem_iff.mpr ha)
  obtain ⟨a', ha', heq⟩ := List.mem_map.mp hmem
  exact ⟨a', (perm_sortedAsc key l').mem_iff.mp ha', heq.symm⟩

theorem textDump_inj {s t : String} (h : (textDump s).sortKeys = (textDump t).sortKeys) :
    s = t := by
  simpa [textDump] using h

theorem boolDump_inj {x y : Bool}
    (h : (Json.prim (.bool x) : Dump).sortKeys = (Json.prim (.bool y)).sortKeys) : x = y := by
  simpa using h

theorem mapTextDump_inj {α : Type} {f : α → String} (hf : Function.Injective f) {l l' : List α}
    (h : (Json.list (l.map fun a => textDump (f a))).sortKeys
      = (Json.list (l'.map fun a => textDump (f a))).sortKeys) : l = l' := by
  have hsort : ∀ l : List α, (l.map fun a => textDump (f a)).map Json.sortKeys
      = l.map fun a => textDump (f a) := fun l => by
    rw [List.map_map]
    rfl
  rw [Json.sortKeys_list, Json.sortKeys_list, Json.list.injEq, hsort, hsort] at h
  exact List.map_injective_iff.mpr (fun _ _ heq => hf (textDump_inj (congrArg _ heq))) h

/-- A gate as it is recorded refuses the same domains for the same reasons. -/
theorem gateRefusal_congr {gate gate' : ModelClassificationGate} {d d' : ModelTrustDomain}
    (hgate : gate.dump.sortKeys = gate'.dump.sortKeys) (hid : d.domainId = d'.domainId)
    (htier : d.tier = d'.tier) (hencryption : d.encryptionEnforced = d'.encryptionEnforced)
    (hredaction : d.redactionEnforced = d'.redactionEnforced) :
    gateRefusal i d gate = gateRefusal i d' gate' := by
  have hvalue : ∀ key v v', (key, v) ∈ _ → (key, v') ∈ _ → Json.sortKeys v = Json.sortKeys v' :=
    fun key v v' => Json.sortKeys_value_eq hgate (by simp)
  have hclass := textDump_inj (hvalue "classification" (textDump gate.classification.value)
    (textDump gate'.classification.value) (by simp) (by simp))
  have htiers := mapTextDump_inj tierValue_injective (hvalue "allowed_tiers" _ _
    (List.mem_cons_of_mem _ List.mem_cons_self) (List.mem_cons_of_mem _ List.mem_cons_self))
  have hencrypt := boolDump_inj (hvalue "require_encryption" (.prim (.bool gate.requireEncryption))
    (.prim (.bool gate'.requireEncryption)) (by simp) (by simp))
  have hredact := boolDump_inj (hvalue "require_redaction" (.prim (.bool gate.requireRedaction))
    (.prim (.bool gate'.requireRedaction)) (by simp) (by simp))
  unfold gateRefusal
  rw [hclass, htiers, hencrypt, hredact, hid, htier, hencryption, hredaction]

theorem checkClassificationGates_congr {bundle bundle' : ModelPolicyBundle}
    {d d' : ModelTrustDomain} (h : bundle.dump.sortKeys = bundle'.dump.sortKeys)
    (hgates : ∀ gate gate' : ModelClassificationGate, gate.dump.sortKeys = gate'.dump.sortKeys →
      gateRefusal i d gate = gateRefusal i d' gate') :
    checkClassificationGates i d bundle = checkClassificationGates i d' bundle' := by
  have hlists : (Json.list (bundle.classificationGates.map (·.dump))).sortKeys
      = (Json.list (bundle'.classificationGates.map (·.dump))).sortKeys :=
    @Json.sortKeys_value_eq _ _ _ h (by simp) "classification_gates" _ _ (by simp) (by simp)
  rw [Json.sortKeys_list, Json.sortKeys_list, Json.list.injEq, List.map_map, List.map_map]
    at hlists
  unfold checkClassificationGates
  revert hlists
  generalize bundle.classificationGates = gates
  generalize bundle'.classificationGates = gates'
  intro hlists
  induction gates generalizing gates' with
  | nil =>
    rw [List.map_nil, eq_comm, List.map_eq_nil_iff] at hlists
    rw [hlists]
    rfl
  | cons gate rest ih =>
    cases gates' with
    | nil => exact nomatch hlists
    | cons gate' rest' =>
      rw [List.map_cons, List.map_cons, List.cons.injEq] at hlists
      rw [List.findSome?_cons, List.findSome?_cons, hgates gate gate' hlists.1, ih rest' hlists.2]

theorem domainId_of_dump {d d' : ModelTrustDomain}
    (h : (domainDump d).sortKeys = (domainDump d').sortKeys) : d.domainId = d'.domainId :=
  textDump_inj (@Json.sortKeys_value_eq _ _ _ h (by simp) "domain_id" (textDump d.domainId)
    (textDump d'.domainId) (by simp) (by simp))

/-- The same domain, for two calls that agree on bundles and flags, is refused for the same
reason. -/
theorem refusal_congr (hpolicy : SamePolicy i c c')
    (hbundle : c.policyBundle.isSome = c'.policyBundle.isSome) {d d' : ModelTrustDomain}
    (hdump : (domainDump d).sortKeys = (domainDump d').sortKeys)
    (hencryption : d.encryptionEnforced = d'.encryptionEnforced)
    (hredaction : d.redactionEnforced = d'.redactionEnforced) :
    c.refusal i dependency d = c'.refusal i dependency d' := by
  have hvalue : ∀ key v v', (key, v) ∈ _ → (key, v') ∈ _ → Json.sortKeys v = Json.sortKeys v' :=
    fun key v v' => Json.sortKeys_value_eq hdump (by simp)
  have hid := domainId_of_dump hdump
  have htier := tierValue_injective (textDump_inj (hvalue "tier" (textDump d.tier.value)
    (textDump d'.tier.value) (by simp) (by simp)))
  have hcapabilities : (sortedAsc id d.allowedCapabilities) = sortedAsc id d'.allowedCapabilities :=
    mapTextDump_inj Function.injective_id (hvalue "allowed_capabilities"
      (.list ((sortedAsc id d.allowedCapabilities).map textDump))
      (.list ((sortedAsc id d'.allowedCapabilities).map textDump)) (by simp) (by simp))
  have hperm : d.allowedCapabilities.Perm d'.allowedCapabilities := by
    have hsorted := perm_sortedAsc id d.allowedCapabilities
    rw [hcapabilities] at hsorted
    exact hsorted.symm.trans (perm_sortedAsc id d'.allowedCapabilities)
  have hallows : d.allows dependency.capability = d'.allows dependency.capability := by
    unfold ModelTrustDomain.allows
    rw [hperm.isEmpty_eq, hperm.any_eq]
  have hgates : c.policyBundle.bind (checkClassificationGates i d)
      = c'.policyBundle.bind (checkClassificationGates i d') := by
    unfold SamePolicy at hpolicy
    cases hleft : c.policyBundle with
    | none =>
      rw [hleft, Option.isSome_none, eq_comm, Option.isSome_eq_false_iff,
        Option.isNone_iff_eq_none] at hbundle
      rw [hbundle]
      rfl
    | some bundle =>
      cases hright : c'.policyBundle with
      | none =>
        rw [hleft, hright] at hbundle
        cases hbundle
      | some bundle' =>
        rw [hleft, hright] at hpolicy
        exact checkClassificationGates_congr hpolicy fun _ _ hgate =>
          gateRefusal_congr hgate hid htier hencryption hredaction
  unfold Call.refusal refusal noProvidersReason
  rw [hgates, hallows, hid]

theorem passes_iff {turn : ℕ} {domain : ModelTrustDomain} (hpicks : ∃ p, c.Picks i dependency p) :
    Passes (i.at c) c.resolver dependency c.policyBundle none turn domain ↔
      c.refusal i dependency domain = none ∧
        ∀ m, minTier dependency = some m → tierIndex m ≤ tierIndex domain.tier := by
  have hattested :
      attestationRefusal (i.at c) c.resolver dependency none turn domain = .ok none := by
    unfold attestationRefusal
    cases c.resolver.tokenVerifier <;> rfl
  have hgates := @checkClassificationGates_eq_none_iff domain i c.policyBundle
  have hrefusal : c.refusal i dependency domain = none ↔
      (∀ gate ∈ gatesOf c.policyBundle, Opens domain gate) ∧
        domain.allows dependency.capability = true := by
    rw [← hgates]
    unfold Call.refusal refusal
    cases c.policyBundle.bind (checkClassificationGates i domain) with
    | some reason => simp
    | none => by_cases hallows : domain.allows dependency.capability = true <;> simp [hallows]
  rw [hrefusal]
  exact ⟨fun h => ⟨⟨h.qualifies.gates, h.qualifies.supplies.1⟩, h.qualifies.trusted⟩,
    fun h => ⟨⟨h.1.1, ⟨h.1.2, hpicks⟩, h.2⟩, hattested⟩⟩

/-- What is picked is picked from another list, if its providers have the same values. -/
theorem picks_of_sameValues {r : ResolverInterpreter} {profile : Option ModelProfile}
    {providers providers' : List ModelProviderDescriptor} {p p' : ModelProviderDescriptor}
    (hids' : (providers'.map ModelProviderDescriptor.providerId).Nodup)
    (hback : ∀ q' ∈ providers', ∃ q ∈ providers, q.providerId = q'.providerId ∧ q.value = q'.value)
    (hp : Picks r dependency profile providers p) (hp' : p' ∈ providers')
    (hid : p.providerId = p'.providerId) (hvalue : p.value = p'.value) :
    Picks r dependency profile providers' p' := by
  have heligible : ∀ {q q' : ModelProviderDescriptor}, q.value = q'.value →
      (Eligible dependency q ↔ Eligible dependency q') := by
    intro q q' hq
    unfold Eligible ModelProviderDescriptor.satisfies
    rw [hq]
  have hscore : ∀ {q q' : ModelProviderDescriptor}, q.providerId = q'.providerId →
      q.value = q'.value → score r dependency profile q = score r dependency profile q' := by
    intro q q' hq hv
    unfold score ModelProviderDescriptor.satisfies
    rw [hq, hv]
  unfold Picks at hp ⊢
  by_cases hpin : pin dependency profile ≠ ""
  · rw [if_pos hpin] at hp ⊢
    exact ⟨hp', (heligible hvalue).mp hp.2.1, hid ▸ hp.2.2⟩
  · rw [if_neg hpin] at hp ⊢
    cases hpolicy : dependency.selectionPolicy with
    | requireExplicit =>
      rw [hpolicy] at hp
      exact hp
    | autoIfUnique =>
      rw [hpolicy] at hp
      have hmem : ∀ q, q ∈ providers ∧ Eligible dependency q ↔ q = p := by
        intro q
        rw [← List.mem_singleton, ← hp, List.mem_filter, decide_eq_true_eq]
      refine (filter_eq_singleton_iff hids'.of_map hp').mpr ⟨?_, fun q' hq' helig => ?_⟩
      · exact decide_eq_true ((heligible hvalue).mp ((hmem p).mpr rfl).2)
      · obtain ⟨q, hq, hqid, hqvalue⟩ := hback q' hq'
        have hqp := (hmem q).mp ⟨hq, (heligible hqvalue).mpr (of_decide_eq_true helig)⟩
        refine List.inj_on_of_nodup_map hids' hq' hp' ?_
        rw [← hqid, hqp, hid]
    | bestScore =>
      rw [hpolicy] at hp
      refine ⟨hp', (heligible hvalue).mp hp.2.1, fun q' hq' helig => ?_⟩
      obtain ⟨q, hq, hqid, hqvalue⟩ := hback q' hq'
      rw [← hscore hqid hqvalue, ← hscore hid hvalue, ← hqid, ← hid]
      exact hp.2.2 q hq ((heligible hqvalue).mpr helig)

/-- A provider stands in the other registry too, by the record. -/
theorem exists_sameProvider
    (hrecord : (registryDump c.resolver.registry dependency.capability).sortKeys
      = (registryDump c'.resolver.registry dependency.capability).sortKeys)
    {p : ModelProviderDescriptor} (hp : p ∈ providersOf c.resolver dependency) :
    ∃ p' ∈ providersOf c'.resolver dependency,
      p.providerId = p'.providerId ∧ p.adapter = p'.adapter := by
  unfold registryDump at hrecord
  rw [Json.sortKeys_list, Json.sortKeys_list, Json.list.injEq, List.map_map, List.map_map]
    at hrecord
  obtain ⟨p', hp', hdump⟩ := exists_mem_of_map_sortedAsc hrecord hp
  have htext : ∀ {v v' : JsonType} {s t : String}, v = .prim (.strict (.str s)) →
      v' = .prim (.strict (.str t)) → v.sortKeys = v'.sortKeys → s = t := by
    intro v v' s t hs ht heq
    rw [hs, ht] at heq
    simpa using heq
  exact ⟨p', hp',
    UUID.str_injective (htext rfl rfl
      (@Json.sortKeys_value_eq _ _ _ hdump (by simp) "provider_id" _ _ (by simp) (by simp))),
    htext rfl rfl (@Json.sortKeys_value_eq _ _ _ hdump (by simp) "adapter" _ _ (by simp) (by simp))⟩

section
variable (hsha : Function.Injective i.sha256) (hblake : Function.Injective i.blake3)
  (hfloat : FloatDigits i.floatRepr)
include hsha hblake hfloat

/-- Two calls that agree on what the hashes leave out have the same plans under the same hashes. -/
theorem determined_of_sameUnhashed (hids : (c'.trustDomains.map ModelTrustDomain.domainId).Nodup)
    (h : SameUnhashed dependency c c') : Determined i dependency c c' := by
  refine determined_of_sameWalk hsha hblake hfloat fun _ _ hrecord => ?_
  intro k d k' d' hresolves hresolves'
  obtain ⟨p, hp⟩ : ∃ p, c.Picks i dependency p := hresolves.passes.qualifies.supplies.2
  obtain ⟨p', hp'⟩ : ∃ p, c'.Picks i dependency p := hresolves'.passes.qualifies.supplies.2
  have hgraph := hrecord.graph
  unfold trustGraphDump at hgraph
  rw [Json.sortKeys_list, Json.sortKeys_list, Json.list.injEq, List.map_map, List.map_map] at hgraph
  have htiers := map_tier_sortedDomains hrecord.graph
  -- at each position the two calls try the same domain
  have hturn : ∀ {j : ℕ} {e e' : ModelTrustDomain}, (sortedDomains c.trustDomains)[j]? = some e →
      (sortedDomains c'.trustDomains)[j]? = some e' → e.domainId = e'.domainId ∧
        e.tier = e'.tier ∧ c.refusal i dependency e = c'.refusal i dependency e' := by
    intro j e e' he he'
    have hid := congrArg (fun l => l[j]?) h.order
    have htier := congrArg (fun l => l[j]?) htiers
    simp only [List.getElem?_map, he, he', Option.map_some, Option.some.injEq] at hid htier
    have hmem := mem_sortedDomains.mp (List.mem_of_getElem? he)
    have hmem' := mem_sortedDomains.mp (List.mem_of_getElem? he')
    obtain ⟨e'', he'', hdump⟩ := exists_mem_of_map_sortedAsc hgraph hmem
    obtain rfl := List.inj_on_of_nodup_map hids he'' hmem'
      ((domainId_of_dump hdump).symm.trans hid)
    obtain ⟨hencryption, hredaction⟩ := h.enforced e hmem e'' he'' hid
    exact ⟨hid, htier, refusal_congr hrecord.policy h.bundle hdump hencryption hredaction⟩
  have hlength :
      (sortedDomains c.trustDomains).length = (sortedDomains c'.trustDomains).length := by
    simpa using congrArg List.length htiers
  have hk := (List.getElem?_eq_some_iff.mp hresolves.at_turn).1
  have hk' := (List.getElem?_eq_some_iff.mp hresolves'.at_turn).1
  have hpasses : ∀ {j : ℕ} {e e' : ModelTrustDomain},
      (sortedDomains c.trustDomains)[j]? = some e →
      (sortedDomains c'.trustDomains)[j]? = some e' →
      (Passes (i.at c) c.resolver dependency c.policyBundle none j e ↔
        Passes (i.at c') c'.resolver dependency c'.policyBundle none j e') := by
    intro j e e' he he'
    obtain ⟨-, htier, hrefusal⟩ := hturn he he'
    rw [passes_iff ⟨p, hp⟩, passes_iff ⟨p', hp'⟩, htier, hrefusal]
  -- where one call stops, the other one passes as well
  have hturns : k = k' := by
    rcases Nat.lt_trichotomy k k' with hlt | heq | hlt
    · have he' := List.getElem?_eq_getElem (hlength ▸ hk)
      exact absurd ((hpasses hresolves.at_turn he').mp hresolves.passes)
        (hresolves'.before k hlt _ he').1
    · exact heq
    · have he := List.getElem?_eq_getElem (hlength.symm ▸ hk')
      exact absurd ((hpasses he hresolves'.at_turn).mpr hresolves'.passes)
        (hresolves.before k' hlt _ he).1
  subst hturns
  -- both registries hold the provider, with the same values
  obtain ⟨q, hq, hid, hadapter⟩ := exists_sameProvider hrecord.registry hp.eligible.1
  have hpicks : c'.Picks i dependency q := by
    refine picks_of_sameValues (c'.resolver.registry.nodup_ids _) (fun q' hq' => ?_) hp hq hid
      (h.values p hp.eligible.1 q hq hid)
    obtain ⟨r, hr, hid', -⟩ := exists_sameProvider hrecord.registry.symm hq'
    exact ⟨r, hr, hid'.symm, h.values r hr q' hq' hid'.symm⟩
  exact ⟨rfl, (hturn hresolves.at_turn hresolves'.at_turn).1,
    fun j _ e e' he he' => (hturn he he').2.2, p, q, hp, hpicks, congrArg strip hadapter⟩

end

end

/-! ## A provider and its replica -/

def withoutFeatures (p : ModelProviderDescriptor) : ModelProviderDescriptor :=
  { p with declaredFeatures := [], observedFeatures := [] }

theorem registrySnapshotHash_congr {i : TieredInterpreter} {registry registry' : ProviderRegistry}
    {capability : String}
    (h : (registry.getProvidersForCapability capability).map withoutFeatures
      = (registry'.getProvidersForCapability capability).map withoutFeatures) :
    computeRegistrySnapshotHash i registry capability
      = computeRegistrySnapshotHash i registry' capability := by
  have hdump : ∀ l : List ModelProviderDescriptor,
      (sortedAsc (fun p => p.providerId.str) l).map providerDump
        = (sortedAsc (fun p => p.providerId.str) (l.map withoutFeatures)).map providerDump := by
    intro l
    have hmap : sortedAsc (fun p => p.providerId.str) (l.map withoutFeatures)
        = (sortedAsc (fun p => p.providerId.str) l).map withoutFeatures :=
      sortedAsc_map _ (fun _ => rfl) l
    rw [hmap, List.map_map]
    rfl
  unfold computeRegistrySnapshotHash
  simp only
  rw [hdump, h, ← hdump]

/-- A registry of a database and its replica, with the features that they declare. -/
def replicaRegistry (features replicaFeatures : JsonObject) : ProviderRegistry where
  getProvidersForCapability capability :=
    if capability = "database.relational" then [
      { postgres with declaredFeatures := features },
      { postgres with
        providerId := ⟨2⟩
        adapter := "omnibase_infra.adapters.ReplicaAdapter"
        declaredFeatures := replicaFeatures
        adapter_nonblank := by decide }]
    else []
  offers capability provider h := by
    by_cases hc : capability = "database.relational"
    · rw [if_pos hc, List.mem_cons, List.mem_singleton] at h
      rcases h with h | h <;> (rw [h, hc]; exact List.mem_singleton_self _)
    · rw [if_neg hc] at h
      exact absurd h List.not_mem_nil
  nodup_ids capability := by
    by_cases hc : capability = "database.relational"
    · rw [if_pos hc]
      show ([⟨1⟩, ⟨2⟩] : List UUID).Nodup
      decide
    · rw [if_neg hc]
      exact List.nodup_nil

/-- The feature of a provider that can be written to. -/
def writable : JsonObject := [("writable", .prim (.strict (.bool true)))]

def writableDependency : ModelCapabilityDependency :=
  { databaseDependency with
    requirements := {
      must := writable
      serializable := by simp [writable, JsonPrimitive.Serializable] } }

def plainTieredInterpreter : TieredInterpreter :=
  { tokenlessInterpreter with
    sha256 := fun text => text
    floatRepr := fun q => "." ++ (Encodable.encode q).repr }

theorem floatDigits_plain : FloatDigits plainTieredInterpreter.floatRepr := floatDigits_encode

def replicaCall (features replicaFeatures : JsonObject) : Call where
  clock _ _ := 0
  resolver := ⟨replicaRegistry features replicaFeatures, none⟩
  trustDomains := [orgDomain]
  policyBundle := none

theorem determined_iff_replica :
    Function.Injective plainTieredInterpreter.sha256 ∧
      Function.Injective plainTieredInterpreter.blake3 ∧
      FloatDigits plainTieredInterpreter.floatRepr ∧
      (Determined plainTieredInterpreter writableDependency (replicaCall writable [])
          (replicaCall [] writable) ↔
        ((replicaCall writable []).Recordable writableDependency →
          (replicaCall [] writable).Recordable writableDependency →
          SameRecord plainTieredInterpreter writableDependency (replicaCall writable [])
            (replicaCall [] writable) →
          ∀ k domain k' domain',
            (replicaCall writable []).ResolvesAt plainTieredInterpreter writableDependency k domain →
            (replicaCall [] writable).ResolvesAt plainTieredInterpreter writableDependency k'
              domain' →
              SameWalk plainTieredInterpreter writableDependency (replicaCall writable [])
                (replicaCall [] writable) k k' domain domain')) :=
  ⟨fun _ _ h => h, fun _ _ h => h, floatDigits_plain,
    determined_iff (fun _ _ h => h) (fun _ _ h => h) floatDigits_plain⟩

theorem resolvesAt_replicaCall {features replicaFeatures : JsonObject} {p : ModelProviderDescriptor}
    (hp : (providersOf ⟨replicaRegistry features replicaFeatures, none⟩ writableDependency).filter
      (fun q => decide (Eligible writableDependency q)) = [p]) :
    (replicaCall features replicaFeatures).ResolvesAt plainTieredInterpreter writableDependency 0
        orgDomain ∧
      (replicaCall features replicaFeatures).Picks plainTieredInterpreter writableDependency p := by
  have hpicks : (replicaCall features replicaFeatures).Picks plainTieredInterpreter
      writableDependency p := by
    have hpin : pin writableDependency none = "" := rfl
    unfold Call.Picks
    rw [Picks, if_neg (not_not.mpr hpin)]
    exact hp
  refine ⟨⟨rfl, ⟨⟨by simp [gatesOf, replicaCall], ⟨rfl, p, hpicks⟩, ?_⟩, rfl⟩,
    fun j hj => absurd hj (by omega)⟩, hpicks⟩
  intro m hm
  cases hm

/-- If the replica can be written to and not the database, the route is another one, under the
same hashes. -/
theorem replica_not_determined :
    ¬ Determined plainTieredInterpreter writableDependency (replicaCall writable [])
      (replicaCall [] writable) := by
  intro hdetermined
  obtain ⟨hresolves, hpicks⟩ := @resolvesAt_replicaCall writable [] _ (by rfl)
  obtain ⟨hresolves', hpicks'⟩ := @resolvesAt_replicaCall [] writable _ (by rfl)
  have hrecordable : ∀ features replicaFeatures,
      (replicaCall features replicaFeatures).Recordable writableDependency := by
    intro features replicaFeatures
    refine ⟨fun p hp => ?_, nofun⟩
    have hmem : p ∈ [_, _] := hp
    rw [List.mem_cons, List.mem_singleton] at hmem
    rcases hmem with h | h <;> (rw [h]; simp [postgres])
  obtain ⟨plan, -, hplan, -⟩ := exists_plan (hrecordable _ _) hresolves
  obtain ⟨plan', -, hplan', -⟩ := exists_plan (hrecordable _ _) hresolves'
  obtain ⟨k, d, p, hwalk⟩ := walk_of_plan hplan
  obtain ⟨k', d', p', hwalk'⟩ := walk_of_plan hplan'
  have hregistry : computeRegistrySnapshotHash plainTieredInterpreter (replicaRegistry writable [])
        writableDependency.capability
      = computeRegistrySnapshotHash plainTieredInterpreter (replicaRegistry [] writable)
        writableDependency.capability :=
    registrySnapshotHash_congr rfl
  have hhashes : SameHashes plan plan' := by
    refine ⟨?_, ?_, ?_⟩
    · exact Except.ok.inj (hwalk.registryHash.symm.trans (hregistry.trans hwalk'.registryHash))
    · exact Except.ok.inj (hwalk.policyHash.symm.trans hwalk'.policyHash)
    · exact Except.ok.inj (hwalk.graphHash.symm.trans hwalk'.graphHash)
  obtain ⟨hhops, -⟩ := hdetermined plan plan' hplan hplan' hhashes
  rw [hwalk.hops, hwalk'.hops, hwalk.picks.unique ((replicaRegistry _ _).nodup_ids _) hpicks,
    hwalk'.picks.unique ((replicaRegistry _ _).nodup_ids _) hpicks', List.cons.injEq] at hhops
  have hadapter : strip "omnibase_infra.adapters.PostgresAdapter"
      = strip "omnibase_infra.adapters.ReplicaAdapter" :=
    congrArg ModelResolutionRouteHop.adapterId hhops.1
  exact absurd hadapter (by decide)

end OmnibaseCore.Tiered
