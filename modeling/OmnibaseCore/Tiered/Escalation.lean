import OmnibaseCore.Tiered.RouteTheorems

/-!
# Escalation through the tiers

* `escalationLaw_iff`: domains of different tiers are tried in tier order, whatever the order in
  which they are given, up to the first that lets the dependency pass, and every try is written
  down, if and only if no check of a token raises an error on the way and the hashes of the route
  plan can be computed.
-/

namespace OmnibaseCore.Tiered

open Capability

/-- One attempt for each of the domains that satisfy a condition, in tier order. -/
structure OneAttemptEach (trustDomains : List ModelTrustDomain) (P : ModelTrustDomain → Prop)
    (attempts : List ModelTierAttempt) : Prop where
  ordered : attempts.Pairwise fun a b => tierIndex a.tier < tierIndex b.tier
  complete : ∀ tier, (∃ a ∈ attempts, a.tier = tier) ↔ ∃ d ∈ trustDomains, P d ∧ d.tier = tier

/-- A result without the hashes of the policy and of the trust graph, which are made of the
domains in the order in which they are given. -/
def ModelTieredResolutionResult.outcome (result : ModelTieredResolutionResult) :
    ModelTieredResolutionResult :=
  { result with
    routePlan := result.routePlan.map fun plan =>
      { plan with policyBundleHash := "", trustGraphHash := "" } }

section
variable (i : TieredInterpreter) (resolver : ServiceTieredResolver)
  (dependency : ModelCapabilityDependency) (trustDomains : List ModelTrustDomain)
  (policyBundle : Option ModelPolicyBundle)
  (capabilityTokens : Option (List ModelCapabilityToken))

def PassesInTurn (k : ℕ) (domain : ModelTrustDomain) : Prop :=
  (sortedDomains trustDomains)[k]? = some domain ∧
    Passes i resolver dependency policyBundle capabilityTokens k domain

def IsLeast (domain : ModelTrustDomain) : Prop :=
  (∃ k, PassesInTurn i resolver dependency trustDomains policyBundle capabilityTokens k domain) ∧
    ∀ j d, PassesInTurn i resolver dependency trustDomains policyBundle capabilityTokens j d →
      tierIndex domain.tier ≤ tierIndex d.tier

structure Chooses (result : ModelTieredResolutionResult) (plan : ModelRoutePlan)
    (domain : ModelTrustDomain) : Prop where
  least : IsLeast i resolver dependency trustDomains policyBundle capabilityTokens domain
  trustDomain : plan.hops.map ModelResolutionRouteHop.trustDomain = [domain.domainId]
  resolutionTierUsed : plan.resolutionTierUsed = domain.tier
  finalTier : result.finalTier = some domain.tier
  planProgression : plan.tierProgression = result.tierProgression
  attempts : OneAttemptEach trustDomains (fun d => tierIndex d.tier ≤ tierIndex domain.tier)
    result.tierProgression
  failures : ∃ failed last, result.tierProgression = failed ++ [last] ∧
    (∀ a ∈ failed, a.failureCode ≠ none) ∧ last.failureCode = none

/-- First success, with every attempt written down. -/
structure Escalates (result : ModelTieredResolutionResult) : Prop where
  succeeds : result.routePlan.isSome ↔ ∃ k d,
    PassesInTurn i resolver dependency trustDomains policyBundle capabilityTokens k d
  chosen : ∀ plan, result.routePlan = some plan → ∃ domain,
    Chooses i resolver dependency trustDomains policyBundle capabilityTokens result plan domain
  exhausted : result.routePlan = none →
    OneAttemptEach trustDomains (fun _ => True) result.tierProgression ∧
      (∀ a ∈ result.tierProgression, a.failureCode ≠ none) ∧ result.structuredFailure ≠ none

/-- The resolver escalates through the tiers, with one outcome for every order of the domains. -/
def EscalationLaw : Prop :=
  ∃ outcome, ∀ domains, domains.Perm trustDomains → ∃ result,
    resolveTiered i resolver dependency domains policyBundle capabilityTokens = .ok result ∧
      result.outcome = outcome ∧
      Escalates i resolver dependency trustDomains policyBundle capabilityTokens result

/-- The comparison of the times of a token with the clock raises an error. -/
def Incomparable (now : ℤ) (token : ModelCapabilityToken) : Prop :=
  token.expiresAt.instant = none ∨
    (∃ t, token.expiresAt.instant = some t ∧ now < t) ∧ token.issuedAt.instant = none

def ownTokens (domain : ModelTrustDomain) (tokens : List ModelCapabilityToken) :
    List ModelCapabilityToken :=
  let domainTokens := tokens.filter fun t => t.issuerDomain = domain.domainId
  domainTokens ++ domainTokens.getLast?.toList

/-- The tokens of a domain are verified, and before any attests the capability there is one whose
times cannot be compared. -/
def BreaksOff (turn : ℕ) (domain : ModelTrustDomain) : Prop :=
  (∀ gate ∈ gatesOf policyBundle, Opens domain gate) ∧ domain.tier ≠ .localExact ∧
    ∃ verifier tokens, resolver.tokenVerifier = some verifier ∧ capabilityTokens = some tokens ∧
      ∃ k token, (ownTokens domain tokens)[k]? = some token ∧
        Incomparable (i.clock turn (k + 1)) token ∧
        ∀ j < k, ∀ t, (ownTokens domain tokens)[j]? = some t →
          ¬ Attests i verifier (i.clock turn (j + 1)) t dependency.capability

/-- Nothing raises an error on the way to the first domain that lets the dependency pass, nor
there. -/
structure Unbroken : Prop where
  tokens : ∀ k d, (sortedDomains trustDomains)[k]? = some d →
    BreaksOff i resolver dependency policyBundle capabilityTokens k d →
      ∃ j < k, ∃ d',
        PassesInTurn i resolver dependency trustDomains policyBundle capabilityTokens j d'
  hashes : (∃ k d,
      PassesInTurn i resolver dependency trustDomains policyBundle capabilityTokens k d) →
    Recordable (providersOf resolver dependency) policyBundle

/-- The loop ends at a domain that lets the dependency pass, behind others that were tried. -/
structure StopsAt (front : List ModelTrustDomain) (domain : ModelTrustDomain)
    (back : List ModelTrustDomain) (fronts : List ModelTierAttempt) (last : ModelTierAttempt)
    (baseResult : ModelResolutionResult) (binding : ModelBinding) : Prop where
  split : sortedDomains trustDomains = front ++ domain :: back
  before : GoesOn (attemptDomain i resolver dependency policyBundle capabilityTokens) 0 front fronts
  stop : attemptDomain i resolver dependency policyBundle capabilityTokens front.length domain
    = .ok (.stop last (domain, baseResult, binding))

variable {i resolver dependency trustDomains policyBundle capabilityTokens}

/-! ## Tokens that break off -/

theorem exists_verifyCurrentToken {verifier : ServiceCapabilityTokenVerifier} {now : ℤ}
    {token : ModelCapabilityToken} {capability : String} :
    ∃ proof, verifyCurrentToken i verifier now token capability = .ok proof := by
  unfold verifyCurrentToken
  cases verifier.getDomainTrustRoot token.issuerDomain with
  | none => exact ⟨_, rfl⟩
  | some trustRoot =>
    cases i.urlsafeB64decode token.issuerPublicKey with
    | none => exact ⟨_, rfl⟩
    | some issuerKey =>
      obtain ⟨payload, hpayload⟩ := @exists_signingPayload i token
      simp only [hpayload, bind, Except.bind]
      split_ifs <;> exact ⟨_, rfl⟩

theorem verifyToken_error_iff {verifier : ServiceCapabilityTokenVerifier} {now : ℤ}
    {token : ModelCapabilityToken} {capability : String} :
    (∃ e, verifyToken i verifier now token capability = .error e) ↔ Incomparable now token := by
  unfold verifyToken Incomparable
  cases hexpires : token.expiresAt.instant with
  | none =>
    rw [comparable_of_naive hexpires]
    exact iff_of_true ⟨_, rfl⟩ (Or.inl rfl)
  | some expiresAt =>
    rw [comparable_eq_ok_iff.mpr hexpires]
    show (∃ e, (if expiresAt ≤ now then _ else _) = _) ↔ _
    by_cases hexpired : expiresAt ≤ now
    · rw [if_pos hexpired]
      refine iff_of_false nofun ?_
      simp [hexpired]
    · rw [if_neg hexpired]
      cases hissued : token.issuedAt.instant with
      | none =>
        rw [comparable_of_naive hissued]
        exact iff_of_true ⟨_, rfl⟩ (Or.inr ⟨⟨expiresAt, rfl, by omega⟩, rfl⟩)
      | some issuedAt =>
        rw [comparable_eq_ok_iff.mpr hissued]
        show (∃ e, (if now < issuedAt then _ else _) = _) ↔ _
        refine iff_of_false ?_ (by simp)
        by_cases hfuture : now < issuedAt
        · rw [if_pos hfuture]
          exact nofun
        · rw [if_neg hfuture]
          obtain ⟨proof, hproof⟩ := @exists_verifyCurrentToken i verifier now token capability
          rw [hproof]
          exact nofun

section
variable {verifier : ServiceCapabilityTokenVerifier} {capability : String} {turn n : ℕ}

variable {tokens : List ModelCapabilityToken}

/-- Tokens raise at the first one whose times cannot be compared, if none attests before. -/
theorem verifyTokens_error_iff :
    (∃ e, verifyTokens i verifier capability turn n tokens = .error e) ↔
      ∃ k token, tokens[k]? = some token ∧ Incomparable (i.clock turn (n + k)) token ∧
        ∀ j < k, ∀ t, tokens[j]? = some t → ¬ Attests i verifier (i.clock turn (n + j)) t
          capability := by
  induction tokens generalizing n with
  | nil => exact iff_of_false nofun (by simp)
  | cons token rest ih =>
    have hattests := @verifyToken_verified_iff i verifier (i.clock turn n) token capability
    rw [verifyTokens]
    cases htoken : verifyToken i verifier (i.clock turn n) token capability with
    | error e =>
      have hfirst : Incomparable (i.clock turn n) token := verifyToken_error_iff.mp ⟨e, htoken⟩
      exact iff_of_true ⟨e, rfl⟩ ⟨0, token, rfl, hfirst, fun j hj => absurd hj (by omega)⟩
    | ok proof =>
      have hcomparable : ¬ Incomparable (i.clock turn n) token := by
        intro h
        obtain ⟨e, he⟩ := verifyToken_error_iff.mpr h
        exact nomatch htoken.symm.trans he
      show (∃ e, (if proof.verified = true then _ else _) = _) ↔ _
      by_cases hverified : proof.verified = true
      · rw [if_pos hverified]
        refine iff_of_false nofun ?_
        intro ⟨k, t, hk, hbreaks, hbefore⟩
        cases k with
        | zero =>
          rw [List.getElem?_cons_zero, Option.some.injEq] at hk
          rw [← hk] at hbreaks
          exact hcomparable hbreaks
        | succ k =>
          have hnot := hbefore 0 (Nat.succ_pos k) token rfl
          exact hnot (hattests.mp ⟨proof, htoken, hverified⟩)
      · have hnot : ¬ Attests i verifier (i.clock turn n) token capability := by
          intro h
          obtain ⟨proof', hproof', hverified'⟩ := hattests.mpr h
          cases htoken.symm.trans hproof'
          exact hverified hverified'
        rw [if_neg hverified, ih]
        -- the token at `k` of the rest is the one at `k + 1` of all
        constructor
        · intro ⟨k, t, hk, hbreaks, hbefore⟩
          refine ⟨k + 1, t, hk, by rwa [Nat.add_right_comm] at hbreaks, fun j hj t' ht' => ?_⟩
          cases j with
          | zero =>
            rw [List.getElem?_cons_zero, Option.some.injEq] at ht'
            rwa [← ht']
          | succ j =>
            have hj' := hbefore j (by omega) t' ht'
            rwa [Nat.add_right_comm] at hj'
        · intro ⟨k, t, hk, hbreaks, hbefore⟩
          cases k with
          | zero =>
            rw [List.getElem?_cons_zero, Option.some.injEq] at hk
            rw [← hk] at hbreaks
            exact absurd hbreaks hcomparable
          | succ k =>
            refine ⟨k, t, hk, by rwa [Nat.add_right_comm], fun j hj t' ht' => ?_⟩
            rw [Nat.add_right_comm]
            exact hbefore (j + 1) (by omega) t' ht'

theorem verifyTokens_append {tokens tokens' : List ModelCapabilityToken} :
    verifyTokens i verifier capability turn n (tokens ++ tokens') = (do
      if ← verifyTokens i verifier capability turn n tokens then return true
      else verifyTokens i verifier capability turn (n + tokens.length) tokens') := by
  induction tokens generalizing n with
  | nil => rfl
  | cons token rest ih =>
    rw [List.cons_append, verifyTokens, verifyTokens]
    cases verifyToken i verifier (i.clock turn n) token capability with
    | error e => rfl
    | ok proof =>
      by_cases hverified : proof.verified = true
      · simp [bind, Except.bind, hverified, pure, Except.pure]
      · simp only [bind, Except.bind, hverified, ih, List.length_cons]
        rw [Nat.add_right_comm, Nat.add_assoc]
        rfl

theorem verifyCapabilityToken_error_iff {domain : ModelTrustDomain} :
    (∃ e, verifyCapabilityToken i verifier turn domain capability tokens = .error e) ↔
      ∃ e, verifyTokens i verifier capability turn 1 (ownTokens domain tokens) = .error e := by
  unfold verifyCapabilityToken ownTokens
  dsimp only
  cases hlast : (tokens.filter fun t => t.issuerDomain = domain.domainId).getLast? with
  | none =>
    rw [List.getLast?_eq_none_iff.mp hlast]
    exact iff_of_false nofun nofun
  | some last =>
    rw [Option.toList_some, verifyTokens_append]
    cases verifyTokens i verifier capability turn 1
      (tokens.filter fun t => t.issuerDomain = domain.domainId) with
    | error e => exact iff_of_true ⟨e, rfl⟩ ⟨e, rfl⟩
    | ok found =>
      cases found with
      | true => exact iff_of_false nofun nofun
      | false =>
        rw [Nat.add_comm 1]
        show (∃ e, (verifyToken _ _ _ last capability >>= _) = _) ↔
          ∃ e, verifyTokens _ _ _ _ _ [last] = _
        rw [verifyTokens]
        cases verifyToken i verifier (i.clock turn ((tokens.filter fun t =>
          t.issuerDomain = domain.domainId).length + 1)) last capability with
        | error e => exact iff_of_true ⟨e, rfl⟩ ⟨e, rfl⟩
        | ok proof =>
          refine iff_of_false nofun ?_
          show ¬ ∃ e, (if proof.verified = true then _ else _) = _
          split_ifs <;> exact nofun

end

variable {domain : ModelTrustDomain}

variable {turn : ℕ}

theorem raises_iff :
    Raises i resolver dependency policyBundle capabilityTokens turn domain ↔
      BreaksOff i resolver dependency policyBundle capabilityTokens turn domain := by
  unfold Raises BreaksOff attestationRefusal
  apply and_congr_right
  intro _
  cases resolver.tokenVerifier with
  | none => exact iff_of_false nofun nofun
  | some verifier =>
    cases capabilityTokens with
    | none => exact iff_of_false nofun nofun
    | some tokens =>
      dsimp only
      by_cases htier : domain.tier ≠ .localExact
      · rw [if_pos htier, verifyCapabilityToken_error_iff, verifyTokens_error_iff]
        simp [htier, Nat.add_comm 1]
      · rw [if_neg htier]
        exact iff_of_false nofun fun h => htier h.1

/-! ## Attempts -/

theorem record_of_next {record : ModelTierAttempt}
    (h : attemptDomain i resolver dependency policyBundle capabilityTokens turn domain
      = .ok (.next record)) : record.tier = domain.tier ∧ record.failureCode ≠ none := by
  unfold attemptDomain at h
  split at h
  · cases h
    exact ⟨rfl, by simp [blockedAttempt]⟩
  · obtain ⟨refusal, -, h⟩ := bind_eq_ok h
    cases refusal with
    | some reason =>
      cases h
      exact ⟨rfl, by simp [blockedAttempt]⟩
    | none =>
      dsimp only at h
      unfold resolveInDomain at h
      dsimp only at h
      split_ifs at h
      · cases h
        exact ⟨rfl, by simp [blockedAttempt]⟩
      · split at h
        · cases h
          exact ⟨rfl, by simp [resolvedAttempt]⟩
        · exact nomatch h
        · split at h
          · cases h
            exact ⟨rfl, by simp [resolvedAttempt]⟩
          · split at h
            · cases h
              exact ⟨rfl, by simp [resolvedAttempt]⟩
            · exact nomatch h

variable {baseResult : ModelResolutionResult} {binding : ModelBinding}

theorem record_of_stop {domain found : ModelTrustDomain} {record : ModelTierAttempt}
    (h : attemptDomain i resolver dependency policyBundle capabilityTokens turn domain
      = .ok (.stop record (found, baseResult, binding))) :
    record.tier = domain.tier ∧ record.failureCode = none := by
  obtain ⟨hpasses, -⟩ := passes_of_stop h
  obtain ⟨baseResult', binding', hstop, -⟩ := attemptDomain_of_passes hpasses
  cases h.symm.trans hstop
  exact ⟨rfl, rfl⟩

variable {domains : List ModelTrustDomain}

theorem records_of_goesOn {n : ℕ} {records : List ModelTierAttempt}
    (h : GoesOn (attemptDomain i resolver dependency policyBundle capabilityTokens) n domains
      records) :
    records.map ModelTierAttempt.tier = domains.map ModelTrustDomain.tier ∧
      ∀ a ∈ records, a.failureCode ≠ none := by
  induction domains generalizing n records with
  | nil =>
    rw [goesOn_nil.mp h]
    exact ⟨rfl, by simp⟩
  | cons d rest ih =>
    obtain ⟨record, records', rfl, hturn, hrest⟩ := goesOn_cons.mp h
    have hrecord := record_of_next hturn
    have hrecords := ih hrest
    refine ⟨?_, List.forall_mem_cons.mpr ⟨hrecord.2, hrecords.2⟩⟩
    rw [List.map_cons, List.map_cons, hrecord.1, hrecords.1]

/-! ## The order of the domains -/

section
variable (hdistinct : trustDomains.Pairwise fun d d' => d.tier ≠ d'.tier)
include hdistinct

theorem sortedDomains_of_perm (h : domains.Perm trustDomains) :
    sortedDomains domains = sortedDomains trustDomains := by
  apply Eq.symm
  apply sortedAsc_eq_of_perm_of_injOn _ _ h.symm
  intro d hd d' hd' heq
  by_contra hne
  have : Std.Symm fun d d' : ModelTrustDomain => d.tier ≠ d'.tier := ⟨fun _ _ h => h.symm⟩
  exact hdistinct.forall hd hd' hne (tierIndex_injective heq)

theorem pairwise_sortedDomains :
    (sortedDomains trustDomains).Pairwise fun d d' => tierIndex d.tier < tierIndex d'.tier := by
  have hle := pairwise_sortedAsc (fun d : ModelTrustDomain => tierIndex d.tier) trustDomains
  have hne : (sortedDomains trustDomains).Pairwise fun d d' => d.tier ≠ d'.tier :=
    (perm_sortedAsc _ trustDomains).symm.pairwise hdistinct fun h => h.symm
  exact hle.imp₂ (fun d d' hle hne => Nat.lt_of_le_of_ne hle fun heq =>
    hne (tierIndex_injective heq)) hne

end

/-! ## Results -/

/-- The walk over the domains: each goes on, up to one that stops it. -/
theorem resolveTiered_eq_ok_iff {result : ModelTieredResolutionResult} :
    resolveTiered i resolver dependency trustDomains policyBundle capabilityTokens = .ok result ↔
      (trustDomains = [] ∧
        result = failClosedResult [] .tierExhausted "No trust domains configured") ∨
      (trustDomains ≠ [] ∧ ∃ attempts,
        GoesOn (attemptDomain i resolver dependency policyBundle capabilityTokens) 0
          (sortedDomains trustDomains) attempts ∧ result = exhaustedResult attempts) ∨
      ∃ front domain back fronts last baseResult binding,
        StopsAt i resolver dependency trustDomains policyBundle capabilityTokens front domain back
          fronts last baseResult binding ∧
        successResult i resolver dependency trustDomains policyBundle (fronts ++ [last]) domain
          baseResult binding = .ok result := by
  unfold resolveTiered
  by_cases hempty : trustDomains = []
  · subst hempty
    show Except.ok (failClosedResult [] .tierExhausted "No trust domains configured") = _ ↔ _
    rw [Except.ok.injEq]
    constructor
    · intro h
      exact Or.inl ⟨rfl, h.symm⟩
    · intro h
      obtain ⟨-, h⟩ | ⟨hne, -⟩ | ⟨front, _, _, _, _, _, _, hstops, -⟩ := h
      · exact h.symm
      · exact absurd rfl hne
      · have hsplit := hstops.split
        cases front <;> exact nomatch hsplit
  · rw [if_neg (by simpa using hempty)]
    show (firstStop _ 0 (sortedDomains trustDomains) [] >>= _) = _ ↔ _
    rw [bind_eq_ok_iff]
    constructor
    · intro ⟨⟨attempts, success⟩, hloop, hresult⟩
      apply Or.inr
      cases success with
      | none =>
        obtain ⟨rest, hrest, hattempts⟩ := firstStop_eq_ok_none_iff.mp hloop
        cases hresult
        exact Or.inl ⟨hempty, rest, hrest, by rw [hattempts]; rfl⟩
      | some found =>
        obtain ⟨front, domain, back, fronts, last, hsplit, hbefore, hstop, hattempts⟩ :=
          firstStop_eq_ok_some_iff.mp hloop
        rw [Nat.zero_add] at hstop
        obtain ⟨-, hfound, -⟩ := passes_of_stop hstop
        rw [List.nil_append] at hattempts
        subst hattempts
        subst hfound
        exact Or.inr ⟨front, _, back, fronts, last, _, _, ⟨hsplit, hbefore, hstop⟩, hresult⟩
    · intro h
      obtain ⟨h, -⟩ | ⟨-, attempts, hattempts, hresult⟩ |
        ⟨front, domain, back, fronts, last, baseResult, binding, hstops, hresult⟩ := h
      · exact absurd h hempty
      · refine ⟨(attempts, none), firstStop_eq_ok_none_iff.mpr ⟨attempts, hattempts, rfl⟩, ?_⟩
        rw [hresult]
        rfl
      · refine ⟨(fronts ++ [last], some (domain, baseResult, binding)), ?_, hresult⟩
        refine firstStop_eq_ok_some_iff.mpr ⟨front, domain, back, fronts, last, hstops.split,
          hstops.before, ?_, rfl⟩
        rw [Nat.zero_add]
        exact hstops.stop

variable {front back : List ModelTrustDomain}

theorem StopsAt.resolvesAt {fronts : List ModelTierAttempt} {last : ModelTierAttempt}
    (h : StopsAt i resolver dependency trustDomains policyBundle capabilityTokens front domain back
      fronts last baseResult binding) :
    ResolvesAt i resolver dependency trustDomains policyBundle capabilityTokens front.length
      domain where
  at_turn := by simp [h.split]
  passes := (passes_of_stop h.stop).1
  before := by
    intro j hj d hd
    rw [h.split, List.getElem?_append_left hj] at hd
    have hnext := exists_goesOn_iff.mp ⟨fronts, h.before⟩ j d hd
    rw [Nat.zero_add] at hnext
    exact attemptDomain_next_iff.mp hnext

theorem exists_resolvesAt
    (htokens : ∀ k d, (sortedDomains trustDomains)[k]? = some d →
      BreaksOff i resolver dependency policyBundle capabilityTokens k d →
        ∃ j < k, ∃ d',
          PassesInTurn i resolver dependency trustDomains policyBundle capabilityTokens j d')
    (hpass : ∃ k d,
      PassesInTurn i resolver dependency trustDomains policyBundle capabilityTokens k d) :
    ∃ k d, ResolvesAt i resolver dependency trustDomains policyBundle capabilityTokens k d := by
  classical
  obtain ⟨domain, hturn, hpasses⟩ := Nat.find_spec hpass
  refine ⟨Nat.find hpass, domain, hturn, hpasses, fun j hj d hd => ⟨fun h => ?_, fun h => ?_⟩⟩
  · exact Nat.find_min hpass hj ⟨d, hd, h⟩
  · -- a domain that breaks off has one that passes before it
    obtain ⟨j', hj', hpass'⟩ := htokens j d hd (raises_iff.mp h)
    exact Nat.find_min hpass (hj'.trans hj) hpass'

/-- Nothing raises an error if and only if the resolver returns a result. -/
theorem exists_result_iff :
    (∃ result, resolveTiered i resolver dependency trustDomains policyBundle capabilityTokens
        = .ok result) ↔
      Unbroken i resolver dependency trustDomains policyBundle capabilityTokens := by
  constructor
  · intro ⟨result, h⟩
    obtain ⟨hempty, -⟩ | ⟨-, attempts, hattempts, -⟩ |
      ⟨front, domain, back, fronts, last, baseResult, binding, hstops, hresult⟩ :=
        resolveTiered_eq_ok_iff.mp h
    · subst hempty
      exact ⟨fun k d hk => (nomatch hk), fun ⟨k, d, hk, _⟩ => (nomatch hk)⟩
    · have hnext : ∀ k d, (sortedDomains trustDomains)[k]? = some d →
          ¬ Passes i resolver dependency policyBundle capabilityTokens k d ∧
            ¬ Raises i resolver dependency policyBundle capabilityTokens k d := by
        intro k d hk
        have hrecord := exists_goesOn_iff.mp ⟨attempts, hattempts⟩ k d hk
        rw [Nat.zero_add] at hrecord
        exact attemptDomain_next_iff.mp hrecord
      constructor
      · intro k d hk hbreaks
        exact absurd (raises_iff.mpr hbreaks) (hnext k d hk).2
      · intro ⟨k, d, hk, hpasses⟩
        exact absurd hpasses (hnext k d hk).1
    · have hresolves := hstops.resolvesAt
      obtain ⟨registryHash, graphHash, policyHash, hregistry, -, hpolicy, -⟩ :=
        successResult_eq_ok_iff.mp hresult
      constructor
      · intro k d hk hbreaks
        have hraises := raises_iff.mpr hbreaks
        refine ⟨front.length, ?_, domain, hresolves.at_turn, hresolves.passes⟩
        rcases Nat.lt_trichotomy k front.length with hlt | heq | hgt
        · exact absurd hraises (hresolves.before k hlt d hk).2
        · -- no domain both passes and raises an error
          rw [heq, hresolves.at_turn, Option.some.injEq] at hk
          obtain ⟨-, e, he⟩ := hraises
          rw [← hk, heq, hresolves.passes.attested] at he
          exact nomatch he
        · exact hgt
      · intro _
        exact ⟨exists_registrySnapshotHash_iff.mp ⟨_, hregistry⟩,
          exists_policyBundleHash_iff.mp ⟨_, hpolicy⟩⟩
  · intro hunbroken
    by_cases hpass : ∃ k d,
        PassesInTurn i resolver dependency trustDomains policyBundle capabilityTokens k d
    · obtain ⟨k, d, hresolves⟩ := exists_resolvesAt hunbroken.tokens hpass
      obtain ⟨plan, p, ⟨result, hresult, -⟩, -⟩ := exists_plan (hunbroken.hashes hpass) hresolves
      exact ⟨result, hresult⟩
    · by_cases hempty : trustDomains = []
      · exact ⟨_, resolveTiered_eq_ok_iff.mpr (Or.inl ⟨hempty, rfl⟩)⟩
      · obtain ⟨attempts, hattempts⟩ : ∃ attempts, GoesOn
            (attemptDomain i resolver dependency policyBundle capabilityTokens) 0
            (sortedDomains trustDomains) attempts := by
          apply exists_goesOn_iff.mpr
          intro k d hk
          rw [Nat.zero_add]
          refine attemptDomain_next_iff.mpr ⟨fun h => hpass ⟨k, d, hk, h⟩, fun h => ?_⟩
          obtain ⟨j, -, hpass'⟩ := hunbroken.tokens k d hk (raises_iff.mp h)
          exact hpass ⟨j, hpass'⟩
        exact ⟨_, resolveTiered_eq_ok_iff.mpr (Or.inr (Or.inl ⟨hempty, attempts, hattempts, rfl⟩))⟩

theorem exists_failClosedResult (attempts : List ModelTierAttempt) :
    ∃ code reason, exhaustedResult attempts = failClosedResult attempts code reason := by
  unfold exhaustedResult
  dsimp only
  split_ifs <;> exact ⟨_, _, rfl⟩

section
variable (hdistinct : trustDomains.Pairwise fun d d' => d.tier ≠ d'.tier)
include hdistinct

theorem oneAttemptEach_of_split {P : ModelTrustDomain → Prop}
    {attempts : List ModelTierAttempt} (hsplit : sortedDomains trustDomains = front ++ back)
    (hfront : ∀ d ∈ front, P d) (hback : ∀ d ∈ back, ¬ P d)
    (htiers : attempts.map ModelTierAttempt.tier = front.map ModelTrustDomain.tier) :
    OneAttemptEach trustDomains P attempts := by
  constructor
  · have hpairwise := pairwise_sortedDomains hdistinct
    rw [hsplit] at hpairwise
    have hfront := (List.pairwise_append.mp hpairwise).1
    have htiersOrdered : (attempts.map ModelTierAttempt.tier).Pairwise fun t t' =>
        tierIndex t < tierIndex t' := by
      rw [htiers, List.pairwise_map]
      exact hfront
    rw [List.pairwise_map] at htiersOrdered
    exact htiersOrdered
  · intro tier
    have hattempts : (∃ a ∈ attempts, a.tier = tier) ↔ ∃ d ∈ front, d.tier = tier := by
      rw [← List.mem_map, ← List.mem_map, htiers]
    rw [hattempts]
    constructor
    · intro ⟨d, hd, htier⟩
      refine ⟨d, mem_sortedDomains.mp ?_, hfront d hd, htier⟩
      rw [hsplit]
      exact List.mem_append_left back hd
    · intro ⟨d, hd, hP, htier⟩
      rw [← mem_sortedDomains, hsplit, List.mem_append] at hd
      rcases hd with hd | hd
      · exact ⟨d, hd, htier⟩
      · exact absurd hP (hback d hd)

theorem escalates_of_goesOn {attempts : List ModelTierAttempt} {code : EnumResolutionFailureCode}
    {reason : String}
    (h : GoesOn (attemptDomain i resolver dependency policyBundle capabilityTokens) 0
      (sortedDomains trustDomains) attempts) :
    Escalates i resolver dependency trustDomains policyBundle capabilityTokens
      (failClosedResult attempts code reason) := by
  obtain ⟨htiers, hfailed⟩ := records_of_goesOn h
  constructor
  · refine iff_of_false nofun fun ⟨k, d, hk, hpasses⟩ => ?_
    have hnext := exists_goesOn_iff.mp ⟨attempts, h⟩ k d hk
    rw [Nat.zero_add] at hnext
    exact (attemptDomain_next_iff.mp hnext).1 hpasses
  · exact nofun
  · intro _
    refine ⟨?_, hfailed, nofun⟩
    exact oneAttemptEach_of_split hdistinct (List.append_nil _).symm (fun _ _ => trivial)
      (by simp) htiers

variable {result : ModelTieredResolutionResult}

theorem escalates_of_stopsAt {domain : ModelTrustDomain}
    {fronts : List ModelTierAttempt} {last : ModelTierAttempt}
    (h : StopsAt i resolver dependency trustDomains policyBundle capabilityTokens front domain back
      fronts last baseResult binding)
    (hresult : successResult i resolver dependency trustDomains policyBundle (fronts ++ [last])
      domain baseResult binding = .ok result) :
    Escalates i resolver dependency trustDomains policyBundle capabilityTokens result := by
  obtain ⟨registryHash, graphHash, policyHash, -, -, -, hresult⟩ :=
    successResult_eq_ok_iff.mp hresult
  have hresolves := h.resolvesAt
  have hturn : PassesInTurn i resolver dependency trustDomains policyBundle capabilityTokens
      front.length domain := ⟨hresolves.at_turn, hresolves.passes⟩
  obtain ⟨htiers, hfailed⟩ := records_of_goesOn h.before
  obtain ⟨htier, hcode⟩ := record_of_stop h.stop
  rw [hresult]
  constructor
  · exact iff_of_true rfl ⟨front.length, domain, hturn⟩
  · intro plan hplan
    obtain rfl := Option.some.inj hplan
    refine ⟨domain, ⟨⟨front.length, hturn⟩, ?_⟩, rfl, rfl, rfl, rfl, ?_,
      fronts, last, rfl, hfailed, hcode⟩
    · intro j d ⟨hj, hpasses⟩
      have hle : front.length ≤ j := by
        by_contra hlt
        exact (hresolves.before j (by omega) d hj).1 hpasses
      exact tierIndex_le_of_le hresolves.at_turn hj hle
    · have hpairwise := pairwise_sortedDomains hdistinct
      rw [h.split, List.pairwise_append, List.pairwise_cons] at hpairwise
      obtain ⟨-, ⟨hbehind, -⟩, hbefore⟩ := hpairwise
      have hsplit : sortedDomains trustDomains = (front ++ [domain]) ++ back := by
        rw [h.split, List.append_assoc, List.singleton_append]
      refine oneAttemptEach_of_split hdistinct hsplit ?_ ?_ ?_
      · intro d hd
        rcases List.mem_append.mp hd with hd | hd
        · exact Nat.le_of_lt (hbefore d hd domain List.mem_cons_self)
        · rw [List.mem_singleton.mp hd]
      · intro d hd
        exact Nat.not_le_of_lt (hbehind d hd)
      · rw [List.map_append, List.map_append, htiers, List.map_singleton, List.map_singleton, htier]
  · exact nofun

theorem escalates_of_ok
    (h : resolveTiered i resolver dependency trustDomains policyBundle capabilityTokens
      = .ok result) :
    Escalates i resolver dependency trustDomains policyBundle capabilityTokens result := by
  obtain ⟨hempty, hresult⟩ | ⟨-, attempts, hattempts, hresult⟩ |
    ⟨front, domain, back, fronts, last, baseResult, binding, hstops, hresult⟩ :=
      resolveTiered_eq_ok_iff.mp h
  · rw [hresult]
    apply escalates_of_goesOn hdistinct
    rw [hempty]
    rfl
  · obtain ⟨code, reason, heq⟩ := exists_failClosedResult attempts
    rw [hresult, heq]
    exact escalates_of_goesOn hdistinct hattempts
  · exact escalates_of_stopsAt hdistinct hstops hresult

/-- The order in which domains are configured does not change the outcome. -/
theorem exists_outcome_of_perm (hperm : domains.Perm trustDomains)
    (h : resolveTiered i resolver dependency trustDomains policyBundle capabilityTokens
      = .ok result) :
    ∃ result', resolveTiered i resolver dependency domains policyBundle capabilityTokens
      = .ok result' ∧ result'.outcome = result.outcome := by
  have hsorted := sortedDomains_of_perm hdistinct hperm
  obtain ⟨hempty, hresult⟩ | ⟨hne, attempts, hattempts, hresult⟩ |
    ⟨front, domain, back, fronts, last, baseResult, binding, hstops, hresult⟩ :=
      resolveTiered_eq_ok_iff.mp h
  · subst hempty
    rw [List.perm_nil.mp hperm]
    exact ⟨result, h, rfl⟩
  · refine ⟨result, resolveTiered_eq_ok_iff.mpr (Or.inr (Or.inl ⟨?_, attempts, ?_, hresult⟩)), rfl⟩
    · intro hempty
      rw [hempty] at hperm
      exact hne (List.perm_nil.mp hperm.symm)
    · rw [hsorted]
      exact hattempts
  · -- the hashes of the graph and of the policy are computed anew
    obtain ⟨registryHash, _, _, hregistry, -, hpolicy, hresult⟩ :=
      successResult_eq_ok_iff.mp hresult
    obtain ⟨graphHash, hgraph⟩ := exists_trustGraphHash i domains
    obtain ⟨policyHash, hpolicy⟩ := (@exists_policyBundleHash_iff i policyBundle domains).mpr
      (exists_policyBundleHash_iff.mp ⟨_, hpolicy⟩)
    have hsuccess := (@successResult_eq_ok_iff i resolver dependency domains policyBundle
      (fronts ++ [last]) domain baseResult binding _).mpr
        ⟨registryHash, graphHash, policyHash, hregistry, hgraph, hpolicy, rfl⟩
    refine ⟨_, resolveTiered_eq_ok_iff.mpr (Or.inr (Or.inr ⟨front, domain, back, fronts, last,
      baseResult, binding, ⟨?_, hstops.before, hstops.stop⟩, hsuccess⟩)), ?_⟩
    · rw [hsorted]
      exact hstops.split
    · rw [hresult]
      rfl

theorem escalates_of_perm (hperm : domains.Perm trustDomains)
    (h : Escalates i resolver dependency domains policyBundle capabilityTokens result) :
    Escalates i resolver dependency trustDomains policyBundle capabilityTokens result := by
  have hsorted := sortedDomains_of_perm hdistinct hperm
  have hturn : PassesInTurn i resolver dependency domains policyBundle capabilityTokens
      = PassesInTurn i resolver dependency trustDomains policyBundle capabilityTokens := by
    unfold PassesInTurn
    rw [hsorted]
  have hattempts : ∀ (P : ModelTrustDomain → Prop) attempts, OneAttemptEach domains P attempts →
      OneAttemptEach trustDomains P attempts := by
    intro P attempts h
    refine ⟨h.ordered, fun tier => ?_⟩
    simp only [h.complete, hperm.mem_iff]
  constructor
  · rw [h.succeeds, hturn]
  · intro plan hplan
    obtain ⟨domain, hchooses⟩ := h.chosen plan hplan
    have hleast := hchooses.least
    unfold IsLeast at hleast
    rw [hturn] at hleast
    exact ⟨domain, hleast, hchooses.trustDomain, hchooses.resolutionTierUsed, hchooses.finalTier,
      hchooses.planProgression, hattempts _ _ hchooses.attempts, hchooses.failures⟩
  · intro hnone
    obtain ⟨heach, hfailed⟩ := h.exhausted hnone
    exact ⟨hattempts _ _ heach, hfailed⟩

/-- The resolver escalates through domains of different tiers if and only if nothing raises an
error on the way. -/
theorem escalationLaw_iff :
    EscalationLaw i resolver dependency trustDomains policyBundle capabilityTokens ↔
      Unbroken i resolver dependency trustDomains policyBundle capabilityTokens := by
  rw [← exists_result_iff]
  constructor
  · intro ⟨outcome, h⟩
    obtain ⟨result, hresult, -⟩ := h trustDomains (List.Perm.refl trustDomains)
    exact ⟨result, hresult⟩
  · intro ⟨result, hresult⟩
    refine ⟨result.outcome, fun domains hperm => ?_⟩
    obtain ⟨result', hresult', houtcome⟩ := exists_outcome_of_perm hdistinct hperm hresult
    have hdistinct' : domains.Pairwise fun d d' => d.tier ≠ d'.tier :=
      hperm.symm.pairwise hdistinct fun h => h.symm
    exact ⟨result', hresult', houtcome,
      escalates_of_perm hdistinct hperm (escalates_of_ok hdistinct' hresult')⟩

end

end

def localDomain : ModelTrustDomain :=
  { orgDomain with
    domainId := "local.default"
    tier := .localExact
    domainId_length := by decide }

/-- Without tokens nothing raises an error. -/
theorem localDomain_escalationLaw :
    EscalationLaw tokenlessInterpreter ⟨postgresRegistry, none⟩ databaseDependency
      [orgDomain, localDomain] none none := by
  apply (escalationLaw_iff (by simp [orgDomain, localDomain])).mpr
  refine ⟨fun k d _ hbreaks => ?_, fun _ => recordable_postgres rfl⟩
  obtain ⟨-, -, verifier, tokens, hverifier, -⟩ := hbreaks
  exact nomatch hverifier

def zonelessToken : ModelCapabilityToken where
  tokenId := ⟨0⟩
  subjectNodeId := "node-a"
  issuerDomain := "org.omninode"
  capabilities := ["database.relational"]
  issuedAt := { reading := 0 }
  expiresAt := { reading := 1, utcOffset := none }
  issuerPublicKey := "a2V5"
  signature := "c2ln"

/-- The check of the token raises an error, and so does the resolver. -/
theorem zonelessToken_not_escalationLaw :
    ¬ EscalationLaw tokenlessInterpreter ⟨postgresRegistry, some ⟨fun _ => none⟩⟩
      databaseDependency [orgDomain] none (some [zonelessToken]) := by
  intro ⟨outcome, hlaw⟩
  obtain ⟨result, hresult, -⟩ := hlaw [orgDomain] (List.Perm.refl _)
  have hbreaks : BreaksOff tokenlessInterpreter ⟨postgresRegistry, some ⟨fun _ => none⟩⟩
      databaseDependency none (some [zonelessToken]) 0 orgDomain :=
    ⟨by simp [gatesOf], by decide, _, _, rfl, rfl, 0, zonelessToken, by decide, Or.inl rfl,
      fun j hj => absurd hj (by omega)⟩
  obtain ⟨j, hj, -⟩ := (exists_result_iff.mp ⟨result, hresult⟩).tokens 0 orgDomain rfl hbreaks
  omega

end OmnibaseCore.Tiered
