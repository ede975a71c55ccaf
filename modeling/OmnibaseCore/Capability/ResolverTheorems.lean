import OmnibaseCore.Capability.Resolver

/-!
# What the resolver chooses

A provider is eligible if it satisfies what the dependency demands and nothing that it forbids.

* `resolve_law`: with different identifiers, pins, unique providers and best scores are what
  they should be, in whatever order the registry returns the providers.
-/

namespace OmnibaseCore.Capability

/-! ## Eligible providers -/

/-- A provider satisfies every constraint of `must` and none of `forbid`. -/
def Eligible (dependency : ModelCapabilityDependency) (provider : ModelProviderDescriptor) :
    Prop :=
  (∀ c ∈ dependency.requirements.must, provider.satisfies c = true) ∧
    ∀ c ∈ dependency.requirements.forbid, provider.satisfies c = false

instance (dependency : ModelCapabilityDependency) (provider : ModelProviderDescriptor) :
    Decidable (Eligible dependency provider) :=
  inferInstanceAs (Decidable (_ ∧ _))

variable {provider : ModelProviderDescriptor} {i : ResolverInterpreter}

theorem mustRejection_eq_none_iff {constraint : String × JsonType} :
    mustRejection i provider constraint = none ↔ provider.satisfies constraint = true := by
  unfold mustRejection ModelProviderDescriptor.satisfies
  cases provider.value constraint.1 with
  | none => simp
  | some value => by_cases h : jsonEq value constraint.2 = true <;> simp [h]

theorem forbidRejection_eq_none_iff {constraint : String × JsonType} :
    forbidRejection i provider constraint = none ↔ provider.satisfies constraint = false := by
  unfold forbidRejection
  by_cases h : provider.satisfies constraint = true <;> simp [h]

theorem checkHardConstraints_eq_none_iff {dependency : ModelCapabilityDependency} :
    checkHardConstraints i provider dependency = none ↔ Eligible dependency provider := by
  unfold checkHardConstraints Eligible
  simp only [Option.or_eq_none_iff, List.findSome?_eq_none_iff, mustRejection_eq_none_iff,
    forbidRejection_eq_none_iff]

/-! ## The providers in their order -/

section
variable (i : ResolverInterpreter) (dependency : ModelCapabilityDependency)
  (profile : Option ModelProfile)

/-- The key of a provider: the score first, the higher the better, then the identifier. -/
def providerKey (provider : ModelProviderDescriptor) : ℚ ×ₗ String :=
  toLex (-score i dependency profile provider, provider.providerId.str)

variable {p q : ModelProviderDescriptor}

theorem providerKey_eq_iff :
    providerKey i dependency profile p = providerKey i dependency profile q ↔
      score i dependency profile p = score i dependency profile q ∧
        p.providerId = q.providerId := by
  unfold providerKey
  rw [toLex_inj, Prod.mk.injEq, neg_inj, UUID.str_injective.eq_iff]

theorem providerKey_le_iff :
    providerKey i dependency profile p ≤ providerKey i dependency profile q ↔
      score i dependency profile q ≤ score i dependency profile p ∧
        (score i dependency profile q = score i dependency profile p →
          p.providerId ≤ q.providerId) := by
  unfold providerKey
  rw [Prod.Lex.toLex_le_toLex, neg_lt_neg_iff, neg_inj, UUID.strictMono_str.le_iff_le]
  constructor
  · intro h
    rcases h with hlt | ⟨heq, hle⟩
    · exact ⟨hlt.le, fun heq => absurd heq hlt.ne⟩
    · exact ⟨heq.symm.le, fun _ => hle⟩
  · intro ⟨hle, hid⟩
    rcases lt_or_eq_of_le hle with hlt | heq
    · exact Or.inl hlt
    · exact Or.inr ⟨heq.symm, hid heq⟩

/-- The candidates among which the policy chooses. -/
def candidates (providers : List ModelProviderDescriptor) : List (ModelProviderDescriptor × ℚ) :=
  scoreProviders i ((sortedAsc ModelProviderDescriptor.providerId providers).filter
    fun p => (checkHardConstraints i p dependency).isNone) dependency profile

theorem candidates_eq (providers : List ModelProviderDescriptor) :
    candidates i dependency profile providers
      = ((sortedAsc (providerKey i dependency profile) providers).filter
          fun p => decide (Eligible dependency p)).map
            fun p => (p, score i dependency profile p) := by
  have heligible : (fun p => (checkHardConstraints i p dependency).isNone)
      = fun p => decide (Eligible dependency p) := by
    funext p
    rw [Bool.eq_iff_iff, Option.isNone_iff_eq_none, checkHardConstraints_eq_none_iff,
      decide_eq_true_eq]
  have hkey : ∀ p, sortKey (p, score i dependency profile p) = providerKey i dependency profile p :=
    fun _ => rfl
  unfold candidates scoreProviders
  rw [sortedAsc_map _ hkey, heligible, sortedAsc_filter, sortedAsc_sortedAsc_of_imp]
  intro p q h
  exact ((providerKey_eq_iff i dependency profile).mp h).2

/-! ## The policies -/

def pin : String := (getPinnedProvider profile dependency.aliasName).getD ""

def Picks (providers : List ModelProviderDescriptor) (p : ModelProviderDescriptor) : Prop :=
  if pin dependency profile ≠ "" then
    p ∈ providers ∧ Eligible dependency p ∧ p.providerId.str = pin dependency profile
  else
    match dependency.selectionPolicy with
    | .requireExplicit => False
    | .autoIfUnique => providers.filter (fun q => decide (Eligible dependency q)) = [p]
    | .bestScore => p ∈ providers ∧ Eligible dependency p ∧
        ∀ q ∈ providers, Eligible dependency q →
          score i dependency profile q ≤ score i dependency profile p ∧
            (score i dependency profile q = score i dependency profile p →
              p.providerId ≤ q.providerId)

variable {i dependency profile} {providers : List ModelProviderDescriptor}

/-- A provider that is picked is one of those that the registry returned, and eligible. -/
theorem Picks.eligible {p : ModelProviderDescriptor} (h : Picks i dependency profile providers p) :
    p ∈ providers ∧ Eligible dependency p := by
  unfold Picks at h
  by_cases hpin : pin dependency profile ≠ ""
  · rw [if_pos hpin] at h
    exact ⟨h.1, h.2.1⟩
  · rw [if_neg hpin] at h
    cases hpolicy : dependency.selectionPolicy with
    | requireExplicit =>
      rw [hpolicy] at h
      exact h.elim
    | autoIfUnique =>
      rw [hpolicy] at h
      have hmem : p ∈ providers.filter fun q => decide (Eligible dependency q) := by
        rw [h]
        exact List.mem_singleton_self p
      rw [List.mem_filter, decide_eq_true_eq] at hmem
      exact hmem
    | bestScore =>
      rw [hpolicy] at h
      exact ⟨h.1, h.2.1⟩

/-- The policy picks one provider at most. -/
theorem Picks.unique (hids : (providers.map ModelProviderDescriptor.providerId).Nodup)
    (hp : Picks i dependency profile providers p)
    (hq : Picks i dependency profile providers q) : p = q := by
  have hid : p.providerId = q.providerId → p = q :=
    List.inj_on_of_nodup_map hids hp.eligible.1 hq.eligible.1
  unfold Picks at hp hq
  by_cases hpin : pin dependency profile ≠ ""
  · rw [if_pos hpin] at hp hq
    exact hid (UUID.str_injective (hp.2.2.trans hq.2.2.symm))
  · rw [if_neg hpin] at hp hq
    cases hpolicy : dependency.selectionPolicy with
    | requireExplicit =>
      rw [hpolicy] at hp
      exact hp.elim
    | autoIfUnique =>
      rw [hpolicy] at hp hq
      exact (List.cons.inj (hp.symm.trans hq)).1
    | bestScore =>
      rw [hpolicy] at hp hq
      have hpq := hp.2.2 q hq.1 hq.2.1
      have hqp := hq.2.2 p hp.1 hp.2.1
      have hscore : score i dependency profile p = score i dependency profile q :=
        le_antisymm hqp.1 hpq.1
      exact hid (le_antisymm (hpq.2 hscore.symm) (hqp.2 hscore))

/-! ## What stands where among the candidates -/

theorem mem_candidates_iff {x : ModelProviderDescriptor × ℚ} :
    x ∈ candidates i dependency profile providers ↔
      x.1 ∈ providers ∧ Eligible dependency x.1 ∧ x.2 = score i dependency profile x.1 := by
  rw [candidates_eq, List.mem_map]
  constructor
  · intro ⟨p, hp, hx⟩
    rw [List.mem_filter, (perm_sortedAsc _ providers).mem_iff, decide_eq_true_eq] at hp
    rw [← hx]
    exact ⟨hp.1, hp.2, rfl⟩
  · intro ⟨hmem, heligible, hscore⟩
    refine ⟨x.1, ?_, by rw [← hscore]⟩
    rw [List.mem_filter, (perm_sortedAsc _ providers).mem_iff, decide_eq_true_eq]
    exact ⟨hmem, heligible⟩

section
variable (hids : (providers.map ModelProviderDescriptor.providerId).Nodup)
include hids

theorem find?_candidates_iff {text : String} {p : ModelProviderDescriptor} :
    (∃ x, (candidates i dependency profile providers).find?
        (fun x => decide (x.1.providerId.str = text)) = some x ∧ x.1 = p) ↔
      p ∈ providers ∧ Eligible dependency p ∧ p.providerId.str = text := by
  constructor
  · intro ⟨x, hfind, hx⟩
    have hmem := mem_candidates_iff.mp (List.mem_of_find?_eq_some hfind)
    have htext := List.find?_some hfind
    rw [decide_eq_true_eq] at htext
    rw [← hx]
    exact ⟨hmem.1, hmem.2.1, htext⟩
  · intro ⟨hmem, heligible, htext⟩
    cases hfind : (candidates i dependency profile providers).find?
        fun x => decide (x.1.providerId.str = text) with
    | none =>
      rw [List.find?_eq_none] at hfind
      have hp : (p, score i dependency profile p) ∈ candidates i dependency profile providers :=
        mem_candidates_iff.mpr ⟨hmem, heligible, rfl⟩
      exact absurd (by simpa using htext) (hfind _ hp)
    | some x =>
      have hx := mem_candidates_iff.mp (List.mem_of_find?_eq_some hfind)
      have hfound := List.find?_some hfind
      rw [decide_eq_true_eq] at hfound
      refine ⟨x, rfl, List.inj_on_of_nodup_map hids hx.1 hmem ?_⟩
      exact UUID.str_injective (hfound.trans htext.symm)

variable {p : ModelProviderDescriptor}

omit hids in
theorem candidates_eq_singleton_iff :
    (∃ x, candidates i dependency profile providers = [x] ∧ x.1 = p) ↔
      providers.filter (fun q => decide (Eligible dependency q)) = [p] := by
  have hperm : ((sortedAsc (providerKey i dependency profile) providers).filter
      fun q => decide (Eligible dependency q)).Perm
        (providers.filter fun q => decide (Eligible dependency q)) :=
    (perm_sortedAsc _ providers).filter _
  rw [candidates_eq]
  constructor
  · intro ⟨x, hx, hp⟩
    obtain ⟨q, hq, hqx⟩ := List.map_eq_singleton_iff.mp hx
    rw [hq] at hperm
    rw [← hp, ← hqx]
    exact List.singleton_perm.mp hperm |>.symm
  · intro h
    rw [h] at hperm
    rw [List.perm_singleton.mp hperm]
    exact ⟨_, rfl, rfl⟩

theorem candidates_eq_cons_iff :
    (∃ x rest, candidates i dependency profile providers = x :: rest ∧ x.1 = p) ↔
      p ∈ providers ∧ Eligible dependency p ∧ ∀ q ∈ providers, Eligible dependency q →
        providerKey i dependency profile p ≤ providerKey i dependency profile q := by
  have hkey : ∀ a ∈ providers, ∀ b ∈ providers,
      providerKey i dependency profile a = providerKey i dependency profile b → a = b :=
    fun a ha b hb hab =>
      List.inj_on_of_nodup_map hids ha hb ((providerKey_eq_iff i dependency profile).mp hab).2
  have hfirst : (∃ x rest, candidates i dependency profile providers = x :: rest ∧ x.1 = p) ↔
      (sortedAsc (providerKey i dependency profile) providers).find?
        (fun q => decide (Eligible dependency q)) = some p := by
    rw [candidates_eq, ← List.head?_filter]
    cases (sortedAsc (providerKey i dependency profile) providers).filter
        fun q => decide (Eligible dependency q) with
    | nil => simp
    | cons q rest => simp
  rw [hfirst, find?_sortedAsc_eq_some_iff]
  simp only [decide_eq_true_eq]
  rw [foremost_iff_of_injOn hkey hids.of_map]
  exact and_left_comm

/-! ## What the policy chooses -/

/-- The policy chooses what it picks, and raises an error if it picks nothing. -/
theorem applySelectionPolicy_eq_ok_iff (reasons : List (String × String)) :
    (∃ notes, applySelectionPolicy i (candidates i dependency profile providers) dependency
      profile reasons = .ok (p, notes)) ↔ Picks i dependency profile providers p := by
  unfold applySelectionPolicy Picks pin
  by_cases hpin : (getPinnedProvider profile dependency.aliasName).getD "" ≠ ""
  · rw [if_pos hpin, if_pos hpin, ← @find?_candidates_iff i dependency profile providers hids _ p]
    cases (candidates i dependency profile providers).find? fun x =>
        decide (x.1.providerId.str = (getPinnedProvider profile dependency.aliasName).getD "") with
    | none => simp
    | some x => simp
  · rw [if_neg hpin, if_neg hpin]
    cases hpolicy : dependency.selectionPolicy with
    | requireExplicit => exact iff_of_false (fun ⟨_, h⟩ => nomatch h) id
    | autoIfUnique =>
      show _ ↔ providers.filter (fun q => decide (Eligible dependency q)) = [p]
      rw [← candidates_eq_singleton_iff]
      rcases candidates i dependency profile providers with _ | ⟨x, _ | ⟨y, rest⟩⟩
      · simp
      · simp
      · simp
    | bestScore =>
      show _ ↔ p ∈ providers ∧ Eligible dependency p ∧ ∀ q ∈ providers, Eligible dependency q → _
      simp only [← providerKey_le_iff]
      rw [← candidates_eq_cons_iff hids]
      cases candidates i dependency profile providers with
      | nil => simp
      | cons x rest => simp

end

theorem applySelectionPolicy_nil {reasons : List (String × String)}
    {p : ModelProviderDescriptor} {notes : List String} :
    applySelectionPolicy i [] dependency profile reasons ≠ .ok (p, notes) := by
  unfold applySelectionPolicy
  by_cases hpin : (getPinnedProvider profile dependency.aliasName).getD "" ≠ ""
  · rw [if_pos hpin]
    exact nofun
  · rw [if_neg hpin]
    cases dependency.selectionPolicy <;> exact nofun

/-! ## The binding -/

/-- The requirements of a dependency can always be hashed. -/
theorem exists_requirementsHash (i : ResolverInterpreter)
    (dependency : ModelCapabilityDependency) :
    ∃ text, computeRequirementsHash i dependency = .ok ("sha256:" ++ text) := by
  have hserializable := dependency.requirements.serializable
  have hfield : ∀ entries : JsonObject,
      (∀ e ∈ entries, e ∈ dependency.requirements.must ++ dependency.requirements.prefer ++
        dependency.requirements.forbid ++ dependency.requirements.hints) →
      (Json.dict (sortedAsc Prod.fst entries)).All JsonPrimitive.Serializable := by
    intro entries hentries
    rw [Json.all_dict]
    intro e he
    exact hserializable e (hentries e ((perm_sortedAsc Prod.fst entries).mem_iff.mp he))
  have hdata : ∀ data : JsonObject, (∀ e ∈ data, e.2.All JsonPrimitive.Serializable) →
      ∃ text, Json.dumps (JsonPrimitive.text i.floatRepr) .compact (.dict data) = .ok text := by
    intro data hall
    apply Json.exists_dumps
    rw [Json.all_dict]
    intro e he
    exact (hall e he).imp fun a ha => JsonPrimitive.exists_text ha i.floatRepr
  unfold computeRequirementsHash
  obtain ⟨text, htext⟩ := hdata [
    ("must", .dict (sortedAsc Prod.fst dependency.requirements.must)),
    ("prefer", .dict (sortedAsc Prod.fst dependency.requirements.prefer)),
    ("forbid", .dict (sortedAsc Prod.fst dependency.requirements.forbid)),
    ("hints", .dict (sortedAsc Prod.fst dependency.requirements.hints)),
    ("selection_policy", .prim (.strict (.str dependency.selectionPolicy.value))),
    ("strict", .prim (.strict (.bool dependency.strict)))] (by
      simp only [List.forall_mem_cons]
      refine ⟨hfield _ ?_, hfield _ ?_, hfield _ ?_, hfield _ ?_, trivial, trivial, by simp⟩ <;>
        (intro e he; simp [he]))
  exact ⟨i.sha256 text, by show (_ >>= _) = _; rw [htext]; rfl⟩

def bindingTo (now : ℤ) (dependency : ModelCapabilityDependency) (profile : Option ModelProfile)
    (considered : ℕ) (requirementsHash : String) (p : ModelProviderDescriptor)
    (notes : List String) : ModelBinding where
  dependencyAlias := dependency.aliasName
  capability := dependency.capability
  resolvedProvider := p.providerId.str
  adapter := p.adapter
  connectionRef := p.connectionRef
  requirementsHash := requirementsHash
  resolutionProfile := getProfileId profile
  resolvedAt := now
  resolutionNotes := notes
  candidatesConsidered := considered

variable {b : ModelBinding}

variable {now : ℤ}

theorem validate_bindingTo {validationText : String → List String → String}
    {considered : ℕ} {text : String} {p : ModelProviderDescriptor} {notes : List String}
    :
    (bindingTo now dependency profile considered ("sha256:" ++ text) p notes).validate
        validationText = .ok b ↔
      strip (getProfileId profile) ≠ "" ∧
        b = (bindingTo now dependency profile considered ("sha256:" ++ text) p notes).stripped := by
  rw [ModelBinding.validate_eq_ok_iff]
  refine and_congr_left fun _ => ?_
  have hhash : strip ("sha256:" ++ text) ≠ "" := strip_ne_empty (c := 's') (by simp) (by decide)
  have hid : strip p.providerId.str ≠ "" := by
    rw [UUID.strip_str]
    exact p.providerId.str_ne_empty
  unfold ModelBinding.textFields
  simp only [List.forall_mem_cons]
  constructor
  · intro h
    exact h.2.2.2.2.2.2.1.2
  · intro hprofile
    refine ⟨⟨?_, dependency.aliasName_nonblank⟩, ⟨?_, dependency.capability_nonblank⟩,
      ⟨?_, hid⟩, ⟨?_, p.adapter_nonblank⟩, ⟨?_, p.connectionRef_nonblank⟩, ⟨?_, hhash⟩,
      ⟨?_, hprofile⟩, by simp⟩
    · have hpos := length_pos_of_strip dependency.aliasName_nonblank
      simp [BindingField.lengthOk, bindingTo, hpos, dependency.aliasName_length]
    · simp [BindingField.lengthOk, bindingTo, dependency.capability_length]
    · simp [BindingField.lengthOk, bindingTo, length_pos_of_strip hid]
    · simp [BindingField.lengthOk, bindingTo, length_pos_of_strip p.adapter_nonblank]
    · simp [BindingField.lengthOk, bindingTo, length_pos_of_strip p.connectionRef_nonblank]
    · have hpos := length_pos_of_strip hhash
      simpa [BindingField.lengthOk, bindingTo] using hpos
    · simp [BindingField.lengthOk, bindingTo, length_pos_of_strip hprofile]

/-- A resolution returns if and only if a candidate is selected and can be bound. -/
theorem resolveWithAudit_eq_ok_iff {registry : ProviderRegistry}
    {result : ModelBinding × ResolutionAuditData} :
    let sortedProviders := sortedAsc ModelProviderDescriptor.providerId
      (registry.getProvidersForCapability dependency.capability)
    resolveWithAudit i now dependency registry profile = .ok result ↔
      bindSelected i now dependency profile sortedProviders
        (rejections i dependency sortedProviders)
        (candidates i dependency profile
          (registry.getProvidersForCapability dependency.capability)) = .ok result := by
  intro sortedProviders
  have hnil : ∀ reasons, bindSelected i now dependency profile sortedProviders reasons []
      ≠ .ok result := by
    intro reasons h
    obtain ⟨selected, hselected, -⟩ := bind_eq_ok h
    exact applySelectionPolicy_nil hselected
  unfold resolveWithAudit
  by_cases hempty : (registry.getProvidersForCapability dependency.capability).isEmpty = true
  · rw [if_pos hempty]
    refine iff_of_false nofun fun h => ?_
    have hcandidates : candidates i dependency profile
        (registry.getProvidersForCapability dependency.capability) = [] := by
      rw [List.isEmpty_iff.mp hempty]
      rfl
    rw [hcandidates] at h
    exact hnil _ h
  · rw [if_neg hempty]
    show (if (sortedProviders.filter fun p => (checkHardConstraints i p dependency).isNone).isEmpty
      = true then _ else _) = _ ↔ _
    by_cases hfiltered : (sortedProviders.filter
        fun p => (checkHardConstraints i p dependency).isNone).isEmpty = true
    · rw [if_pos hfiltered]
      refine iff_of_false nofun fun h => ?_
      have hcandidates : candidates i dependency profile
          (registry.getProvidersForCapability dependency.capability) = [] := by
        show scoreProviders i (sortedProviders.filter _) dependency profile = []
        rw [List.isEmpty_iff.mp hfiltered]
        rfl
      rw [hcandidates] at h
      exact hnil _ h
    · rw [if_neg hfiltered]
      rfl

theorem standardErrorHandling_eq_ok_iff {α : Type} {operation : String}
    {x : Except PyException α} {a : α} : standardErrorHandling operation x = .ok a ↔ x = .ok a := by
  cases x with
  | ok a' => rfl
  | error e => cases e <;> exact iff_of_false nofun nofun

structure ModelBinding.Binds (b : ModelBinding) (dependency : ModelCapabilityDependency)
    (p : ModelProviderDescriptor) : Prop where
  dependencyAlias : b.dependencyAlias = strip dependency.aliasName
  capability : b.capability = strip dependency.capability
  resolvedProvider : b.resolvedProvider = p.providerId.str
  adapter : b.adapter = strip p.adapter
  connectionRef : b.connectionRef = strip p.connectionRef

theorem resolve_sound {registry : ProviderRegistry}
    (h : resolve i now dependency registry profile = .ok b) :
    strip (getProfileId profile) ≠ "" ∧ ∃ p, Picks i dependency profile
      (registry.getProvidersForCapability dependency.capability) p ∧ b.Binds dependency p := by
  obtain ⟨result, hresult, hb⟩ := map_eq_ok (standardErrorHandling_eq_ok_iff.mp h)
  obtain ⟨selected, hselected, hresult⟩ := bind_eq_ok (resolveWithAudit_eq_ok_iff.mp hresult)
  obtain ⟨text, htext⟩ := exists_requirementsHash i dependency
  obtain ⟨hash, hhash, hresult⟩ := bind_eq_ok hresult
  rw [htext] at hhash
  cases hhash
  obtain ⟨binding, hbinding, hresult⟩ := bind_eq_ok hresult
  have hvalid := (validate_bindingTo (p := selected.1)).mp hbinding
  refine ⟨hvalid.1, selected.1, ?_, ?_⟩
  · exact (applySelectionPolicy_eq_ok_iff (registry.nodup_ids _) _).mp ⟨selected.2, hselected⟩
  · cases hresult
    rw [← hb, hvalid.2]
    exact ⟨rfl, rfl, UUID.strip_str _, rfl, rfl⟩

theorem resolve_complete {now : ℤ} {registry : ProviderRegistry} {p : ModelProviderDescriptor}
    (hprofile : strip (getProfileId profile) ≠ "")
    (hp : Picks i dependency profile (registry.getProvidersForCapability dependency.capability) p) :
    ∃ b, resolve i now dependency registry profile = .ok b ∧ b.Binds dependency p := by
  let providers := registry.getProvidersForCapability dependency.capability
  let sortedProviders := sortedAsc ModelProviderDescriptor.providerId providers
  let reasons := rejections i dependency sortedProviders
  obtain ⟨notes, hnotes⟩ := (applySelectionPolicy_eq_ok_iff (registry.nodup_ids _) reasons).mpr hp
  obtain ⟨text, htext⟩ := exists_requirementsHash i dependency
  let raw := bindingTo now dependency profile sortedProviders.length ("sha256:" ++ text) p notes
  have hvalid : raw.validate i.validationText = .ok raw.stripped :=
    validate_bindingTo.mpr ⟨hprofile, rfl⟩
  have hbind : bindSelected i now dependency profile sortedProviders reasons
      (candidates i dependency profile providers) = .ok (raw.stripped, {
        candidates := sortedProviders.map fun p => p.providerId.str
        scores := scoresById (candidates i dependency profile providers)
        rejectionReasons := reasons }) := by
    unfold bindSelected
    rw [hnotes]
    show (computeRequirementsHash i dependency >>= _) = _
    rw [htext]
    show (raw.validate i.validationText >>= _) = _
    rw [hvalid]
    rfl
  refine ⟨raw.stripped, ?_, ⟨rfl, rfl, UUID.strip_str _, rfl, rfl⟩⟩
  rw [resolve, standardErrorHandling_eq_ok_iff, resolveWithAudit_eq_ok_iff.mpr hbind]
  rfl

/-! ## Which provider is bound -/

variable (i dependency profile) in
def BoundTo (now : ℤ) (registry : ProviderRegistry) (p : ModelProviderDescriptor) : Prop :=
  ∃ b, resolve i now dependency registry profile = .ok b ∧ b.Binds dependency p

section
variable {registry : ProviderRegistry}

theorem boundTo_iff {p : ModelProviderDescriptor}
    (hp : p ∈ registry.getProvidersForCapability dependency.capability) :
    BoundTo i dependency profile now registry p ↔
      strip (getProfileId profile) ≠ "" ∧ Picks i dependency profile
        (registry.getProvidersForCapability dependency.capability) p := by
  constructor
  · intro ⟨b, hb, hbinds⟩
    obtain ⟨hprofile, q, hq, hbindsq⟩ := resolve_sound hb
    have hid : p.providerId = q.providerId := by
      apply UUID.str_injective
      rw [← hbinds.resolvedProvider, hbindsq.resolvedProvider]
    have hpq : p = q :=
      List.inj_on_of_nodup_map (registry.nodup_ids _) hp hq.eligible.1 hid
    rw [hpq]
    exact ⟨hprofile, hq⟩
  · intro ⟨hprofile, hpicks⟩
    exact resolve_complete hprofile hpicks

theorem resolve_error_of_forall_not_picks
    (h : ∀ p, ¬ Picks i dependency profile
      (registry.getProvidersForCapability dependency.capability) p) :
    ∃ e, resolve i now dependency registry profile = .error e := by
  cases hresolve : resolve i now dependency registry profile with
  | error e => exact ⟨e, rfl⟩
  | ok b =>
    obtain ⟨-, p, hp, -⟩ := resolve_sound hresolve
    exact absurd hp (h p)

theorem resolve_perm {registry' : ProviderRegistry}
    (h : (registry'.getProvidersForCapability dependency.capability).Perm
      (registry.getProvidersForCapability dependency.capability)) :
    resolve i now dependency registry' profile = resolve i now dependency registry profile := by
  have hsorted : sortedAsc ModelProviderDescriptor.providerId
        (registry'.getProvidersForCapability dependency.capability)
      = sortedAsc ModelProviderDescriptor.providerId
        (registry.getProvidersForCapability dependency.capability) :=
    sortedAsc_eq_of_perm_of_injOn _
      (fun a ha b hb hab => List.inj_on_of_nodup_map (registry'.nodup_ids _) ha hb hab) h
  have hempty : (registry'.getProvidersForCapability dependency.capability).isEmpty
      = (registry.getProvidersForCapability dependency.capability).isEmpty := by
    rw [Bool.eq_iff_iff, List.isEmpty_iff_length_eq_zero, List.isEmpty_iff_length_eq_zero,
      h.length_eq]
  unfold resolve resolveWithAudit
  simp only [hsorted, hempty]

end

/-! ## A batch of one dependency -/

section
variable {registry : ProviderRegistry}

theorem resolveAll_of_ok {audit : ResolutionAuditData}
    (h : resolveWithAudit i now dependency registry profile = .ok (b, audit)) :
    ∃ result, resolveAll i now [dependency] registry profile = .ok result ∧
      result.success = true ∧ result.bindings = [(dependency.aliasName, b)] := by
  unfold resolveAll
  rw [List.foldlM_cons, resolveOne, h]
  exact ⟨_, rfl, rfl, rfl⟩

theorem resolveAll_of_error {e : PyException}
    (h : resolveWithAudit i now dependency registry profile = .error e) :
    (∃ result, resolveAll i now [dependency] registry profile = .ok result ∧
      result.success = false) ∨
    ∃ e', resolveAll i now [dependency] registry profile = .error (.modelOnexError e') := by
  unfold resolveAll
  rw [List.foldlM_cons, resolveOne, h]
  cases e with
  | modelOnexError e => exact Or.inl ⟨_, rfl, rfl⟩
  | _ => exact Or.inr ⟨_, rfl⟩

theorem resolveAll_binds {result : ModelResolutionResult}
    (h : resolveAll i now [dependency] registry profile = .ok result)
    (hsuccess : result.success = true)
    (hb : result.bindings.lookup dependency.aliasName = some b) :
    ∃ p, Picks i dependency profile (registry.getProvidersForCapability dependency.capability) p ∧
      b.Binds dependency p := by
  cases haudit : resolveWithAudit i now dependency registry profile with
  | error e =>
    rcases resolveAll_of_error haudit with ⟨result', hresult, hfails⟩ | ⟨e', he⟩
    · cases h.symm.trans hresult
      rw [hsuccess] at hfails
      exact nomatch hfails
    · exact nomatch h.symm.trans he
  | ok bound =>
    obtain ⟨result', hresult, -, hbindings⟩ := resolveAll_of_ok haudit
    cases h.symm.trans hresult
    rw [hbindings, List.lookup_cons_self, Option.some.injEq] at hb
    have hresolve : resolve i now dependency registry profile = .ok b := by
      rw [resolve, standardErrorHandling_eq_ok_iff, haudit, ← hb]
      rfl
    exact (resolve_sound hresolve).2

theorem exists_resolveAll {p : ModelProviderDescriptor}
    (hprofile : strip (getProfileId profile) ≠ "")
    (hp : Picks i dependency profile (registry.getProvidersForCapability dependency.capability) p) :
    ∃ result b, resolveAll i now [dependency] registry profile = .ok result ∧
      result.success = true ∧ result.bindings.lookup dependency.aliasName = some b := by
  obtain ⟨b, hb, -⟩ := @resolve_complete i dependency profile now registry p hprofile hp
  obtain ⟨bound, hbound, -⟩ := map_eq_ok (standardErrorHandling_eq_ok_iff.mp hb)
  obtain ⟨result, hresult, hsuccess, hbindings⟩ := resolveAll_of_ok hbound
  exact ⟨result, bound.1, hresult, hsuccess, by rw [hbindings, List.lookup_cons_self]⟩
end

theorem score_eq (hexact : ∀ x y, i.add x y = x + y) (p : ModelProviderDescriptor) :
    score i dependency profile p = (dependency.requirements.prefer.countP p.satisfies : ℚ) +
      getProfileWeight profile p.providerId.str := by
  have hcount : ∀ (l : JsonObject) (s : ℚ), l.foldl
      (fun score c => if p.satisfies c then i.add score 1 else score) s = s + l.countP p.satisfies := by
    intro l
    induction l with
    | nil => simp
    | cons c rest ih =>
      intro s
      rw [List.foldl_cons, ih, List.countP_cons]
      by_cases hc : p.satisfies c = true
      · rw [if_pos hc, if_pos hc, hexact]
        push_cast
        ring
      · rw [if_neg hc, if_neg hc, add_zero]
  unfold score
  rw [hcount, zero_add]
  cases profile with
  | none => simp [getProfileWeight]
  | some profile => exact hexact _ _

/-- What is expected of the resolver, with exact numbers. An empty pin is no pin. -/
structure ResolutionLaw (i : ResolverInterpreter) (now : ℤ)
    (dependency : ModelCapabilityDependency) (registry : ProviderRegistry)
    (profile : Option ModelProfile) : Prop where
  sound : ∀ b, resolve i now dependency registry profile = .ok b →
    ∃ p ∈ registry.getProvidersForCapability dependency.capability, b.Binds dependency p ∧
      dependency.capability ∈ p.capabilities ∧ Eligible dependency p
  pinned : pin dependency profile ≠ "" →
    (∀ p ∈ registry.getProvidersForCapability dependency.capability,
      BoundTo i dependency profile now registry p ↔
        Eligible dependency p ∧ p.providerId.str = pin dependency profile) ∧
    ((∀ p ∈ registry.getProvidersForCapability dependency.capability,
      Eligible dependency p → p.providerId.str ≠ pin dependency profile) →
        ∃ e, resolve i now dependency registry profile = .error e)
  explicit : pin dependency profile = "" → dependency.selectionPolicy = .requireExplicit →
    ∃ e, resolve i now dependency registry profile = .error e
  unique : pin dependency profile = "" → dependency.selectionPolicy = .autoIfUnique →
    ∀ p ∈ registry.getProvidersForCapability dependency.capability,
      BoundTo i dependency profile now registry p ↔ Eligible dependency p ∧
        ∀ q ∈ registry.getProvidersForCapability dependency.capability,
          Eligible dependency q → q = p
  best : pin dependency profile = "" → dependency.selectionPolicy = .bestScore →
    ∀ p ∈ registry.getProvidersForCapability dependency.capability,
      BoundTo i dependency profile now registry p ↔ Eligible dependency p ∧
        ∀ q ∈ registry.getProvidersForCapability dependency.capability, Eligible dependency q →
          (dependency.requirements.prefer.countP q.satisfies : ℚ) +
              getProfileWeight profile q.providerId.str ≤
            (dependency.requirements.prefer.countP p.satisfies : ℚ) +
              getProfileWeight profile p.providerId.str ∧
          ((dependency.requirements.prefer.countP q.satisfies : ℚ) +
              getProfileWeight profile q.providerId.str =
            (dependency.requirements.prefer.countP p.satisfies : ℚ) +
              getProfileWeight profile p.providerId.str → p.providerId ≤ q.providerId)
  order : ∀ registry' : ProviderRegistry,
    (registry'.getProvidersForCapability dependency.capability).Perm
        (registry.getProvidersForCapability dependency.capability) →
      resolve i now dependency registry' profile = resolve i now dependency registry profile

theorem filter_eq_singleton_iff {α : Type} {p : α → Bool} {l : List α} {a : α} (hl : l.Nodup)
    (ha : a ∈ l) : l.filter p = [a] ↔ p a = true ∧ ∀ b ∈ l, p b = true → b = a := by
  constructor
  · intro h
    have hmem : ∀ b, b ∈ l.filter p ↔ b = a := by
      intro b
      rw [h, List.mem_singleton]
    simp only [List.mem_filter] at hmem
    exact ⟨((hmem a).mpr rfl).2, fun b hb hp => (hmem b).mp ⟨hb, hp⟩⟩
  · intro ⟨hp, hall⟩
    have hperm : (l.filter p).Perm [a] := by
      rw [List.perm_ext_iff_of_nodup (hl.filter p) (List.nodup_singleton a)]
      intro b
      rw [List.mem_filter, List.mem_singleton]
      constructor
      · intro hb
        exact hall b hb.1 hb.2
      · intro hb
        rw [hb]
        exact ⟨ha, hp⟩
    exact List.perm_singleton.mp hperm

/-- The resolver keeps the law for every profile with a name. -/
theorem resolve_law {now : ℤ} {registry : ProviderRegistry}
    (hexact : ∀ x y, i.add x y = x + y) (hprofile : strip (getProfileId profile) ≠ "") :
    ResolutionLaw i now dependency registry profile where
  sound b hb := by
    obtain ⟨-, p, hp, hbinds⟩ := resolve_sound hb
    exact ⟨p, hp.eligible.1, hbinds, registry.offers _ p hp.eligible.1, hp.eligible.2⟩
  pinned hpin := by
    constructor
    · intro p hp
      rw [boundTo_iff hp, Picks, if_pos hpin]
      exact ⟨fun h => h.2.2, fun h => ⟨hprofile, hp, h⟩⟩
    · intro h
      apply resolve_error_of_forall_not_picks
      intro p hp
      rw [Picks, if_pos hpin] at hp
      exact h p hp.1 hp.2.1 hp.2.2
  explicit hpin hpolicy := by
    apply resolve_error_of_forall_not_picks
    intro p hp
    rw [Picks, if_neg (not_not.mpr hpin), hpolicy] at hp
    exact hp
  unique hpin hpolicy p hp := by
    rw [boundTo_iff hp, Picks, if_neg (not_not.mpr hpin), hpolicy]
    show _ ∧ List.filter _ _ = [p] ↔ _
    rw [filter_eq_singleton_iff (registry.nodup_ids _).of_map hp]
    simp only [decide_eq_true_eq]
    exact and_iff_right hprofile
  best hpin hpolicy p hp := by
    rw [boundTo_iff hp, Picks, if_neg (not_not.mpr hpin), hpolicy]
    simp only [score_eq hexact]
    exact ⟨fun h => h.2.2, fun h => ⟨hprofile, hp, h⟩⟩
  order registry' h := resolve_perm h

end

/-! ## A database -/

def exactInterpreter : ResolverInterpreter where
  str _ := ""
  add x y := x + y
  formatScore _ := "0.00"
  floatRepr _ := "0.0"
  sha256 text := text
  validationText model fields :=
    toString fields.length ++ " validation error for " ++ model ++ "\n" ++ "\n".intercalate fields

def postgres : ModelProviderDescriptor where
  providerId := ⟨1⟩
  capabilities := ["database.relational"]
  adapter := "omnibase_infra.adapters.PostgresAdapter"
  connectionRef := "secrets://postgres/primary"
  adapter_nonblank := by decide
  connectionRef_nonblank := by decide

def postgresRegistry : ProviderRegistry where
  getProvidersForCapability capability :=
    if capability = "database.relational" then [postgres] else []
  offers capability provider h := by
    by_cases hc : capability = "database.relational"
    · rw [if_pos hc, List.mem_singleton] at h
      rw [h, hc]
      exact List.mem_singleton_self _
    · rw [if_neg hc] at h
      exact absurd h List.not_mem_nil
  nodup_ids capability := by
    by_cases hc : capability = "database.relational"
    · rw [if_pos hc]
      exact List.nodup_singleton _
    · rw [if_neg hc]
      exact List.nodup_nil

def databaseDependency : ModelCapabilityDependency where
  aliasName := "db"
  capability := "database.relational"
  requirements := { serializable := by simp }
  aliasName_length := by decide
  aliasName_nonblank := by decide
  capability_length := by decide
  capability_nonblank := by decide

theorem resolve_law_database :
    (∀ x y, exactInterpreter.add x y = x + y) ∧ strip (getProfileId none) ≠ "" ∧
      ResolutionLaw exactInterpreter 0 databaseDependency postgresRegistry none :=
  ⟨fun _ _ => rfl, by decide, resolve_law (fun _ _ => rfl) (by decide)⟩

/-- A profile that pins the provider but has a blank name: nothing is bound. Under a name, but
with an empty pin, the provider is bound although the pin does not name it. -/
theorem postgres_blank_profile_and_empty_pin :
    let blank : ModelProfile :=
      { profileId := some " ", explicitBindings := some [("db", postgres.providerId.str)] }
    let emptyPin : ModelProfile :=
      { profileId := some "production", explicitBindings := some [("db", "")] }
    (Eligible databaseDependency postgres ∧
      getPinnedProvider (some blank) "db" = some postgres.providerId.str ∧
      ¬ BoundTo exactInterpreter databaseDependency (some blank) 0 postgresRegistry postgres) ∧
    getPinnedProvider (some emptyPin) "db" = some "" ∧ postgres.providerId.str ≠ "" ∧
      BoundTo exactInterpreter databaseDependency (some emptyPin) 0 postgresRegistry postgres := by
  intro blank emptyPin
  have hmem : postgres ∈
      postgresRegistry.getProvidersForCapability databaseDependency.capability :=
    List.mem_singleton_self _
  refine ⟨⟨by decide, rfl, ?_⟩, rfl, UUID.str_ne_empty _, ?_⟩
  · rw [boundTo_iff hmem]
    have hblank : strip " " = "" := by decide
    exact fun h => h.1 hblank
  · have hpin : pin databaseDependency (some emptyPin) = "" := rfl
    rw [boundTo_iff hmem, Picks, if_neg (not_not.mpr hpin)]
    show _ ∧ [postgres].filter _ = [postgres]
    rw [List.filter_cons_of_pos (by decide), List.filter_nil]
    exact ⟨by decide, rfl⟩

/-!
## Strict dependencies

A dependency is strict unless it says otherwise, and an unmet preference of a strict dependency
is to be a failure. The resolver scores preferences only.

* `strictLaw_iff`: preferences are met if and only if those of the provider that the policy picks
  are.
-/

def MeetsPreferences (dependency : ModelCapabilityDependency) (p : ModelProviderDescriptor) :
    Prop :=
  ∀ c ∈ dependency.requirements.prefer, p.satisfies c = true

instance (dependency : ModelCapabilityDependency) (p : ModelProviderDescriptor) :
    Decidable (MeetsPreferences dependency p) :=
  inferInstanceAs (Decidable (∀ c ∈ dependency.requirements.prefer, p.satisfies c = true))

section
variable (i : ResolverInterpreter) (now : ℤ) (dependency : ModelCapabilityDependency)
  (registry : ProviderRegistry) (profile : Option ModelProfile)

/-- Unmet preferences cause match failure. -/
structure StrictLaw : Prop where
  bound : ∀ p ∈ registry.getProvidersForCapability dependency.capability,
    BoundTo i dependency profile now registry p → MeetsPreferences dependency p
  fails : (∀ p ∈ registry.getProvidersForCapability dependency.capability,
    Eligible dependency p → ¬ MeetsPreferences dependency p) →
      ∃ e, resolve i now dependency registry profile = .error e

/-- Preferences are met if and only if nothing is bound, for the blank name of the profile, or
the provider that the policy picks satisfies them. The strictness of the dependency does not
matter. -/
theorem strictLaw_iff :
    StrictLaw i now dependency registry profile ↔
      strip (getProfileId profile) = "" ∨
        ∀ p, Picks i dependency profile
          (registry.getProvidersForCapability dependency.capability) p →
            MeetsPreferences dependency p := by
  constructor
  · intro h
    by_cases hprofile : strip (getProfileId profile) = ""
    · exact Or.inl hprofile
    · refine Or.inr fun p hp => ?_
      exact h.bound p hp.eligible.1 ((boundTo_iff hp.eligible.1).mpr ⟨hprofile, hp⟩)
  · intro h
    have hbound : ∀ p ∈ registry.getProvidersForCapability dependency.capability,
        BoundTo i dependency profile now registry p → MeetsPreferences dependency p := by
      intro p hp hb
      rw [boundTo_iff hp] at hb
      rcases h with hblank | hmeets
      · exact absurd hblank hb.1
      · exact hmeets p hb.2
    refine ⟨hbound, fun hnone => ?_⟩
    cases hresolve : resolve i now dependency registry profile with
    | error e => exact ⟨e, rfl⟩
    | ok b =>
      obtain ⟨hprofile, p, hp, hbinds⟩ := resolve_sound hresolve
      have hmeets := hbound p hp.eligible.1 ⟨b, hresolve, hbinds⟩
      exact absurd hmeets (hnone p hp.eligible.1 hp.eligible.2)

end

def regionalDependency : ModelCapabilityDependency := { databaseDependency with
  requirements := {
    prefer := [("region", .prim (.strict (.str "us-east-1")))]
    serializable := by simp [JsonPrimitive.Serializable] } }

/-- A provider without a region is bound. -/
theorem regionalDependency_not_strictLaw :
    regionalDependency.strict = true ∧
      ¬ StrictLaw exactInterpreter 0 regionalDependency postgresRegistry none := by
  refine ⟨rfl, fun h => ?_⟩
  have hmem : postgres ∈
      postgresRegistry.getProvidersForCapability regionalDependency.capability :=
    List.mem_singleton_self _
  have hpicks : Picks exactInterpreter regionalDependency none
      (postgresRegistry.getProvidersForCapability regionalDependency.capability) postgres := by
    have hpin : pin regionalDependency none = "" := rfl
    rw [Picks, if_neg (not_not.mpr hpin)]
    show [postgres].filter _ = [postgres]
    rw [List.filter_cons_of_pos (by decide), List.filter_nil]
  have hmeets := h.bound postgres hmem ((boundTo_iff hmem).mpr ⟨by decide, hpicks⟩)
  revert hmeets
  decide

end OmnibaseCore.Capability
