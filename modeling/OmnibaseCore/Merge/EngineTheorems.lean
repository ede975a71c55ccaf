import OmnibaseCore.Merge.Engine
import OmnibaseCore.Overlay.LastSet

/-!
# What the merge engine computes

One patch is described by `Step`, the stack by `Merges`, a chain of steps. From the chain:

* `overlayLaw` puts these together with what `strict_ordering` does.
-/

namespace OmnibaseCore.Merge

variable {i : TextInterpreter} {profileFactory : ProfileFactory}

/-! ## The contract of one patch -/

structure Checked (i : TextInterpreter) (c : ModelHandlerContract) : Prop where
  fields : c.wrongFields i = []
  archetype : validateDescriptorNodeArchetypeConsistency i c = .ok ()

theorem make_eq_ok_iff {raw c : ModelHandlerContract} :
    ModelHandlerContract.make i raw = .ok c ↔ c = raw.stripped ∧ Checked i c := by
  unfold ModelHandlerContract.make
  by_cases hwrong : raw.stripped.wrongFields i = []
  · rw [if_neg (not_not.mpr hwrong)]
    cases harchetype : validateDescriptorNodeArchetypeConsistency i raw.stripped with
    | error e =>
      refine ⟨nofun, fun h => ?_⟩
      have hok := h.2.archetype
      rw [h.1, harchetype] at hok
      cases hok
    | ok _ =>
      refine ⟨fun h => ?_, fun h => by rw [h.1]⟩
      cases h
      exact ⟨rfl, hwrong, harchetype⟩
  · rw [if_pos hwrong]
    refine ⟨nofun, fun h => absurd ?_ hwrong⟩
    rw [← h.1]
    exact h.2.fields

structure Step (i : TextInterpreter) (base : BaseFields) (patch : ModelContractPatch)
    (c : ModelHandlerContract) : Prop where
  handlerId : c.handlerId = trim (handlerIdOf i (patch.name.getD base.name))
  name : c.name = trim (patch.name.getD base.name)
  contractVersion : c.contractVersion = patch.nodeVersion.getD base.contractVersion
  description : c.description = (mergeScalar base.description patch.description).map trim
  descriptor : c.descriptor = mergeBehavior base.behavior patch.descriptor
  capabilityInputs : mergeCapabilityInputs i (mergeBehavior base.behavior
    patch.descriptor).capabilityInputs patch.capabilityInputsAdd patch.capabilityInputsRemove
      = .ok c.capabilityInputs
  capabilityOutputs : c.capabilityOutputs = (mergeCapabilityOutputs (mergeBehavior base.behavior
    patch.descriptor).capabilityOutputs patch.capabilityOutputsAdd
      patch.capabilityOutputsRemove).map trim
  inputModel : c.inputModel
    = trim ((patch.inputModel.map (ModelReference.pyStr i)).getD base.inputModel)
  outputModel : c.outputModel
    = trim ((patch.outputModel.map (ModelReference.pyStr i)).getD base.outputModel)
  tags : c.tags = base.tags.map trim
  handlerRouting : c.handlerRouting = base.handlerRouting
  yamlConsumedEvents : c.yamlConsumedEvents = base.yamlConsumedEvents
  yamlPublishedEvents : c.yamlPublishedEvents = base.yamlPublishedEvents

theorem mergeScalar_some {α : Type*} (v : α) (set : Option α) :
    mergeScalar (some v) set = some (set.getD v) := by
  cases set <;> rfl

def mergedContract (i : TextInterpreter) (base : BaseFields) (patch : ModelContractPatch)
    (inputs : List ModelCapabilityDependency) : ModelHandlerContract :=
  let behavior := mergeBehavior base.behavior patch.descriptor
  { handlerId := handlerIdOf i (patch.name.getD base.name)
    name := patch.name.getD base.name
    contractVersion := patch.nodeVersion.getD base.contractVersion
    description := mergeScalar base.description patch.description
    descriptor := behavior
    capabilityInputs := inputs
    capabilityOutputs := mergeCapabilityOutputs behavior.capabilityOutputs
      patch.capabilityOutputsAdd patch.capabilityOutputsRemove
    inputModel := (patch.inputModel.map (ModelReference.pyStr i)).getD base.inputModel
    outputModel := (patch.outputModel.map (ModelReference.pyStr i)).getD base.outputModel
    tags := base.tags
    handlerRouting := base.handlerRouting
    yamlConsumedEvents := base.yamlConsumedEvents
    yamlPublishedEvents := base.yamlPublishedEvents }

variable {base : BaseFields}

theorem applyPatchToBase_eq {patch : ModelContractPatch} {changesApplied : List String} :
    applyPatchToBase i base patch changesApplied = (do
      let changes ← patchChanges i base patch
      let behavior := mergeBehavior base.behavior patch.descriptor
      let inputs ← mergeCapabilityInputs i behavior.capabilityInputs patch.capabilityInputsAdd
        patch.capabilityInputsRemove
      let result ← ModelHandlerContract.make i (mergedContract i base patch inputs)
      return (result, changesApplied ++ changes)) := by
  unfold applyPatchToBase
  simp only [mergeScalar_some]
  rfl

variable {c : ModelHandlerContract}

theorem step_of_eq {patch : ModelContractPatch} {inputs : List ModelCapabilityDependency}
    (hinputs : mergeCapabilityInputs i (mergeBehavior base.behavior
      patch.descriptor).capabilityInputs patch.capabilityInputsAdd patch.capabilityInputsRemove
        = .ok inputs) (h : c = (mergedContract i base patch inputs).stripped) :
    Step i base patch c := by
  subst h
  exact ⟨rfl, rfl, rfl, rfl, rfl, hinputs, rfl, rfl, rfl, rfl, rfl, rfl, rfl⟩

theorem Step.eq {patch : ModelContractPatch} (h : Step i base patch c) :
    c = (mergedContract i base patch c.capabilityInputs).stripped := by
  unfold ModelHandlerContract.stripped mergedContract
  cases c
  have := h.handlerId
  simp only [ModelHandlerContract.mk.injEq]
  exact ⟨h.handlerId, h.name, h.contractVersion, h.description, h.descriptor, trivial,
    h.capabilityOutputs, h.inputModel, h.outputModel, h.tags, h.handlerRouting,
    h.yamlConsumedEvents, h.yamlPublishedEvents⟩

def Applies (i : TextInterpreter) (base : BaseFields) (patch : ModelContractPatch)
    (c : ModelHandlerContract) : Prop :=
  (∃ changes, patchChanges i base patch = .ok changes) ∧ Step i base patch c ∧ Checked i c

theorem applyPatchToBase_eq_ok_iff {patch : ModelContractPatch} {changesApplied : List String} :
    (∃ changes, applyPatchToBase i base patch changesApplied = .ok (c, changes)) ↔
      Applies i base patch c := by
  rw [applyPatchToBase_eq]
  constructor
  · rintro ⟨_, h⟩
    rcases bind_eq_ok h with ⟨changes, hchanges, h⟩
    rcases bind_eq_ok h with ⟨inputs, hinputs, h⟩
    rcases bind_eq_ok h with ⟨result, hmake, h⟩
    cases h
    have hresult := make_eq_ok_iff.mp hmake
    exact ⟨⟨changes, hchanges⟩, step_of_eq hinputs hresult.1, hresult.2⟩
  · rintro ⟨⟨changes, hchanges⟩, hstep, hchecked⟩
    refine ⟨changesApplied ++ changes, bind_eq_ok_iff.mpr ⟨changes, hchanges, ?_⟩⟩
    refine bind_eq_ok_iff.mpr ⟨c.capabilityInputs, hstep.capabilityInputs, ?_⟩
    exact bind_eq_ok_iff.mpr ⟨c, make_eq_ok_iff.mpr ⟨hstep.eq, hchecked⟩, rfl⟩

/-! ## The contract of a stack -/

/-- The contract after a stack of patches, each on top of what the one before has made. -/
inductive Merges (i : TextInterpreter) (base : BaseFields) :
    List ModelContractPatch → ModelHandlerContract → Prop
  | first {patch c} (h : Applies i base patch c) : Merges i base [patch] c
  | next {patches patch c c'} (hstack : Merges i base patches c)
      (h : Applies i c.fields patch c') : Merges i base (patches ++ [patch]) c'

variable {patches : List ModelContractPatch}

variable {refs refs' : List ModelOverlayRef}

theorem merges_of_applyOverlays {overlays : List ModelOverlayStackEntry} {n : ℕ}
    {current c : ModelHandlerContract} {changes : List String}
    (hcurrent : Merges i base patches current) :
    applyOverlays i overlays n current changes refs = .ok (c, refs') →
      Merges i base (patches ++ overlays.map ModelOverlayStackEntry.overlayPatch) c ∧
        refs' = refs ++ (overlays.zipIdx n).map fun e => appliedRef e.1 e.2 := by
  induction overlays generalizing n current changes refs patches with
  | nil =>
    intro h
    unfold applyOverlays at h
    cases h
    simpa using hcurrent
  | cons entry overlays ih =>
    intro h
    unfold applyOverlays at h
    rcases bind_eq_ok h with ⟨⟨result, changes'⟩, hentry, h⟩
    have hnext := hcurrent.next (applyPatchToBase_eq_ok_iff.mp ⟨_, hentry⟩)
    have hrest := ih hnext h
    simpa using hrest

theorem applyOverlays_concat_iff {overlays : List ModelOverlayStackEntry}
    {entry : ModelOverlayStackEntry} {n : ℕ} {current c' : ModelHandlerContract}
    {changes : List String} :
    applyOverlays i (overlays ++ [entry]) n current changes refs = .ok (c', refs') ↔
      ∃ c refs'', applyOverlays i overlays n current changes refs = .ok (c, refs'') ∧
        Applies i c.fields entry.overlayPatch c' ∧
        refs' = refs'' ++ [appliedRef entry (n + overlays.length)] := by
  induction overlays generalizing n current changes refs with
  | nil =>
    simp only [List.nil_append, applyOverlays, bind_eq_ok_iff, Prod.exists, Except.ok.injEq,
      Prod.mk.injEq, List.length_nil, Nat.add_zero]
    constructor
    · rintro ⟨result, changes', hentry, rfl, rfl⟩
      exact ⟨current, refs, ⟨rfl, rfl⟩, applyPatchToBase_eq_ok_iff.mp ⟨changes', hentry⟩, rfl⟩
    · rintro ⟨c, refs'', ⟨rfl, rfl⟩, happlies, rfl⟩
      rcases applyPatchToBase_eq_ok_iff.mpr happlies with ⟨changes', hentry⟩
      exact ⟨c', changes', hentry, rfl, rfl⟩
  | cons first overlays ih =>
    simp only [List.cons_append, applyOverlays, bind_eq_ok_iff, Prod.exists, ih,
      List.length_cons]
    have hlen : n + 1 + overlays.length = n + (overlays.length + 1) := by omega
    simp only [hlen]
    constructor
    · rintro ⟨result, changes', hfirst, c, refs'', hrest, happlies, rfl⟩
      exact ⟨c, refs'', ⟨result, changes', hfirst, hrest⟩, happlies, rfl⟩
    · rintro ⟨c, refs'', ⟨result, changes', hfirst, hrest⟩, happlies, rfl⟩
      exact ⟨result, changes', hfirst, c, refs'', hrest, happlies, rfl⟩

section
variable {patch : ModelContractPatch} {nodeType : Option EnumNodeType}
  {overlays : List ModelOverlayStackEntry}
  {refs : List ModelOverlayRef}

def profileOf (i : TextInterpreter) (profileFactory : ProfileFactory) (patch : ModelContractPatch)
    (nodeType : Option EnumNodeType) : Except PyException ModelContractBase :=
  profileFactory (resolveNodeType i patch nodeType) patch.extends_.profile patch.extends_.version

theorem merges_of_mergeInternal
    (h : mergeInternal i profileFactory patch nodeType overlays = .ok (c, refs)) :
    ∃ base, profileOf i profileFactory patch nodeType = .ok base ∧
      Merges i base.fields (patch :: overlays.map ModelOverlayStackEntry.overlayPatch) c ∧
      refs = overlays.zipIdx.map fun e => appliedRef e.1 e.2 := by
  unfold mergeInternal at h
  rcases bind_eq_ok h with ⟨base, hbase, h⟩
  rcases bind_eq_ok h with ⟨⟨result, changes⟩, hpatch, h⟩
  have hfirst := Merges.first (applyPatchToBase_eq_ok_iff.mp ⟨_, hpatch⟩)
  have hstack := merges_of_applyOverlays hfirst h
  refine ⟨base, hbase, hstack.1, ?_⟩
  rw [hstack.2, List.nil_append]

end

theorem mergeInternal_concat_iff {patch : ModelContractPatch} {nodeType : Option EnumNodeType}
    {overlays : List ModelOverlayStackEntry} {entry : ModelOverlayStackEntry}
    {c' : ModelHandlerContract} {refs' : List ModelOverlayRef} :
    mergeInternal i profileFactory patch nodeType (overlays ++ [entry]) = .ok (c', refs') ↔
      ∃ c refs, mergeInternal i profileFactory patch nodeType overlays = .ok (c, refs) ∧
        Applies i c.fields entry.overlayPatch c' ∧
        refs' = refs ++ [appliedRef entry overlays.length] := by
  unfold mergeInternal
  simp only [bind_eq_ok_iff, Prod.exists, applyOverlays_concat_iff, Nat.zero_add]
  constructor
  · rintro ⟨base, hbase, result, changes, hpatch, c, refs, hrest, happlies, hrefs⟩
    exact ⟨c, refs, ⟨base, hbase, result, changes, hpatch, hrest⟩, happlies, hrefs⟩
  · rintro ⟨c, refs, ⟨base, hbase, result, changes, hpatch, hrest⟩, happlies, hrefs⟩
    exact ⟨base, hbase, result, changes, hpatch, c, refs, hrest, happlies, hrefs⟩

theorem Merges.ne_nil (h : Merges i base patches c) : patches ≠ [] := by
  cases h with
  | first _ => simp
  | next _ _ => simp

theorem merges_singleton_iff {patch : ModelContractPatch} :
    Merges i base [patch] c ↔ Applies i base patch c := by
  refine ⟨fun h => ?_, Merges.first⟩
  generalize hpatches : [patch] = patches at h
  cases h with
  | first happlies =>
    rw [(List.cons.inj hpatches).1]
    exact happlies
  | @next before _ _ _ hstack _ =>
    -- a longer stack has a patch before its last one
    have hlen := congrArg List.length hpatches
    simp only [List.length_append, List.length_singleton] at hlen
    have hbefore : before = [] := List.length_eq_zero_iff.mp (by omega)
    exact absurd hbefore hstack.ne_nil

theorem merges_concat_iff {patch : ModelContractPatch} {c' : ModelHandlerContract}
    (hne : patches ≠ []) : Merges i base (patches ++ [patch]) c' ↔
      ∃ c, Merges i base patches c ∧ Applies i c.fields patch c' := by
  refine ⟨fun h => ?_, fun ⟨_, hstack, happlies⟩ => hstack.next happlies⟩
  generalize hpatches : patches ++ [patch] = stack at h
  cases h with
  | first _ =>
    have hlen := congrArg List.length hpatches
    simp only [List.length_append, List.length_singleton] at hlen
    have hnil : patches = [] := List.length_eq_zero_iff.mp (by omega)
    exact absurd hnil hne
  | next hstack happlies =>
    rcases List.append_inj' hpatches rfl with ⟨rfl, hlast⟩
    rw [(List.cons.inj hlast).1]
    exact ⟨_, hstack, happlies⟩

/-- The stacks that a stack starts with have been merged. -/
theorem Merges.prefix {before after : List ModelContractPatch}
    (hne : before ≠ []) (h : Merges i base (before ++ after) c) :
    ∃ c', Merges i base before c' := by
  induction after using List.reverseRecOn generalizing c with
  | nil =>
    rw [List.append_nil] at h
    exact ⟨c, h⟩
  | append_singleton after patch ih =>
    rw [← List.append_assoc] at h
    rcases (merges_concat_iff (by simp [hne])).mp h with ⟨c', hstack, -⟩
    exact ih hstack

theorem mergeInternal_iff {patch : ModelContractPatch} {nodeType : Option EnumNodeType}
    {overlays : List ModelOverlayStackEntry} :
    (∃ refs, mergeInternal i profileFactory patch nodeType overlays = .ok (c, refs)) ↔
      ∃ base, profileOf i profileFactory patch nodeType = .ok base ∧
        Merges i base.fields (patch :: overlays.map ModelOverlayStackEntry.overlayPatch) c := by
  constructor
  · rintro ⟨refs, h⟩
    rcases merges_of_mergeInternal h with ⟨base, hbase, hmerges, -⟩
    exact ⟨base, hbase, hmerges⟩
  · rintro ⟨base, hbase, hmerges⟩
    induction overlays using List.reverseRecOn generalizing c with
    | nil =>
      have happlies := merges_singleton_iff.mp hmerges
      rcases applyPatchToBase_eq_ok_iff.mpr happlies with ⟨changes, hpatch⟩
      refine ⟨[], bind_eq_ok_iff.mpr ⟨base, hbase, ?_⟩⟩
      exact bind_eq_ok_iff.mpr ⟨(c, changes), hpatch, rfl⟩
    | append_singleton overlays entry ih =>
      rw [List.map_append, List.map_singleton, ← List.cons_append] at hmerges
      rcases (merges_concat_iff (by simp)).mp hmerges with ⟨c', hstack, happlies⟩
      rcases ih hstack with ⟨refs, hmerge⟩
      exact ⟨_, mergeInternal_concat_iff.mpr ⟨c', refs, hmerge, happlies, rfl⟩⟩

/-! ## Last writer wins -/

/-- A behaviour with each scalar as the last descriptor patch sets it. The archetype and the
capabilities are not for a descriptor patch to set. -/
def lastBehavior (base : ModelHandlerBehavior) (descriptors : List (Option ModelDescriptorPatch)) :
    ModelHandlerBehavior :=
  { nodeArchetype := base.nodeArchetype
    purity := lastSet base.purity (descriptors.map (·.bind (·.purity)))
    idempotent := lastSet base.idempotent (descriptors.map (·.bind (·.idempotent)))
    timeoutMs := lastSet base.timeoutMs (descriptors.map (·.bind (·.timeoutMs.map some)))
    retryPolicy := lastSet base.retryPolicy (descriptors.map (·.bind (·.retryPolicy.map some)))
    circuitBreaker := lastSet base.circuitBreaker
      (descriptors.map (·.bind (·.circuitBreaker.map some)))
    concurrencyPolicy := lastSet base.concurrencyPolicy
      (descriptors.map (·.bind (·.concurrencyPolicy)))
    isolationPolicy := lastSet base.isolationPolicy
      (descriptors.map (·.bind (·.isolationPolicy)))
    observabilityLevel := lastSet base.observabilityLevel
      (descriptors.map (·.bind (·.observabilityLevel)))
    capabilityInputs := base.capabilityInputs
    capabilityOutputs := base.capabilityOutputs }

theorem mergeScalar_eq_getD {α : Type*} (base set : Option α) :
    mergeScalar base set = (set.map some).getD base := by
  cases set <;> rfl

theorem mergeBehavior_eq (base : Option ModelHandlerBehavior)
    (descriptor : Option ModelDescriptorPatch) :
    mergeBehavior base descriptor = lastBehavior (base.getD defaultBehavior) [descriptor] := by
  unfold mergeBehavior lastBehavior
  cases descriptor with
  | none => rfl
  | some patch => simp [mergeScalar_eq_getD]

theorem mergeBehavior_lastBehavior (base : ModelHandlerBehavior)
    (descriptors : List (Option ModelDescriptorPatch)) (descriptor : Option ModelDescriptorPatch) :
    mergeBehavior (some (lastBehavior base descriptors)) descriptor
      = lastBehavior base (descriptors ++ [descriptor]) := by
  rw [mergeBehavior_eq]
  unfold lastBehavior
  simp

/-- The scalars of the contract are those that the last patch sets, texts without the whitespace
around them. What a patch cannot set is as in the profile. -/
structure LastWriterWins (i : TextInterpreter) (base : ModelContractBase)
    (patches : List ModelContractPatch) (c : ModelHandlerContract) : Prop where
  name : c.name = trim (lastSet base.name (patches.map (·.name)))
  contractVersion : c.contractVersion
    = lastSet base.contractVersion (patches.map (·.nodeVersion))
  description : c.description
    = some (trim (lastSet base.description (patches.map (·.description))))
  inputModel : c.inputModel = trim (lastSet base.inputModel
    (patches.map (·.inputModel.map (ModelReference.pyStr i))))
  outputModel : c.outputModel = trim (lastSet base.outputModel
    (patches.map (·.outputModel.map (ModelReference.pyStr i))))
  descriptor : c.descriptor
    = lastBehavior (base.behavior.getD defaultBehavior) (patches.map (·.descriptor))
  tags : c.tags = base.tags
  handlerRouting : c.handlerRouting = base.handlerRouting
  yamlConsumedEvents : c.yamlConsumedEvents = base.yamlConsumedEvents
  yamlPublishedEvents : c.yamlPublishedEvents = base.yamlPublishedEvents

theorem trim_getD_trim (set : Option String) (s : String) :
    trim (set.getD (trim s)) = trim (set.getD s) := by
  cases set with
  | none => exact trim_trim s
  | some _ => rfl

theorem map_trim_of_stripped {tags : List String} (h : ∀ tag ∈ tags, trim tag = tag) :
    tags.map trim = tags := by
  rw [List.map_congr_left h, List.map_id']

theorem lastWriterWins_first {base : ModelContractBase} {patch : ModelContractPatch}
    (h : Step i base.fields patch c) :
    LastWriterWins i base [patch] c where
  name := h.name
  contractVersion := h.contractVersion
  description := by
    rw [h.description]
    show (mergeScalar (some base.description) patch.description).map trim = _
    rw [mergeScalar_some]
    simp
  inputModel := h.inputModel
  outputModel := h.outputModel
  descriptor := by
    rw [h.descriptor, mergeBehavior_eq]
    rfl
  tags := by
    rw [h.tags]
    exact map_trim_of_stripped base.stripped.2.2.2.2
  handlerRouting := h.handlerRouting
  yamlConsumedEvents := h.yamlConsumedEvents
  yamlPublishedEvents := h.yamlPublishedEvents

/-- One more patch: its fields are the last ones. -/
theorem lastWriterWins_next {base : ModelContractBase} {patch : ModelContractPatch}
    {c c' : ModelHandlerContract} (hstack : LastWriterWins i base patches c)
    (h : Step i c.fields patch c') : LastWriterWins i base (patches ++ [patch]) c' where
  name := by
    rw [h.name, List.map_append, List.map_singleton, lastSet_concat]
    show trim (patch.name.getD c.name) = _
    rw [hstack.name, trim_getD_trim]
  contractVersion := by
    rw [h.contractVersion, List.map_append, List.map_singleton, lastSet_concat,
      ← hstack.contractVersion]
    rfl
  description := by
    rw [h.description, List.map_append, List.map_singleton, lastSet_concat]
    show (mergeScalar c.description patch.description).map trim = _
    rw [hstack.description, mergeScalar_some, Option.map_some, trim_getD_trim]
  inputModel := by
    rw [h.inputModel, List.map_append, List.map_singleton, lastSet_concat]
    show trim ((patch.inputModel.map (ModelReference.pyStr i)).getD c.inputModel) = _
    rw [hstack.inputModel, trim_getD_trim]
  outputModel := by
    rw [h.outputModel, List.map_append, List.map_singleton, lastSet_concat]
    show trim ((patch.outputModel.map (ModelReference.pyStr i)).getD c.outputModel) = _
    rw [hstack.outputModel, trim_getD_trim]
  descriptor := by
    rw [h.descriptor, List.map_append, List.map_singleton, ← mergeBehavior_lastBehavior,
      ← hstack.descriptor]
    rfl
  tags := by
    rw [h.tags]
    show c.tags.map trim = base.tags
    rw [hstack.tags]
    exact map_trim_of_stripped base.stripped.2.2.2.2
  handlerRouting := h.handlerRouting.trans hstack.handlerRouting
  yamlConsumedEvents := h.yamlConsumedEvents.trans hstack.yamlConsumedEvents
  yamlPublishedEvents := h.yamlPublishedEvents.trans hstack.yamlPublishedEvents

/-- The run lemma: by induction on the chain of steps. -/
theorem lastWriterWins_of_merges {base : ModelContractBase}
    (h : Merges i base.fields patches c) : LastWriterWins i base patches c := by
  induction h with
  | first happlies => exact lastWriterWins_first happlies.2.1
  | next _ happlies ih => exact lastWriterWins_next ih happlies.2.1

/-! ## The order of the overlays -/

/-- The scopes do not go down. -/
def ScopesNondecreasing (overlays : List ModelOverlayStackEntry) : Prop :=
  overlays.Pairwise fun a b => scopeOrder a.scope ≤ scopeOrder b.scope

instance (overlays : List ModelOverlayStackEntry) : Decidable (ScopesNondecreasing overlays) :=
  inferInstanceAs (Decidable (List.Pairwise _ _))

def canonicalOverlays (overlays : List ModelOverlayStackEntry) : List ModelOverlayStackEntry :=
  sortedAsc (fun entry => scopeOrder entry.scope) overlays

theorem scopesSorted_iff {overlays : List ModelOverlayStackEntry} :
    scopesSorted overlays = true ↔ ScopesNondecreasing overlays := by
  unfold scopesSorted ScopesNondecreasing
  have hchain : (overlays.Pairwise fun a b => scopeOrder a.scope ≤ scopeOrder b.scope) ↔
      overlays.IsChain fun a b => scopeOrder a.scope ≤ scopeOrder b.scope := by
    have htrans : IsTrans ModelOverlayStackEntry fun a b =>
        scopeOrder a.scope ≤ scopeOrder b.scope := ⟨fun _ _ _ h₁ h₂ => h₁.trans h₂⟩
    exact List.isChain_iff_pairwise.symm
  rw [hchain, List.isChain_iff_getElem, List.all_eq_true]
  constructor
  · intro h n hn
    have hle := h n (List.mem_range.mpr (by omega))
    simpa [hn, Nat.lt_of_succ_lt hn] using hle
  · intro h n hn
    have hlt : n + 1 < overlays.length := by
      have := List.mem_range.mp hn
      omega
    simpa [hlt, Nat.lt_of_succ_lt hlt] using h n hlt

theorem sortOverlays_eq (overlays : List ModelOverlayStackEntry) (strictOrdering : Bool) :
    sortOverlays overlays strictOrdering =
      if strictOrdering = true ∧ ¬ ScopesNondecreasing overlays then
        .error (scopeOrderError overlays)
      else .ok (canonicalOverlays overlays) := by
  unfold sortOverlays
  by_cases hsorted : ScopesNondecreasing overlays
  · have hcanonical : canonicalOverlays overlays = overlays := sortedAsc_of_pairwise _ hsorted
    have hnot : ¬ (strictOrdering = true ∧ ¬ ScopesNondecreasing overlays) := fun h => h.2 hsorted
    rw [if_neg hnot, hcanonical, if_pos (scopesSorted_iff.mpr hsorted), ite_self]
  · have hne : overlays.isEmpty = false := by
      cases overlays with
      | nil => exact absurd List.Pairwise.nil hsorted
      | cons _ _ => rfl
    rw [hne, if_neg Bool.false_ne_true, if_neg (fun h => hsorted (scopesSorted_iff.mp h))]
    cases strictOrdering with
    | true => rw [if_pos rfl, if_pos ⟨rfl, hsorted⟩]
    | false =>
      rw [if_neg Bool.false_ne_true, if_neg (fun h => Bool.false_ne_true h.1)]
      rfl

/-!
## Overlays

`overlayLaw`: what `merge_with_overlays` returns. The last writer wins in the order of the
scopes, the order within a scope is all that matters of the stack, and `strict_ordering` turns a
stack out of order into an error.
-/

variable {patch : ModelContractPatch}
  {nodeType : Option EnumNodeType} {overlays : List ModelOverlayStackEntry}

/-- The law of `merge_with_overlays`. -/
structure OverlayLaw (i : TextInterpreter) (profileFactory : ProfileFactory)
    (patch : ModelContractPatch) (nodeType : Option EnumNodeType)
    (overlays : List ModelOverlayStackEntry) : Prop where
  lastWriterWins : ∀ base c strictOrdering,
    profileOf i profileFactory patch nodeType = .ok base →
    mergeWithOverlays i profileFactory patch overlays nodeType strictOrdering = .ok c →
    LastWriterWins i base (patch :: (canonicalOverlays overlays).map (·.overlayPatch)) c
  scopesOnly : ∀ overlays' : List ModelOverlayStackEntry,
    (∀ scope, overlays.filter (fun entry => entry.scope = scope)
      = overlays'.filter fun entry => entry.scope = scope) →
    mergeWithOverlays i profileFactory patch overlays nodeType false
      = mergeWithOverlays i profileFactory patch overlays' nodeType false
  strictOrdering : mergeWithOverlays i profileFactory patch overlays nodeType true =
    if ScopesNondecreasing overlays then
      mergeWithOverlays i profileFactory patch overlays nodeType false
    else .error (scopeOrderError overlays)

theorem scopeOrder_injective : Function.Injective scopeOrder := by
  intro a b h
  cases a <;> cases b <;> first | rfl | exact absurd h (by decide)

theorem canonicalOverlays_eq {overlays' : List ModelOverlayStackEntry}
    (h : ∀ scope, overlays.filter (fun entry => entry.scope = scope)
      = overlays'.filter fun entry => entry.scope = scope) :
    canonicalOverlays overlays = canonicalOverlays overlays' := by
  apply (sortedAsc_eq_iff _).mpr
  intro k
  by_cases hk : ∃ scope, scopeOrder scope = k
  · rcases hk with ⟨scope, rfl⟩
    simpa only [scopeOrder_injective.eq_iff] using h scope
  · -- no overlay has a number that is not that of a scope
    have hnone : ∀ l : List ModelOverlayStackEntry,
        l.filter (fun entry => scopeOrder entry.scope = k) = [] := by
      intro l
      apply List.filter_eq_nil_iff.mpr
      intro entry _ heq
      exact hk ⟨entry.scope, of_decide_eq_true heq⟩
    rw [hnone, hnone]

theorem mergeWithOverlays_false :
    mergeWithOverlays i profileFactory patch overlays nodeType false = (do
      let (result, _) ← mergeInternal i profileFactory patch nodeType (canonicalOverlays overlays)
      return result) := by
  unfold mergeWithOverlays
  rw [sortOverlays_eq, if_neg (fun h => Bool.false_ne_true h.1)]
  rfl

theorem mergeWithOverlays_true :
    mergeWithOverlays i profileFactory patch overlays nodeType true =
      if ScopesNondecreasing overlays then
        mergeWithOverlays i profileFactory patch overlays nodeType false
      else .error (scopeOrderError overlays) := by
  by_cases hsorted : ScopesNondecreasing overlays
  · rw [if_pos hsorted, mergeWithOverlays_false]
    unfold mergeWithOverlays
    rw [sortOverlays_eq, if_neg (fun h => h.2 hsorted)]
    rfl
  · rw [if_neg hsorted]
    unfold mergeWithOverlays
    rw [sortOverlays_eq, if_pos ⟨rfl, hsorted⟩]
    rfl

theorem mergeInternal_of_mergeWithOverlays {strictOrdering : Bool}
    (h : mergeWithOverlays i profileFactory patch overlays nodeType strictOrdering = .ok c) :
    ∃ refs, mergeInternal i profileFactory patch nodeType (canonicalOverlays overlays)
      = .ok (c, refs) := by
  have hfalse : mergeWithOverlays i profileFactory patch overlays nodeType false = .ok c := by
    cases strictOrdering with
    | false => exact h
    | true =>
      rw [mergeWithOverlays_true] at h
      split at h
      · exact h
      · cases h
  rw [mergeWithOverlays_false] at hfalse
  rcases bind_eq_ok hfalse with ⟨⟨result, refs⟩, hinternal, hresult⟩
  cases hresult
  exact ⟨refs, hinternal⟩

theorem overlayLaw (i : TextInterpreter) (profileFactory : ProfileFactory)
    (patch : ModelContractPatch) (nodeType : Option EnumNodeType)
    (overlays : List ModelOverlayStackEntry) :
    OverlayLaw i profileFactory patch nodeType overlays where
  lastWriterWins := by
    intro base c strictOrdering hbase h
    rcases mergeInternal_of_mergeWithOverlays h with ⟨refs, hinternal⟩
    rcases merges_of_mergeInternal hinternal with ⟨base', hbase', hmerges, -⟩
    rw [hbase, Except.ok.injEq] at hbase'
    subst hbase'
    exact lastWriterWins_of_merges hmerges
  scopesOnly := by
    intro overlays' h
    rw [mergeWithOverlays_false, mergeWithOverlays_false, canonicalOverlays_eq h]
  strictOrdering := mergeWithOverlays_true

/-! ## A name with a space -/

/-- The profile `compute_pure` in version 1.0.0. -/
def computePureProfile : ModelContractBase :=
  { name := "compute_pure_profile"
    contractVersion := { major := 1, minor := 0, patch := 0, prerelease := none, build := none }
    description := "Pure computation profile with deterministic execution"
    inputModel := "omnibase_core.models.core.ModelInput"
    outputModel := "omnibase_core.models.core.ModelOutput"
    behavior := some {
      nodeArchetype := .compute
      purity := .pure
      idempotent := true
      concurrencyPolicy := .parallelOk
      isolationPolicy := .none
      observabilityLevel := .minimal }
    stripped := by decide +kernel }

def computePureFactory : ProfileFactory := fun _ _ _ => .ok computePureProfile

def computePure : ModelProfileReference := { profile := "compute_pure", version := "1.0.0" }

/-- A new contract on top of `compute_pure` whose name ends in a space. -/
def spacedPatch : ModelContractPatch :=
  { extends_ := computePure
    name := some "demo "
    nodeVersion := some { major := 2, minor := 0, patch := 0, prerelease := none, build := none } }

/-- The patch sets the name to `demo` with a space, and the contract has it without. -/
theorem spacedPatch_not_literal :
    ∃ c, mergeWithOverlays asciiText computePureFactory spacedPatch [] none false = .ok c ∧
      c.name ≠ lastSet computePureProfile.name [spacedPatch.name] := by
  have hmerge : (mergeWithOverlays asciiText computePureFactory spacedPatch [] none false).map
      (·.name) = .ok "demo" := by decide +kernel
  rcases map_eq_ok hmerge with ⟨c, hc, hname⟩
  refine ⟨c, hc, ?_⟩
  rw [hname]
  decide

end OmnibaseCore.Merge
