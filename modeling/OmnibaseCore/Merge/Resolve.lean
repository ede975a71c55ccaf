import OmnibaseCore.Merge.Capabilities

/-!
# The resolve node

`NodeContractResolveCompute.handle`. The hashes, the diff and the package version are arguments;
the lifecycle events go nowhere.
-/

namespace OmnibaseCore.Merge

structure ModelContractResolveOptions where
  includeDiff : Bool := false
  includeOverlayRefs : Bool := true
  normalizeForHash : Bool := true

structure ModelContractResolveInput where
  baseProfileRef : ModelProfileReference
  patches : List ModelContractPatch := []
  options : ModelContractResolveOptions := {}

/-- `ModelOverlayRef` of the output. -/
structure ResolveOverlayRef where
  overlayId : String
  version : String
  contentHash : String
  sourceRef : Option String
  scope : EnumOverlayScope
  orderIndex : ℕ

structure ModelResolverBuild where
  coreVersion : String
  nodeVersion : String
  buildHash : String

structure ModelContractResolveOutput where
  resolvedContract : ModelHandlerContract
  resolvedHash : String
  patchHashes : List String
  overlayRefs : List ResolveOverlayRef
  diff : Option String
  resolverBuild : ModelResolverBuild

structure ResolveEnvironment where
  /-- `compute_canonical_hash(patch)` -/
  hashPatch : ModelContractPatch → Except PyException String
  /-- `compute_canonical_hash(resolved_contract)` -/
  hashContract : ModelHandlerContract → Except PyException String
  /-- `compute_canonical_hash` of the node version, the profile and the number of patches -/
  hashBuild : String → String → ℕ → Except PyException String
  /-- `compute_contract_diff(base, resolved).to_markdown_table()` -/
  contractDiff : ModelHandlerContract → ModelHandlerContract → Except PyException String
  /-- `_omnibase_core_version()` -/
  coreVersion : String

def nodeVersion : String := "1.0.0"

/-- What the loop over the patches has built. -/
structure ResolveState where
  currentContract : ModelHandlerContract
  patchHashes : List String
  overlayRefs : List ResolveOverlayRef

/-- The record of the patch with the index `idx`. -/
def resolveOverlayRef (patch : ModelContractPatch) (idx : ℕ) (patchHash : String) :
    Except PyException ResolveOverlayRef := do
  let version ←
    match patch.nodeVersion with
    | some version => version.pyStr
    | none => pure "0.0.0"
  return {
    overlayId := patch.name.getD ("patch_" ++ toString idx)
    version := version
    contentHash := patchHash
    sourceRef := none
    scope := .project
    orderIndex := idx }

def resolvePatches (i : TextInterpreter) (profileFactory : ProfileFactory)
    (env : ResolveEnvironment) (options : ModelContractResolveOptions) :
    List ModelContractPatch → ℕ → ResolveState → Except PyException ResolveState
  | [], _, state => .ok state
  | patch :: rest, idx, state => do
    let patchHash ← env.hashPatch patch
    -- the merge starts from the profile of the patch, not from the current contract
    let currentContract ← merge i profileFactory patch none
    let overlayRefs ←
      if options.includeOverlayRefs then do
        let ref ← resolveOverlayRef patch idx patchHash
        pure (state.overlayRefs ++ [ref])
      else pure state.overlayRefs
    resolvePatches i profileFactory env options rest (idx + 1)
      { currentContract, patchHashes := state.patchHashes ++ [patchHash], overlayRefs }

/-- `NodeContractResolveCompute.handle`. -/
def handle (i : TextInterpreter) (profileFactory : ProfileFactory) (env : ResolveEnvironment)
    (inputModel : ModelContractResolveInput) : Except PyException ModelContractResolveOutput := do
  let basePatch : ModelContractPatch := { extends_ := inputModel.baseProfileRef }
  let baseContract ← merge i profileFactory basePatch none
  let state ← resolvePatches i profileFactory env inputModel.options inputModel.patches 0
    { currentContract := baseContract, patchHashes := [], overlayRefs := [] }
  let resolvedContract := state.currentContract
  let resolvedHash ← env.hashContract resolvedContract
  let diff ←
    if inputModel.options.includeDiff ∧ inputModel.patches.length ≠ 0 then do
      let table ← env.contractDiff baseContract resolvedContract
      pure (some table)
    else pure none
  let buildHash ← env.hashBuild nodeVersion inputModel.baseProfileRef.profile
    inputModel.patches.length
  return {
    resolvedContract
    resolvedHash
    patchHashes := state.patchHashes
    overlayRefs := state.overlayRefs
    diff
    resolverBuild := { coreVersion := env.coreVersion, nodeVersion, buildHash } }

/-!
## What the resolve node computes

The loop of `handle` merges every patch into the profile and keeps the contract of the last one
(`handle_ok`). `appliesEveryPatch_iff` says for which inputs this is the contract of all patches.
-/

variable {i : TextInterpreter} {profileFactory : ProfileFactory} {env : ResolveEnvironment}

/-! ## The loop -/

variable {patch : ModelContractPatch} {c : ModelHandlerContract}

theorem merge_eq_ok_iff {nodeType : Option EnumNodeType} :
    merge i profileFactory patch nodeType = .ok c ↔
      ∃ base, profileOf i profileFactory patch nodeType = .ok base ∧
        Applies i base.fields patch c := by
  have hinternal : merge i profileFactory patch nodeType = .ok c ↔
      ∃ refs, mergeInternal i profileFactory patch nodeType [] = .ok (c, refs) := by
    unfold merge
    rw [bind_eq_ok_iff]
    constructor
    · rintro ⟨⟨result, refs⟩, hmerge, hresult⟩
      cases hresult
      exact ⟨refs, hmerge⟩
    · rintro ⟨refs, hmerge⟩
      exact ⟨(c, refs), hmerge, rfl⟩
  rw [hinternal, mergeInternal_iff]
  simp only [List.map_nil, merges_singleton_iff]

def basePatch (reference : ModelProfileReference) : ModelContractPatch := { extends_ := reference }

variable {patches : List ModelContractPatch}

theorem resolvePatches_ok {options : ModelContractResolveOptions} {idx : ℕ}
    {state state' : ResolveState}
    (hstate : merge i profileFactory patch none = .ok state.currentContract) :
    resolvePatches i profileFactory env options patches idx state = .ok state' →
      (∀ p ∈ patches, ∃ c, merge i profileFactory p none = .ok c) ∧
        merge i profileFactory (patches.getLastD patch) none = .ok state'.currentContract := by
  induction patches generalizing idx state patch with
  | nil =>
    intro h
    unfold resolvePatches at h
    cases h
    exact ⟨by simp, hstate⟩
  | cons p rest ih =>
    intro h
    unfold resolvePatches at h
    rcases bind_eq_ok h with ⟨patchHash, -, h⟩
    rcases bind_eq_ok h with ⟨current, hcurrent, h⟩
    have hnext : ∃ refs, resolvePatches i profileFactory env options rest (idx + 1)
        { currentContract := current
          patchHashes := state.patchHashes ++ [patchHash]
          overlayRefs := refs } = .ok state' := by
      dsimp only at h
      split at h
      · rcases bind_eq_ok h with ⟨ref, -, h⟩
        exact ⟨_, h⟩
      · exact ⟨_, h⟩
    rcases hnext with ⟨refs, hnext⟩
    have hrest := ih hcurrent hnext
    refine ⟨List.forall_mem_cons.mpr ⟨⟨current, hcurrent⟩, hrest.1⟩, ?_⟩
    rw [List.getLastD_cons]
    exact hrest.2

theorem handle_ok {input : ModelContractResolveInput} {out : ModelContractResolveOutput}
    (h : handle i profileFactory env input = .ok out) :
    (∀ p ∈ basePatch input.baseProfileRef :: input.patches,
      ∃ c, merge i profileFactory p none = .ok c) ∧
    merge i profileFactory (input.patches.getLastD (basePatch input.baseProfileRef)) none
      = .ok out.resolvedContract := by
  unfold handle at h
  rcases bind_eq_ok h with ⟨baseContract, hbase, h⟩
  rcases bind_eq_ok h with ⟨state, hloop, h⟩
  rcases bind_eq_ok h with ⟨resolvedHash, -, h⟩
  have hresolved : out.resolvedContract = state.currentContract := by
    dsimp only at h
    split at h
    · rcases bind_eq_ok h with ⟨table, -, h⟩
      rcases bind_eq_ok h with ⟨diff, -, h⟩
      rcases bind_eq_ok h with ⟨buildHash, -, h⟩
      rw [← Except.ok.inj h]
    · rcases bind_eq_ok h with ⟨diff, -, h⟩
      rcases bind_eq_ok h with ⟨buildHash, -, h⟩
      rw [← Except.ok.inj h]
  rw [hresolved]
  have hpatches := resolvePatches_ok hbase hloop
  exact ⟨List.forall_mem_cons.mpr ⟨⟨baseContract, hbase⟩, hpatches.1⟩, hpatches.2⟩

/-! ## A patch on top of a stack -/

theorem wrongFields_eq_nil_iff : c.wrongFields i = [] ↔ validateHandlerId i c.handlerId = true ∧
      (1 ≤ c.name.length ∧ c.name.length ≤ 128) ∧
      (∀ description ∈ c.description, description.length ≤ 1000) ∧
      (c.capabilityInputs.map (·.alias_)).Nodup ∧ 1 ≤ c.inputModel.length ∧
      1 ≤ c.outputModel.length := by
  unfold ModelHandlerContract.wrongFields
  rw [List.map_eq_nil_iff, List.filter_eq_nil_iff]
  simp

theorem trim_node (s : String) : ∃ rest, trim ("node." ++ s) = "node." ++ rest := by
  have hnode : ("node." : String).toList = ['n', 'o', 'd', 'e', '.'] := by decide
  have hfront : ("node." ++ s).toList.dropWhile isWhiteSpace = "node.".toList ++ s.toList := by
    rw [String.toList_append, hnode]
    exact List.dropWhile_cons_of_neg (by decide)
  have hback : ∃ rest, ("node.".toList ++ s.toList).reverse.dropWhile isWhiteSpace
      = rest ++ "node.".toList.reverse := by
    rw [List.reverse_append, List.dropWhile_append]
    split
    · refine ⟨[], ?_⟩
      rw [hnode]
      decide
    · exact ⟨_, rfl⟩
  rcases hback with ⟨rest, hrest⟩
  refine ⟨String.ofList rest.reverse, ?_⟩
  unfold trim
  rw [hfront, hrest, List.reverse_append, List.reverse_reverse, String.ofList_append,
    String.ofList_toList]

theorem archetype_of_handlerIdOf {name : String} (h : c.handlerId = trim (handlerIdOf i name)) :
    validateDescriptorNodeArchetypeConsistency i c = .ok () := by
  rcases trim_node (replaceChar ' ' "_" (i.lower name)) with ⟨rest, hrest⟩
  have hhead : (splitAt '.' c.handlerId).headD "" = "node" := by
    have hlist : ("node." ++ rest).toList = ['n', 'o', 'd', 'e'] ++ '.' :: rest.toList := by
      rw [String.toList_append]
      rfl
    rw [h]
    unfold handlerIdOf splitAt
    rw [hrest, hlist, pieces_append_cons [] (by simp) (by decide)]
    rfl
  have hlower : i.lower "node" = "node" := i.lower_eq_self (by decide)
  unfold validateDescriptorNodeArchetypeConsistency
  simp only [hhead, hlower]
  rfl

theorem patchChanges_ok_iff {base : BaseFields} :
    (∃ changes, patchChanges i base patch = .ok changes) ↔
      ∀ version ∈ patch.nodeVersion, (∃ text, version.pyStr = .ok text) ∧
        ∃ text, base.contractVersion.pyStr = .ok text := by
  unfold patchChanges
  cases patch.nodeVersion with
  | none =>
    constructor
    · intro _ version hversion
      cases hversion
    · intro _
      exact ⟨_, rfl⟩
  | some version =>
    simp only [Option.mem_some_iff, forall_eq']
    constructor
    · rintro ⟨_, h⟩
      rcases bind_eq_ok h with ⟨text, htext, h⟩
      rcases bind_eq_ok h with ⟨baseText, hbaseText, -⟩
      exact ⟨⟨text, htext⟩, baseText, hbaseText⟩
    · rintro ⟨⟨text, htext⟩, baseText, hbaseText⟩
      rw [htext, hbaseText]
      exact ⟨_, rfl⟩

theorem of_trim_getD {P : String → Prop} {set : Option String} {base current : String}
    (hbase : P (trim (set.getD base))) (hstripped : trim current = current)
    (hcurrent : P current) : P (trim (set.getD current)) := by
  cases set with
  | some _ => exact hbase
  | none =>
    show P (trim current)
    rwa [hstripped]

def VersionsPrint (patches : List ModelContractPatch) : Prop :=
  ∀ patch ∈ patches, ∀ version ∈ patch.nodeVersion, ∃ text, version.pyStr = .ok text

theorem capabilityInputs_mergedContract (base : BaseFields) (patch : ModelContractPatch)
    (inputs : List ModelCapabilityDependency) :
    (mergedContract i base patch inputs).stripped.capabilityInputs = inputs := rfl

variable {base : ModelContractBase}

/-- A patch that applies to the profile applies to a stack on top of the profile, if the name of
the stack makes a valid identifier where the patch has no name. -/
theorem applies_of_merges {current c₀ : ModelHandlerContract}
    (hstack : Merges i base.fields patches current) (hversions : VersionsPrint patches)
    (happlies : Applies i base.fields patch c₀)
    (hid : patch.name = none → validateHandlerId i (trim (handlerIdOf i
      (trim (lastSet base.name (patches.map (·.name)))))) = true) :
    ∃ c, Applies i current.fields patch c := by
  have hlast := lastWriterWins_of_merges hstack
  rcases hstack.last with ⟨b, before, p, -, htop, hcurrent⟩
  have htop' := htop.step hcurrent.2.1
  have hchecked := wrongFields_eq_nil_iff.mp hcurrent.2.2.fields
  rcases happlies with ⟨hchanges, hstep, hchecked₀⟩
  have hchecked₀ := wrongFields_eq_nil_iff.mp hchecked₀.fields
  -- the capabilities are those of the profile in both cases
  have hinputs : mergeCapabilityInputs i (mergeBehavior current.fields.behavior
      patch.descriptor).capabilityInputs patch.capabilityInputsAdd patch.capabilityInputsRemove
        = .ok c₀.capabilityInputs := by
    rw [(capabilities_mergeBehavior _ _).1, htop'.capabilityInputs, ← hstep.capabilityInputs,
      (capabilities_mergeBehavior _ _).1]
    rfl
  have hstripped : (mergedContract i current.fields patch c₀.capabilityInputs).stripped.handlerId
      = trim (handlerIdOf i (patch.name.getD current.name)) := rfl
  refine ⟨(mergedContract i current.fields patch c₀.capabilityInputs).stripped, ?_,
    step_of_eq hinputs rfl, ?_, archetype_of_handlerIdOf hstripped⟩
  · apply patchChanges_ok_iff.mpr
    intro version hversion
    have hprint := patchChanges_ok_iff.mp hchanges version hversion
    refine ⟨hprint.1, ?_⟩
    show ∃ text, current.contractVersion.pyStr = .ok text
    rw [hlast.contractVersion]
    rcases lastSet_mem base.contractVersion (patches.map (·.nodeVersion)) with heq | hmem
    · rw [heq]
      exact hprint.2
    · rcases List.mem_map.mp hmem with ⟨q, hq, hset⟩
      exact hversions q hq _ (Option.mem_def.mpr hset)
  · apply wrongFields_eq_nil_iff.mpr
    rw [capabilityInputs_mergedContract]
    refine ⟨?_, ?_, ?_, hchecked₀.2.2.2.1, ?_, ?_⟩
    · rw [hstripped]
      cases hname : patch.name with
      | some name =>
        have hvalid := hchecked₀.1
        rwa [hstep.handlerId, hname] at hvalid
      | none =>
        rw [Option.getD_none, hlast.name]
        exact hid hname
    · have hname := hchecked₀.2.1
      rw [hstep.name] at hname
      exact of_trim_getD (P := fun s => 1 ≤ s.length ∧ s.length ≤ 128) hname htop'.name
        hchecked.2.1
    · have hdescription := hchecked₀.2.2.1
      have hdescription₀ : c₀.description
          = some (trim (patch.description.getD base.description)) := by
        rw [hstep.description]
        show (mergeScalar (some base.description) patch.description).map trim = _
        rw [mergeScalar_some, Option.map_some]
      rw [hdescription₀] at hdescription
      have hcurrentDescription := hchecked.2.2.1
      rw [hlast.description] at hcurrentDescription
      have hnew : (mergedContract i current.fields patch c₀.capabilityInputs).stripped.description
          = some (trim (patch.description.getD
            (trim (lastSet base.description (patches.map (·.description)))))) := by
        show (mergeScalar current.description patch.description).map trim = _
        rw [hlast.description, mergeScalar_some, Option.map_some]
      rw [hnew]
      intro description hmem
      rw [← Option.mem_some_iff.mp hmem]
      exact of_trim_getD (P := fun s => s.length ≤ 1000) (hdescription _ rfl) (trim_trim _)
        (hcurrentDescription _ rfl)
    · have hmodel := hchecked₀.2.2.2.2.1
      rw [hstep.inputModel] at hmodel
      refine of_trim_getD (P := fun s => 1 ≤ s.length) hmodel ?_ hchecked.2.2.2.2.1
      show trim current.inputModel = current.inputModel
      rw [hlast.inputModel, trim_trim]
    · have hmodel := hchecked₀.2.2.2.2.2
      rw [hstep.outputModel] at hmodel
      refine of_trim_getD (P := fun s => 1 ≤ s.length) hmodel ?_ hchecked.2.2.2.2.2
      show trim current.outputModel = current.outputModel
      rw [hlast.outputModel, trim_trim]

/-- Wherever a patch has no name, the name of the patches before it makes a valid identifier. -/
def HandlerIdsValid (i : TextInterpreter) (base : ModelContractBase)
    (patches : List ModelContractPatch) : Prop :=
  ∀ before patch after, patches = before ++ patch :: after → patch.name = none →
    validateHandlerId i (trim (handlerIdOf i
      (trim (lastSet base.name (before.map (·.name)))))) = true

theorem versionsPrint_of_applies {base : BaseFields} (h : ∀ p ∈ patches, ∃ c, Applies i base p c) :
    VersionsPrint patches := by
  intro p hp version hversion
  rcases h p hp with ⟨_, hchanges, -⟩
  exact (patchChanges_ok_iff.mp hchanges version hversion).1

theorem exists_merges (hne : patches ≠ []) (happly : ∀ p ∈ patches, ∃ c, Applies i base.fields p c)
    (hids : HandlerIdsValid i base patches) : ∃ c, Merges i base.fields patches c := by
  induction patches using List.reverseRecOn with
  | nil => exact absurd rfl hne
  | append_singleton patches patch ih =>
    rcases happly patch (by simp) with ⟨c₀, happlies⟩
    by_cases hnil : patches = []
    · rw [hnil, List.nil_append]
      exact ⟨c₀, Merges.first happlies⟩
    · have hbefore : ∀ p ∈ patches, ∃ c, Applies i base.fields p c :=
        fun p hp => happly p (List.mem_append_left _ hp)
      have hstack := ih hnil hbefore fun before p after hsplit => by
        apply hids before p (after ++ [patch])
        rw [hsplit, List.append_assoc, List.cons_append]
      rcases hstack with ⟨current, hstack⟩
      rcases applies_of_merges hstack (versionsPrint_of_applies hbefore) happlies
        (hids patches patch [] rfl) with ⟨c, hnext⟩
      exact ⟨c, hstack.next hnext⟩

theorem Merges.last_handlerId {before : List ModelContractPatch}
    (h : Merges i base.fields (before ++ [patch]) c) :
    (∃ b, OnTopOf base b ∧ Applies i b patch c) ∧ c.handlerId = trim (handlerIdOf i
      (patch.name.getD (trim (lastSet base.name (before.map (·.name)))))) := by
  by_cases hnil : before = []
  · subst hnil
    have happlies := merges_singleton_iff.mp h
    refine ⟨⟨base.fields, onTopOf_fields base, happlies⟩, ?_⟩
    rw [List.map_nil, lastSet_nil, base.stripped.1]
    exact happlies.2.1.handlerId
  · rcases (merges_concat_iff hnil).mp h with ⟨current, hstack, happlies⟩
    rcases hstack.last with ⟨_, _, _, -, htop, hcurrent⟩
    refine ⟨⟨current.fields, htop.step hcurrent.2.1, happlies⟩, ?_⟩
    rw [happlies.2.1.handlerId, ← (lastWriterWins_of_merges hstack).name]
    rfl

theorem capabilities_eq {profile : ModelContractBase} {base base' : BaseFields}
    {c c' : ModelHandlerContract} (htop : OnTopOf profile base) (htop' : OnTopOf profile base')
    (h : Step i base patch c) (h' : Step i base' patch c') :
    c.capabilityInputs = c'.capabilityInputs ∧ c.capabilityOutputs = c'.capabilityOutputs := by
  have hin := h.capabilityInputs
  have hin' := h'.capabilityInputs
  rw [(capabilities_mergeBehavior _ _).1, htop.capabilityInputs] at hin
  rw [(capabilities_mergeBehavior _ _).1, htop'.capabilityInputs] at hin'
  refine ⟨Except.ok.inj (hin.symm.trans hin'), ?_⟩
  rw [h.outputNames, h'.outputNames, htop.capabilityOutputs, htop'.capabilityOutputs]

/-! ## Every patch counts -/

section
variable {names revokes : ModelContractPatch → List String}

/-- The list has what a patch adds and no later patch removes, and it lacks what a patch removes
and no later patch adds. -/
structure EveryPatchCounts (names revokes : ModelContractPatch → List String)
    (patches : List ModelContractPatch) (result : List String) : Prop where
  added : ∀ name, Stands names revokes patches name → name ∈ result
  removed : ∀ name, Stands revokes names patches name → name ∉ result

/-- The last patch says again what the patches before it add and remove, where the list of the
profile does not have it so already. -/
structure SaidAgain (names revokes : ModelContractPatch → List String) (base : List String)
    (patches : List ModelContractPatch) : Prop where
  added : ∀ name, Stands names revokes patches name →
    name ∈ base.map trim ∨ ∃ last ∈ patches.getLast?, name ∈ names last
  removed : ∀ s ∈ base, Stands revokes names patches (trim s) →
    ∃ last ∈ patches.getLast?, s ∈ revokes last

theorem everyPatchCounts_iff (hclean : ∀ p, Clean (names p) ∧ Clean (revokes p))
    (hdisjoint : ∀ p, ∀ name ∈ names p, name ∉ revokes p) (reference : ModelContractPatch)
    (hnone : names reference = [] ∧ revokes reference = []) {base result : List String}
    (hresult : ∀ name, name ∈ result ↔
      (∃ s ∈ base, s ∉ revokes (patches.getLastD reference) ∧ trim s = name) ∨
        name ∈ names (patches.getLastD reference)) :
    EveryPatchCounts names revokes patches result ↔ SaidAgain names revokes base patches := by
  have hlast : ∀ {field : ModelContractPatch → List String} {name : String},
      field reference = [] → (name ∈ field (patches.getLastD reference) ↔
        ∃ last ∈ patches.getLast?, name ∈ field last) := by
    intro field name hfield
    rw [List.getLastD_eq_getLast?]
    cases patches.getLast? with
    | none => simp [hfield]
    | some last => simp
  constructor
  · intro h
    constructor
    · intro name hname
      rcases (hresult name).mp (h.added name hname) with ⟨s, hs, -, htrim⟩ | hadded
      · exact Or.inl (List.mem_map.mpr ⟨s, hs, htrim⟩)
      · exact Or.inr ((hlast hnone.1).mp hadded)
    · intro s hs hname
      apply (hlast hnone.2).mp
      by_contra hkept
      exact h.removed _ hname ((hresult _).mpr (Or.inl ⟨s, hs, hkept, rfl⟩))
  · intro h
    constructor
    · intro name hname
      apply (hresult name).mpr
      rcases h.added name hname with hbase | hadded
      · rcases List.mem_map.mp hbase with ⟨s, hs, rfl⟩
        refine Or.inl ⟨s, hs, fun hmem => ?_, rfl⟩
        -- a removed name is stripped, and what stands is not removed
        have hs' := hname.notMem_last hdisjoint reference
        rw [(hclean _).2 s hmem] at hs'
        exact hs' hmem
      · exact Or.inr ((hlast hnone.1).mpr hadded)
    · intro name hname hmem
      rcases (hresult name).mp hmem with ⟨s, hs, hkept, rfl⟩ | hadded
      · exact hkept ((hlast hnone.2).mpr (h.removed s hs hname))
      · exact hname.notMem_last (fun p name hrevoked hadds => hdisjoint p name hadds hrevoked)
          reference hadded

end

def ModelContractPatch.inputsAdded (p : ModelContractPatch) : List String :=
  p.capabilityInputsAdd.getD []

def ModelContractPatch.inputsRemoved (p : ModelContractPatch) : List String :=
  p.capabilityInputsRemove.getD []

def ModelContractPatch.outputsAdded (p : ModelContractPatch) : List String :=
  p.outputsAdd.getD []

def ModelContractPatch.outputsRemoved (p : ModelContractPatch) : List String :=
  p.capabilityOutputsRemove.getD []

structure LastPatchWins (i : TextInterpreter) (base : ModelContractBase)
    (patches : List ModelContractPatch) (c : ModelHandlerContract) : Prop where
  name : c.name = lastSet base.name (patches.map (·.name))
  contractVersion : c.contractVersion
    = lastSet base.contractVersion (patches.map (·.nodeVersion))
  description : c.description = some (lastSet base.description (patches.map (·.description)))
  inputModel : c.inputModel = lastSet base.inputModel
    (patches.map (·.inputModel.map (ModelReference.pyStr i)))
  outputModel : c.outputModel = lastSet base.outputModel
    (patches.map (·.outputModel.map (ModelReference.pyStr i)))
  descriptor : c.descriptor
    = lastBehavior (base.behavior.getD defaultBehavior) (patches.map (·.descriptor))

/-- The patches in order on top of the profile, and each of them counts in the result. -/
structure AppliesEveryPatch (i : TextInterpreter) (profileFactory : ProfileFactory)
    (input : ModelContractResolveInput) (resolved : ModelHandlerContract) : Prop where
  inOrder : ∀ base, profileOf i profileFactory (basePatch input.baseProfileRef) none = .ok base →
    Merges i base.fields (basePatch input.baseProfileRef :: input.patches) resolved
  lastPatchWins : ∀ base,
    profileOf i profileFactory (basePatch input.baseProfileRef) none = .ok base →
    LastPatchWins i base input.patches resolved
  capabilityInputs : EveryPatchCounts ModelContractPatch.inputsAdded
    ModelContractPatch.inputsRemoved input.patches resolved.inputNames
  capabilityOutputs : EveryPatchCounts ModelContractPatch.outputsAdded
    ModelContractPatch.outputsRemoved input.patches resolved.capabilityOutputs
  overlays : ∀ first (entries : List ModelOverlayStackEntry) scope,
    input.patches = first :: entries.map (·.overlayPatch) →
    (∀ entry ∈ entries, entry.scope = scope) →
    mergeWithOverlays i profileFactory first entries none false = .ok resolved

structure LastDescriptorDecides (base : ModelHandlerBehavior)
    (descriptors : List (Option ModelDescriptorPatch)) : Prop where
  purity : LastDecides base.purity (descriptors.map (·.bind (·.purity)))
  idempotent : LastDecides base.idempotent (descriptors.map (·.bind (·.idempotent)))
  timeoutMs : LastDecides base.timeoutMs (descriptors.map (·.bind (·.timeoutMs.map some)))
  retryPolicy : LastDecides base.retryPolicy (descriptors.map (·.bind (·.retryPolicy.map some)))
  circuitBreaker : LastDecides base.circuitBreaker
    (descriptors.map (·.bind (·.circuitBreaker.map some)))
  concurrencyPolicy : LastDecides base.concurrencyPolicy
    (descriptors.map (·.bind (·.concurrencyPolicy)))
  isolationPolicy : LastDecides base.isolationPolicy
    (descriptors.map (·.bind (·.isolationPolicy)))
  observabilityLevel : LastDecides base.observabilityLevel
    (descriptors.map (·.bind (·.observabilityLevel)))

def LastTextDecides (base : String) (entries : List (Option String)) : Prop :=
  LastDecides base entries ∧ ∀ text ∈ entries.getLastD none, trim text = text

/-- The last patch alone makes what the stack makes. -/
structure NothingLost (i : TextInterpreter) (base : ModelContractBase)
    (patches : List ModelContractPatch) : Prop where
  name : LastTextDecides base.name (patches.map (·.name))
  contractVersion : LastDecides base.contractVersion (patches.map (·.nodeVersion))
  description : LastTextDecides base.description (patches.map (·.description))
  inputModel : LastTextDecides base.inputModel
    (patches.map (·.inputModel.map (ModelReference.pyStr i)))
  outputModel : LastTextDecides base.outputModel
    (patches.map (·.outputModel.map (ModelReference.pyStr i)))
  descriptor : LastDescriptorDecides (base.behavior.getD defaultBehavior)
    (patches.map (·.descriptor))
  capabilityInputs : SaidAgain ModelContractPatch.inputsAdded ModelContractPatch.inputsRemoved
    (base.behavior.getD defaultBehavior).capabilityInputs patches
  capabilityOutputs : SaidAgain ModelContractPatch.outputsAdded ModelContractPatch.outputsRemoved
    (base.behavior.getD defaultBehavior).capabilityOutputs patches
  handlerIds : HandlerIdsValid i base patches

theorem getLastD_map_of_none {α β : Type} {field : β → Option α} (first : β)
    (hnone : field first = none) (l : List β) :
    (l.map field).getLastD none = field (l.getLastD first) := by
  induction l using List.reverseRecOn with
  | nil => exact hnone.symm
  | append_singleton l last _ =>
    rw [List.map_append, List.map_singleton, List.getLastD_concat, List.getLastD_concat]

theorem lastText_iff {base : String} (hbase : trim base = base) (entries : List (Option String)) :
    trim ((entries.getLastD none).getD base) = lastSet base entries ↔
      LastTextDecides base entries := by
  have hdecides := getLastD_getD_eq_lastSet_iff base entries
  unfold LastTextDecides
  cases hlast : entries.getLastD none with
  | none =>
    rw [hlast, Option.getD_none] at hdecides
    rw [Option.getD_none, hbase, hdecides]
    simp
  | some text =>
    have hset : LastDecides base entries := fun h => nomatch hlast.symm.trans h
    rw [hlast, Option.getD_some] at hdecides
    rw [Option.getD_some, ← hdecides.mpr hset]
    simp [hset]

theorem lastBehavior_eq_iff (base : ModelHandlerBehavior)
    (descriptors : List (Option ModelDescriptorPatch)) :
    lastBehavior base [descriptors.getLastD none] = lastBehavior base descriptors ↔
      LastDescriptorDecides base descriptors := by
  have hfield : ∀ {α : Type} (v : α) (field : Option ModelDescriptorPatch → Option α),
      field none = none → (lastSet v ([descriptors.getLastD none].map field)
        = lastSet v (descriptors.map field) ↔ LastDecides v (descriptors.map field)) := by
    intro α v field hnone
    rw [← getLastD_getD_eq_lastSet_iff, getLastD_map_of_none none hnone]
    rfl
  unfold lastBehavior
  simp only [ModelHandlerBehavior.mk.injEq]
  constructor
  · rintro ⟨-, hpurity, hidempotent, htimeout, hretry, hbreaker, hconcurrency, hisolation,
      hobservability, -, -⟩
    exact ⟨(hfield _ _ rfl).mp hpurity, (hfield _ _ rfl).mp hidempotent,
      (hfield _ _ rfl).mp htimeout, (hfield _ _ rfl).mp hretry, (hfield _ _ rfl).mp hbreaker,
      (hfield _ _ rfl).mp hconcurrency, (hfield _ _ rfl).mp hisolation,
      (hfield _ _ rfl).mp hobservability⟩
  · intro h
    exact ⟨trivial, (hfield _ _ rfl).mpr h.purity, (hfield _ _ rfl).mpr h.idempotent,
      (hfield _ _ rfl).mpr h.timeoutMs, (hfield _ _ rfl).mpr h.retryPolicy,
      (hfield _ _ rfl).mpr h.circuitBreaker, (hfield _ _ rfl).mpr h.concurrencyPolicy,
      (hfield _ _ rfl).mpr h.isolationPolicy, (hfield _ _ rfl).mpr h.observabilityLevel,
      trivial, trivial⟩

/-- What the last patch makes of the profile has a trace of every patch. -/
theorem nothingLost_iff {resolved : ModelHandlerContract} (reference : ModelProfileReference)
    (hstep : Step i base.fields (patches.getLastD (basePatch reference)) resolved) :
    NothingLost i base patches ↔
      (LastPatchWins i base patches resolved ∧
        EveryPatchCounts ModelContractPatch.inputsAdded ModelContractPatch.inputsRemoved patches
          resolved.inputNames ∧
        EveryPatchCounts ModelContractPatch.outputsAdded ModelContractPatch.outputsRemoved patches
          resolved.capabilityOutputs) ∧
      HandlerIdsValid i base patches := by
  have h := lastWriterWins_first hstep
  -- each list of capabilities has a condition of its own, as each field has
  have hinputs : EveryPatchCounts ModelContractPatch.inputsAdded ModelContractPatch.inputsRemoved
      patches resolved.inputNames ↔ SaidAgain ModelContractPatch.inputsAdded
        ModelContractPatch.inputsRemoved (base.behavior.getD defaultBehavior).capabilityInputs
        patches := by
    rw [hstep.inputNames]
    exact everyPatchCounts_iff (fun p => ⟨(clean_patch p).1, (clean_patch p).2.1⟩)
      (fun p => p.noConflicts.1) (basePatch reference) ⟨rfl, rfl⟩
      fun _ => mem_map_trim_applyListOperations (clean_patch _).1
  have houtputs : EveryPatchCounts ModelContractPatch.outputsAdded
      ModelContractPatch.outputsRemoved patches resolved.capabilityOutputs ↔
        SaidAgain ModelContractPatch.outputsAdded ModelContractPatch.outputsRemoved
          (base.behavior.getD defaultBehavior).capabilityOutputs patches := by
    rw [hstep.outputNames]
    exact everyPatchCounts_iff (fun p => (clean_patch p).2.2) outputsAdd_disjoint
      (basePatch reference) ⟨rfl, rfl⟩
      fun _ => mem_map_trim_applyListOperations (clean_patch _).2.2.1
  have hname := lastText_iff base.stripped.1 (patches.map (·.name))
  have hversion := getLastD_getD_eq_lastSet_iff base.contractVersion (patches.map (·.nodeVersion))
  have hdescription := lastText_iff base.stripped.2.1 (patches.map (·.description))
  have hinput := lastText_iff base.stripped.2.2.1
    (patches.map (·.inputModel.map (ModelReference.pyStr i)))
  have houtput := lastText_iff base.stripped.2.2.2.1
    (patches.map (·.outputModel.map (ModelReference.pyStr i)))
  have hdescriptor := lastBehavior_eq_iff (base.behavior.getD defaultBehavior)
    (patches.map (·.descriptor))
  rw [getLastD_map_of_none (basePatch reference) rfl] at hname hversion hdescription
  rw [getLastD_map_of_none (basePatch reference) rfl] at hinput houtput hdescriptor
  have hnameEq : resolved.name = _ := h.name
  have hversionEq : resolved.contractVersion = _ := h.contractVersion
  have hdescriptionEq : resolved.description = _ := h.description
  have hinputEq : resolved.inputModel = _ := h.inputModel
  have houtputEq : resolved.outputModel = _ := h.outputModel
  have hdescriptorEq : resolved.descriptor = _ := h.descriptor
  simp only [List.map_cons, List.map_nil, lastSet_cons, lastSet_nil] at hnameEq hversionEq
  simp only [List.map_cons, List.map_nil, lastSet_cons, lastSet_nil] at hdescriptionEq hinputEq
  simp only [List.map_cons, List.map_nil, lastSet_cons, lastSet_nil] at houtputEq hdescriptorEq
  rw [← hnameEq] at hname
  rw [← hversionEq] at hversion
  rw [← hinputEq] at hinput
  rw [← houtputEq] at houtput
  rw [← hdescriptorEq] at hdescriptor
  have hdescription : resolved.description
      = some (lastSet base.description (patches.map (·.description))) ↔
        LastTextDecides base.description (patches.map (·.description)) := by
    rw [hdescriptionEq, Option.some.injEq, hdescription]
  constructor
  · intro hlost
    exact ⟨⟨⟨hname.mpr hlost.name, hversion.mpr hlost.contractVersion,
      hdescription.mpr hlost.description, hinput.mpr hlost.inputModel,
      houtput.mpr hlost.outputModel, hdescriptor.mpr hlost.descriptor⟩,
      hinputs.mpr hlost.capabilityInputs, houtputs.mpr hlost.capabilityOutputs⟩,
      hlost.handlerIds⟩
  · rintro ⟨⟨hwins, hin, hout⟩, hids⟩
    exact ⟨hname.mp hwins.name, hversion.mp hwins.contractVersion,
      hdescription.mp hwins.description, hinput.mp hwins.inputModel,
      houtput.mp hwins.outputModel, hdescriptor.mp hwins.descriptor, hinputs.mp hin,
      houtputs.mp hout, hids⟩

theorem merges_of_nothingLost {before : List ModelContractPatch} {last : ModelContractPatch}
    {resolved : ModelHandlerContract} (hresolved : Applies i base.fields last resolved)
    (happly : ∀ p ∈ before ++ [last], ∃ c, Applies i base.fields p c)
    (hlost : NothingLost i base (before ++ [last])) :
    Merges i base.fields (before ++ [last]) resolved := by
  rcases exists_merges (by simp) happly hlost.handlerIds with ⟨c, hstack⟩
  have hstep := hresolved.2.1
  have hwins := lastWriterWins_first hstep
  have hlast : LastPatchWins i base (before ++ [last]) resolved := by
    refine ((nothingLost_iff last.extends_ ?_).mp hlost).1.1
    rwa [List.getLastD_concat]
  have hc := lastWriterWins_of_merges hstack
  rcases hstack.last_handlerId with ⟨⟨b, htop, happlies⟩, hid⟩
  have hcapabilities := capabilities_eq htop (onTopOf_fields base) happlies.2.1 hstep
  have hhandlerId : c.handlerId = resolved.handlerId := by
    rw [hid, hstep.handlerId]
    cases hname : last.name with
    | some name => rfl
    | none =>
      -- the patches before the last one leave the name of the profile
      have hbase := hlost.name.1
      rw [List.map_append, List.map_singleton] at hbase
      have hbefore := hbase (by rw [List.getLastD_concat, hname])
      rw [List.dropLast_concat] at hbefore
      rw [Option.getD_none, hbefore, base.stripped.1]
      rfl
  have hname : c.name = resolved.name := by
    rw [hc.name, ← hlast.name, hstep.name, trim_trim]
  have hdescription : c.description = resolved.description := by
    have htrim : trim (lastSet base.description ((before ++ [last]).map (·.description)))
        = lastSet base.description ((before ++ [last]).map (·.description)) := by
      have heq := hlast.description.symm.trans hwins.description
      rw [Option.some.inj heq, trim_trim]
    rw [hc.description, hlast.description, htrim]
  have hinputModel : c.inputModel = resolved.inputModel := by
    rw [hc.inputModel, ← hlast.inputModel, hstep.inputModel, trim_trim]
  have houtputModel : c.outputModel = resolved.outputModel := by
    rw [hc.outputModel, ← hlast.outputModel, hstep.outputModel, trim_trim]
  have heq : c = resolved := by
    cases c
    cases resolved
    simp only [ModelHandlerContract.mk.injEq]
    exact ⟨hhandlerId, hname, hc.contractVersion.trans hlast.contractVersion.symm, hdescription,
      hc.descriptor.trans hlast.descriptor.symm, hcapabilities.1, hcapabilities.2, hinputModel,
      houtputModel, hc.tags.trans hwins.tags.symm, hc.handlerRouting.trans hwins.handlerRouting.symm,
      hc.yamlConsumedEvents.trans hwins.yamlConsumedEvents.symm,
      hc.yamlPublishedEvents.trans hwins.yamlPublishedEvents.symm⟩
  rwa [heq] at hstack

theorem nothingLost_basePatch {reference : ModelProfileReference}
    (hbase : Applies i base.fields (basePatch reference) c) (h : NothingLost i base patches) :
    NothingLost i base (basePatch reference :: patches) := by
  have htext : ∀ {field : ModelContractPatch → Option String} {text : String},
      field (basePatch reference) = none → LastTextDecides text (patches.map field) →
      LastTextDecides text ((basePatch reference :: patches).map field) := by
    intro field text hnone hdecides
    unfold LastTextDecides at hdecides ⊢
    rwa [List.map_cons, hnone, lastDecides_none_cons, List.getLastD_cons]
  have hlast : ∀ {α : Type} {field : ModelContractPatch → Option α} {v : α},
      field (basePatch reference) = none → LastDecides v (patches.map field) →
      LastDecides v ((basePatch reference :: patches).map field) := by
    intro α field v hnone hdecides
    rwa [List.map_cons, hnone, lastDecides_none_cons]
  -- the base patch of a reference names no capabilities
  have hcapabilities : ∀ {names revokes : ModelContractPatch → List String} {list : List String},
      names (basePatch reference) = [] → revokes (basePatch reference) = [] →
      SaidAgain names revokes list patches →
      SaidAgain names revokes list (basePatch reference :: patches) := by
    intro names revokes list hnames hrevokes hagain
    have hlast : ∀ last ∈ patches.getLast?, last ∈ (basePatch reference :: patches).getLast? := by
      intro last hlast
      rw [List.getLast?_cons, Option.mem_def.mp hlast]
      rfl
    constructor
    · intro name hname
      rcases hagain.added name ((stands_cons_iff hnames).mp hname) with hbase | ⟨last, hmem, hadd⟩
      · exact Or.inl hbase
      · exact Or.inr ⟨last, hlast last hmem, hadd⟩
    · intro s hs hname
      rcases hagain.removed s hs ((stands_cons_iff hrevokes).mp hname) with ⟨last, hmem, hremove⟩
      exact ⟨last, hlast last hmem, hremove⟩
  constructor
  · exact htext rfl h.name
  · exact hlast rfl h.contractVersion
  · exact htext rfl h.description
  · exact htext rfl h.inputModel
  · exact htext rfl h.outputModel
  · have hd := h.descriptor
    constructor
    · exact (lastDecides_none_cons _ _).mpr hd.purity
    · exact (lastDecides_none_cons _ _).mpr hd.idempotent
    · exact (lastDecides_none_cons _ _).mpr hd.timeoutMs
    · exact (lastDecides_none_cons _ _).mpr hd.retryPolicy
    · exact (lastDecides_none_cons _ _).mpr hd.circuitBreaker
    · exact (lastDecides_none_cons _ _).mpr hd.concurrencyPolicy
    · exact (lastDecides_none_cons _ _).mpr hd.isolationPolicy
    · exact (lastDecides_none_cons _ _).mpr hd.observabilityLevel
  · exact hcapabilities rfl rfl h.capabilityInputs
  · exact hcapabilities rfl rfl h.capabilityOutputs
  · intro before patch after hsplit hname
    cases before with
    | nil =>
      have hvalid := (wrongFields_eq_nil_iff.mp hbase.2.2.fields).1
      rw [hbase.2.1.handlerId] at hvalid
      rw [List.map_nil, lastSet_nil, base.stripped.1]
      exact hvalid
    | cons first before =>
      rw [List.cons_append, List.cons.injEq] at hsplit
      rw [← hsplit.1, List.map_cons, lastSet_cons]
      exact h.handlerIds before patch after hsplit.2 hname

theorem mergeWithOverlays_of_merges {entries : List ModelOverlayStackEntry}
    {scope : EnumOverlayScope} (hbase : profileOf i profileFactory patch none = .ok base)
    (hscope : ∀ entry ∈ entries, entry.scope = scope)
    (h : Merges i base.fields (patch :: entries.map (·.overlayPatch)) c) :
    mergeWithOverlays i profileFactory patch entries none false = .ok c := by
  have hcanonical : canonicalOverlays entries = entries := by
    apply sortedAsc_of_pairwise
    apply List.pairwise_of_forall_mem_list
    intro a ha b hb
    rw [hscope a ha, hscope b hb]
  rcases mergeInternal_iff.mpr ⟨base, hbase, h⟩ with ⟨refs, hmerge⟩
  rw [mergeWithOverlays_false, hcanonical, hmerge]
  rfl

theorem dropLast_append_getLastD (first : ModelContractPatch) (rest : List ModelContractPatch) :
    first :: rest = (first :: rest).dropLast ++ [rest.getLastD first] := by
  induction rest using List.reverseRecOn with
  | nil => rfl
  | append_singleton rest last _ =>
    rw [List.getLastD_concat, ← List.cons_append, List.dropLast_concat]

/-- The resolved contract is made by all patches if and only if the last patch sets all that the
patches before it change. -/
theorem appliesEveryPatch_iff {input : ModelContractResolveInput}
    {out : ModelContractResolveOutput} (hhandle : handle i profileFactory env input = .ok out)
    (hextends : ∀ patch ∈ input.patches, patch.extends_ = input.baseProfileRef) :
    AppliesEveryPatch i profileFactory input out.resolvedContract ↔
      ∀ base, profileOf i profileFactory (basePatch input.baseProfileRef) none = .ok base →
        NothingLost i base input.patches := by
  rcases handle_ok hhandle with ⟨hall, hresolved⟩
  have hprofile : ∀ patch ∈ basePatch input.baseProfileRef :: input.patches,
      profileOf i profileFactory patch none
        = profileOf i profileFactory (basePatch input.baseProfileRef) none := by
    intro patch hpatch
    have hreference : patch.extends_ = (basePatch input.baseProfileRef).extends_ := by
      rcases List.mem_cons.mp hpatch with rfl | hpatch
      · rfl
      · exact hextends patch hpatch
    unfold profileOf resolveNodeType
    rw [hreference]
  rcases hall _ List.mem_cons_self with ⟨baseContract, hbaseContract⟩
  rcases merge_eq_ok_iff.mp hbaseContract with ⟨base, hbase, hbasePatch⟩
  have happly : ∀ patch ∈ basePatch input.baseProfileRef :: input.patches,
      ∀ c, merge i profileFactory patch none = .ok c → Applies i base.fields patch c := by
    intro patch hpatch c hmerge
    rcases merge_eq_ok_iff.mp hmerge with ⟨base', hbase', happlies⟩
    rw [hprofile patch hpatch, hbase, Except.ok.injEq] at hbase'
    rwa [← hbase'] at happlies
  have happly' : ∀ patch ∈ basePatch input.baseProfileRef :: input.patches,
      ∃ c, Applies i base.fields patch c := by
    intro patch hpatch
    rcases hall patch hpatch with ⟨c, hmerge⟩
    exact ⟨c, happly patch hpatch c hmerge⟩
  have hlast : Applies i base.fields (input.patches.getLastD (basePatch input.baseProfileRef))
      out.resolvedContract := by
    refine happly _ ?_ _ hresolved
    rw [dropLast_append_getLastD]
    exact List.mem_append_right _ (List.mem_singleton.mpr rfl)
  have hiff := nothingLost_iff input.baseProfileRef hlast.2.1
  constructor
  · intro h base' hbase'
    rw [hbase, Except.ok.injEq] at hbase'
    subst hbase'
    refine hiff.mpr ⟨⟨h.lastPatchWins base hbase, h.capabilityInputs, h.capabilityOutputs⟩, ?_⟩
    intro before patch after hsplit hname
    -- the stack up to the patch has a valid identifier
    have hstack := h.inOrder base hbase
    have hstages : basePatch input.baseProfileRef :: input.patches
        = basePatch input.baseProfileRef :: before ++ [patch] ++ after := by
      rw [hsplit, List.append_assoc, List.singleton_append, List.cons_append]
    rw [hstages] at hstack
    rcases hstack.prefix (by simp) with ⟨c, hc⟩
    rcases hc.last_handlerId with ⟨⟨b, -, happlies⟩, hid⟩
    have hvalid := (wrongFields_eq_nil_iff.mp happlies.2.2.fields).1
    rwa [hid, hname] at hvalid
  · intro h
    have hlost := h base hbase
    constructor
    · intro base' hbase'
      rw [hbase, Except.ok.injEq] at hbase'
      subst hbase'
      have hlost' := nothingLost_basePatch hbasePatch hlost
      rw [dropLast_append_getLastD] at happly' hlost' ⊢
      exact merges_of_nothingLost hlast happly' hlost'
    · intro base' hbase'
      rw [hbase, Except.ok.injEq] at hbase'
      subst hbase'
      exact (hiff.mp hlost).1.1
    · exact (hiff.mp hlost).1.2.1
    · exact (hiff.mp hlost).1.2.2
    · intro first entries scope hsplit hscope
      have hfirst : first ∈ basePatch input.baseProfileRef :: input.patches := by
        simp [hsplit]
      refine mergeWithOverlays_of_merges ((hprofile first hfirst).trans hbase) hscope ?_
      have hpatches : ∀ patch ∈ input.patches, ∃ c, Applies i base.fields patch c :=
        fun patch hpatch => happly' patch (List.mem_cons_of_mem _ hpatch)
      rw [hsplit] at hlast hpatches hlost
      rw [List.getLastD_cons] at hlast
      rw [dropLast_append_getLastD] at hpatches hlost ⊢
      exact merges_of_nothingLost hlast hpatches hlost

/-! ## Two patches -/

def noHashes : ResolveEnvironment :=
  { hashPatch := fun _ => .ok ""
    hashContract := fun _ => .ok ""
    hashBuild := fun _ _ _ => .ok ""
    contractDiff := fun _ _ => .ok ""
    coreVersion := "unknown" }

/-- A patch on top of `compute_pure` with a description, and one with a timeout. -/
def describedAndSlow : ModelContractResolveInput :=
  { baseProfileRef := computePure
    patches := [
      { extends_ := computePure, description := some "Renders a report" },
      { extends_ := computePure, descriptor := some { timeoutMs := some 5000 } }] }

theorem description_describedAndSlow :
    (handle asciiText computePureFactory noHashes describedAndSlow).map
      (·.resolvedContract.description) = .ok (some computePureProfile.description) := by
  decide +kernel

theorem appliesEveryPatch_iff_describedAndSlow :
    ∃ out, handle asciiText computePureFactory noHashes describedAndSlow = .ok out ∧
      (AppliesEveryPatch asciiText computePureFactory describedAndSlow out.resolvedContract ↔
        ∀ base, profileOf asciiText computePureFactory (basePatch computePure) none = .ok base →
          NothingLost asciiText base describedAndSlow.patches) := by
  rcases map_eq_ok description_describedAndSlow with ⟨out, hout, -⟩
  exact ⟨out, hout, appliesEveryPatch_iff hout (by decide)⟩

theorem describedAndSlow_not_appliesEveryPatch :
    (∀ patch ∈ describedAndSlow.patches, patch.extends_ = describedAndSlow.baseProfileRef) ∧
      ∃ out, handle asciiText computePureFactory noHashes describedAndSlow = .ok out ∧
        ¬ AppliesEveryPatch asciiText computePureFactory describedAndSlow
          out.resolvedContract := by
  rcases map_eq_ok description_describedAndSlow with ⟨out, hout, hdescription⟩
  refine ⟨by decide, out, hout, fun h => ?_⟩
  have hlast := (h.lastPatchWins computePureProfile rfl).description
  rw [hdescription] at hlast
  exact absurd hlast (by decide)

end OmnibaseCore.Merge
