import OmnibaseCore.Merge.EngineTheorems

/-!
# Capabilities along a stack of overlays

A merge takes the capabilities of its base from the behaviour of the base, and writes the merged
lists next to the behaviour, not into it. So every patch of a stack starts from the capabilities
of the profile again. `accumulates_iff` says for which stacks this makes no difference.
-/

namespace OmnibaseCore.Merge

/-! ## Lists of names -/

/-- A name without whitespace around it. -/
def Clean (names : List String) : Prop := ∀ name ∈ names, trim name = name

theorem isWhiteSpace_of_onex {c : Char} (h : c.isLower ∨ c.isDigit ∨ c = '_') :
    isWhiteSpace c = false := by
  have hbound : 0x30 ≤ c.toNat ∧ c.toNat ≤ 0x7a := by
    rcases h with h | h | rfl
    · change (c.val ≥ 'a'.val && c.val ≤ 'z'.val) = true at h
      simp only [ge_iff_le, UInt32.le_iff_toNat_le, Bool.and_eq_true, decide_eq_true_eq] at h
      have hlow : 97 ≤ c.toNat := h.1
      have hhigh : c.toNat ≤ 122 := h.2
      omega
    · have hdigit := Char.isDigit_iff_toNat.mp h
      have hlow : 48 ≤ c.toNat := hdigit.1
      have hhigh : c.toNat ≤ 57 := hdigit.2
      omega
    · decide
  unfold isWhiteSpace
  simp only [Bool.or_eq_false_iff, Bool.and_eq_false_iff, decide_eq_false_iff_not]
  omega

theorem trim_of_onexName {s : String} (h : IsOnexName s) : trim s = s := by
  apply trim_eq_self_iff.mpr
  constructor
  · intro c hc
    exact isWhiteSpace_of_onex (h.2 c (List.mem_of_mem_head? hc))
  · intro c hc
    exact isWhiteSpace_of_onex (h.2 c (List.mem_of_mem_getLast? hc))

variable {addItems removeKeys : Option (List String)}

theorem mem_applyListOperations {base : List String} {name : String} :
    name ∈ applyListOperations base addItems removeKeys id ↔
      (name ∈ base ∧ name ∉ removeKeys.getD []) ∨ name ∈ addItems.getD [] := by
  unfold applyListOperations applyListAdd applyListRemove
  cases addItems <;> cases removeKeys <;> simp

theorem applyListOperations_eq {base : List String} :
    applyListOperations base addItems removeKeys id
      = base.filter (· ∉ removeKeys.getD []) ++ addItems.getD [] := by
  unfold applyListOperations applyListAdd applyListRemove
  cases addItems <;> cases removeKeys <;> simp

/-- The names of a merged list, when the added ones are stripped. -/
theorem mem_map_trim_applyListOperations {base : List String} {name : String}
    (hadd : Clean (addItems.getD [])) :
    name ∈ (applyListOperations base addItems removeKeys id).map trim ↔
      (∃ s ∈ base, s ∉ removeKeys.getD [] ∧ trim s = name) ∨ name ∈ addItems.getD [] := by
  rw [List.mem_map]
  constructor
  · rintro ⟨s, hs, rfl⟩
    rcases mem_applyListOperations.mp hs with hbase | hadded
    · exact Or.inl ⟨s, hbase.1, hbase.2, rfl⟩
    · rw [hadd s hadded]
      exact Or.inr hadded
  · rintro (⟨s, hs, hkept, rfl⟩ | hadded)
    · exact ⟨s, mem_applyListOperations.mpr (Or.inl ⟨hs, hkept⟩), rfl⟩
    · exact ⟨name, mem_applyListOperations.mpr (Or.inr hadded), hadd name hadded⟩

section
variable (base : List String) {add : Option (List String)} (remove : Option (List String))
  {add' remove' : Option (List String)}

theorem kept_iff (hadd : Clean (add.getD [])) (hadd' : Clean (add'.getD []))
    (hremove' : Clean (remove'.getD [])) :
    (∀ name ∈ (applyListOperations base add remove id).map trim, name ∉ remove'.getD [] →
      name ∈ (applyListOperations base add' remove' id).map trim) ↔
    ∀ name ∈ add.getD [], name ∈ remove'.getD [] ∨ name ∈ add'.getD [] ∨ name ∈ base.map trim := by
  simp only [mem_map_trim_applyListOperations hadd, mem_map_trim_applyListOperations hadd']
  constructor
  · intro h name hname
    by_cases hremoved : name ∈ remove'.getD []
    · exact Or.inl hremoved
    · rcases h name (Or.inr hname) hremoved with ⟨s, hs, -, htrim⟩ | hadded
      · exact Or.inr (Or.inr (List.mem_map.mpr ⟨s, hs, htrim⟩))
      · exact Or.inr (Or.inl hadded)
  · intro h name hname hremoved
    -- a name of the list that the second patch removes is removed under its stripped form
    have hbase : ∀ s ∈ base, trim s = name →
        (∃ s ∈ base, s ∉ remove'.getD [] ∧ trim s = name) ∨ name ∈ add'.getD [] := by
      rintro s hs rfl
      refine Or.inl ⟨s, hs, fun hmem => ?_, rfl⟩
      rw [hremove' s hmem] at hremoved
      exact hremoved hmem
    rcases hname with ⟨s, hs, -, htrim⟩ | hadded
    · exact hbase s hs htrim
    · rcases h name hadded with hmem | hmem | hmem
      · exact absurd hmem hremoved
      · exact Or.inr hmem
      · rcases List.mem_map.mp hmem with ⟨s, hs, htrim⟩
        exact hbase s hs htrim

theorem unchanged_iff (hadd : Clean (add.getD [])) (hremove : Clean (remove.getD []))
    (hdisjoint : ∀ name ∈ add.getD [], name ∉ remove.getD []) :
    (applyListOperations base add remove id).map trim = base.map trim ↔
      add.getD [] = [] ∧ ∀ name ∈ base, name ∉ remove.getD [] := by
  rw [applyListOperations_eq]
  constructor
  · intro h
    have hnone : ∀ name ∈ base, name ∉ remove.getD [] := by
      intro name hbase hmem
      -- the removed name occurs less often than before
      have hcount := congrArg (List.count name) h
      rw [List.map_append, List.count_append] at hcount
      have hadded : List.count name ((add.getD []).map trim) = 0 := by
        apply List.count_eq_zero.mpr
        intro hin
        rcases List.mem_map.mp hin with ⟨other, hother, htrim⟩
        rw [hadd other hother] at htrim
        exact hdisjoint other hother (htrim ▸ hmem)
      have hfilter : ((base.filter (· ∉ remove.getD [])).map trim).Sublist
          ((base.erase name).map trim) := by
        apply List.Sublist.map
        rw [List.erase_eq_eraseP]
        have hsub : (base.filter (· ∉ remove.getD [])).Sublist base := List.filter_sublist
        have herase := hsub.eraseP (p := fun b => name == b)
        rwa [List.eraseP_of_forall_not] at herase
        intro other hother heq
        have hnot := (List.mem_filter.mp hother).2
        rw [← eq_of_beq heq] at hnot
        exact of_decide_eq_true hnot hmem
      have hle := hfilter.count_le name
      have hperm := (List.perm_cons_erase hbase).map trim
      have htotal := hperm.count_eq name
      rw [List.map_cons, hremove name hmem, List.count_cons_self] at htotal
      omega
    refine ⟨?_, hnone⟩
    have hall : base.filter (· ∉ remove.getD []) = base :=
      List.filter_eq_self.mpr fun name hname => by simpa using hnone name hname
    rw [hall, List.map_append] at h
    have hlen := congrArg List.length h
    rw [List.length_append, List.length_map, List.length_map] at hlen
    exact List.length_eq_zero_iff.mp (by omega)
  · rintro ⟨hnil, hnone⟩
    have hall : base.filter (· ∉ remove.getD []) = base :=
      List.filter_eq_self.mpr fun name hname => by simpa using hnone name hname
    rw [hall, hnil, List.append_nil]

end

/-! ## The lists of a contract -/

variable {i : TextInterpreter} {profileFactory : ProfileFactory} {patch : ModelContractPatch}
  {nodeType : Option EnumNodeType} {overlays : List ModelOverlayStackEntry}

def ModelHandlerContract.inputNames (c : ModelHandlerContract) : List String :=
  c.capabilityInputs.map ModelCapabilityDependency.capability

theorem make_capability {alias_ capability : String} {d : ModelCapabilityDependency}
    (h : ModelCapabilityDependency.make i alias_ capability = .ok d) :
    d.capability = trim capability := by
  unfold ModelCapabilityDependency.make at h
  extract_lets a b aliasValid capabilityValid wrong at h
  split at h
  · rw [← Except.ok.inj h]
  · exact nomatch h

theorem map_of_mapM_ok {ε α β γ : Type} {f : α → Except ε β} {g : β → γ} {h : α → γ}
    (hf : ∀ a b, f a = .ok b → g b = h a) {l : List α} {l' : List β} (hl : l.mapM f = .ok l') :
    l'.map g = l.map h := by
  induction l generalizing l' with
  | nil =>
    cases hl
    rfl
  | cons a l ih =>
    rw [List.mapM_cons] at hl
    rcases bind_eq_ok hl with ⟨b, hb, hl⟩
    rcases bind_eq_ok hl with ⟨bs, hbs, hl⟩
    cases hl
    rw [List.map_cons, List.map_cons, hf a b hb, ih hbs]

theorem capabilities_mergeBehavior (base : Option ModelHandlerBehavior)
    (descriptor : Option ModelDescriptorPatch) :
    (mergeBehavior base descriptor).capabilityInputs
        = (base.getD defaultBehavior).capabilityInputs ∧
      (mergeBehavior base descriptor).capabilityOutputs
        = (base.getD defaultBehavior).capabilityOutputs := by
  rw [mergeBehavior_eq]
  exact ⟨rfl, rfl⟩

def ModelContractPatch.outputsAdd (p : ModelContractPatch) : Option (List String) :=
  p.capabilityOutputsAdd.map fun l => l.map ModelCapabilityProvided.name

theorem outputsAdd_getD (p : ModelContractPatch) :
    p.outputsAdd.getD [] = (p.capabilityOutputsAdd.getD []).map ModelCapabilityProvided.name := by
  unfold ModelContractPatch.outputsAdd
  cases p.capabilityOutputsAdd <;> rfl

section
variable {base : BaseFields} {p : ModelContractPatch} {c : ModelHandlerContract}

theorem Step.inputNames (h : Step i base p c) :
    c.inputNames = (applyListOperations (base.behavior.getD defaultBehavior).capabilityInputs
      p.capabilityInputsAdd p.capabilityInputsRemove id).map trim := by
  have hinputs := h.capabilityInputs
  rw [(capabilities_mergeBehavior _ _).1] at hinputs
  exact map_of_mapM_ok (fun _ _ => make_capability) hinputs

theorem Step.outputNames (h : Step i base p c) :
    c.capabilityOutputs = (applyListOperations
      (base.behavior.getD defaultBehavior).capabilityOutputs p.outputsAdd
      p.capabilityOutputsRemove id).map trim := by
  rw [h.capabilityOutputs, (capabilities_mergeBehavior _ _).2]
  rfl

end

theorem clean_patch (p : ModelContractPatch) :
    Clean (p.capabilityInputsAdd.getD []) ∧ Clean (p.capabilityInputsRemove.getD []) ∧
      Clean (p.outputsAdd.getD []) ∧ Clean (p.capabilityOutputsRemove.getD []) := by
  refine ⟨fun s hs => ?_, fun s hs => ?_, fun s hs => ?_, fun s hs => ?_⟩
  · exact trim_of_onexName (p.onexNames s (Or.inl hs))
  · exact trim_of_onexName (p.onexNames s (Or.inr (Or.inl hs)))
  · rw [outputsAdd_getD] at hs
    exact trim_of_onexName (p.onexNames s (Or.inr (Or.inr (Or.inl hs))))
  · exact trim_of_onexName (p.onexNames s (Or.inr (Or.inr (Or.inr hs))))

/-! ## Contracts along the stack -/

/-- Every override field is `None`. -/
structure NoOverrides (p : ModelContractPatch) : Prop where
  name : p.name = none
  nodeVersion : p.nodeVersion = none
  description : p.description = none
  inputModel : p.inputModel = none
  outputModel : p.outputModel = none
  descriptor : p.descriptor = none
  handlers : p.handlersAdd = none ∧ p.handlersRemove = none
  dependencies : p.dependenciesAdd = none ∧ p.dependenciesRemove = none
  consumedEvents : p.consumedEventsAdd = none ∧ p.consumedEventsRemove = none
  capabilityInputs : p.capabilityInputsAdd = none ∧ p.capabilityInputsRemove = none
  capabilityOutputs : p.capabilityOutputsAdd = none ∧ p.capabilityOutputsRemove = none

/-- What a patch of a stack starts from: the capabilities of the profile, stripped texts. -/
structure OnTopOf (profile : ModelContractBase) (base : BaseFields) : Prop where
  capabilityInputs : (base.behavior.getD defaultBehavior).capabilityInputs
    = (profile.behavior.getD defaultBehavior).capabilityInputs
  capabilityOutputs : (base.behavior.getD defaultBehavior).capabilityOutputs
    = (profile.behavior.getD defaultBehavior).capabilityOutputs
  name : trim base.name = base.name

theorem onTopOf_fields (profile : ModelContractBase) : OnTopOf profile profile.fields :=
  ⟨rfl, rfl, profile.stripped.1⟩

variable {c : ModelHandlerContract}

/-- A step keeps the behaviour's capabilities, and its contract is stripped. -/
theorem OnTopOf.step {profile : ModelContractBase} {base : BaseFields} {p : ModelContractPatch}
    (h : OnTopOf profile base) (hstep : Step i base p c) :
    OnTopOf profile c.fields where
  capabilityInputs := by
    show c.descriptor.capabilityInputs = _
    rw [hstep.descriptor, (capabilities_mergeBehavior _ _).1, h.capabilityInputs]
  capabilityOutputs := by
    show c.descriptor.capabilityOutputs = _
    rw [hstep.descriptor, (capabilities_mergeBehavior _ _).2, h.capabilityOutputs]
  name := by
    show trim c.name = c.name
    rw [hstep.name, trim_trim]

/-- The last step of a stack. -/
theorem Merges.last {profile : ModelContractBase} {patches : List ModelContractPatch}
    (h : Merges i profile.fields patches c) :
    ∃ base before p, patches = before ++ [p] ∧ OnTopOf profile base ∧ Applies i base p c := by
  have hchain : ∃ base before p, patches = before ++ [p] ∧ OnTopOf profile base ∧
      Applies i base p c ∧ OnTopOf profile c.fields := by
    induction h with
    | @first patch c happlies =>
      have htop := onTopOf_fields profile
      exact ⟨profile.fields, [], patch, rfl, htop, happlies, htop.step happlies.2.1⟩
    | @next patches patch c c' _ happlies ih =>
      rcases ih with ⟨_, _, _, -, -, -, htop⟩
      exact ⟨c.fields, patches, patch, rfl, htop, happlies, htop.step happlies.2.1⟩
  rcases hchain with ⟨base, before, p, hpatches, htop, happlies, -⟩
  exact ⟨base, before, p, hpatches, htop, happlies⟩

/-! ## Accumulation -/

/-- The merge of the first `k` overlays returns the contract. -/
def StageReached (i : TextInterpreter) (profileFactory : ProfileFactory)
    (patch : ModelContractPatch) (nodeType : Option EnumNodeType)
    (overlays : List ModelOverlayStackEntry) (k : ℕ) (c : ModelHandlerContract) : Prop :=
  ∃ refs, mergeInternal i profileFactory patch nodeType (overlays.take k) = .ok (c, refs)

/-- Capability changes accumulate along the stack, and an overlay without overrides changes
nothing. -/
structure Accumulates (i : TextInterpreter) (profileFactory : ProfileFactory)
    (patch : ModelContractPatch) (nodeType : Option EnumNodeType)
    (overlays : List ModelOverlayStackEntry) : Prop where
  capabilityInputs : ∀ (k : ℕ) (hk : k < overlays.length) (c c' : ModelHandlerContract),
    StageReached i profileFactory patch nodeType overlays k c →
    StageReached i profileFactory patch nodeType overlays (k + 1) c' →
    ∀ name ∈ c.inputNames, name ∉ overlays[k].overlayPatch.capabilityInputsRemove.getD [] →
      name ∈ c'.inputNames
  capabilityOutputs : ∀ (k : ℕ) (hk : k < overlays.length) (c c' : ModelHandlerContract),
    StageReached i profileFactory patch nodeType overlays k c →
    StageReached i profileFactory patch nodeType overlays (k + 1) c' →
    ∀ name ∈ c.capabilityOutputs,
      name ∉ overlays[k].overlayPatch.capabilityOutputsRemove.getD [] →
      name ∈ c'.capabilityOutputs
  unchanged : ∀ (k : ℕ) (hk : k < overlays.length) (c : ModelHandlerContract),
    StageReached i profileFactory patch nodeType overlays k c →
    NoOverrides overlays[k].overlayPatch →
    StageReached i profileFactory patch nodeType overlays (k + 1) c

/-- What the patch before an overlay adds is there again after the overlay: it is named by the
overlay, or the profile has it. -/
structure AddsAgain (behavior : ModelHandlerBehavior) (p next : ModelContractPatch) : Prop where
  capabilityInputs : ∀ name ∈ p.capabilityInputsAdd.getD [],
    name ∈ next.capabilityInputsRemove.getD [] ∨ name ∈ next.capabilityInputsAdd.getD [] ∨
      name ∈ behavior.capabilityInputs.map trim
  capabilityOutputs : ∀ name ∈ p.outputsAdd.getD [],
    name ∈ next.capabilityOutputsRemove.getD [] ∨ name ∈ next.outputsAdd.getD [] ∨
      name ∈ behavior.capabilityOutputs.map trim

/-- The patch changes no capability of the profile, and the identifier made of its name is that
of the stripped name. -/
structure Quiet (i : TextInterpreter) (behavior : ModelHandlerBehavior) (p : ModelContractPatch) :
    Prop where
  adds : p.capabilityInputsAdd.getD [] = [] ∧ p.outputsAdd.getD [] = []
  removesInputs : ∀ name ∈ behavior.capabilityInputs, name ∉ p.capabilityInputsRemove.getD []
  removesOutputs : ∀ name ∈ behavior.capabilityOutputs, name ∉ p.capabilityOutputsRemove.getD []
  name : ∀ name ∈ p.name, trim (handlerIdOf i name) = trim (handlerIdOf i (trim name))

/-- The patch that comes before the overlay with the index `k`. -/
def patchBefore (patch : ModelContractPatch) (overlays : List ModelOverlayStackEntry) (k : ℕ) :
    ModelContractPatch :=
  ((overlays.take k).map (·.overlayPatch)).getLastD patch

variable {k : ℕ}

/-- A stack that has been reached ends in a step with the patch before the next overlay. -/
theorem StageReached.last {profile : ModelContractBase}
    (hprofile : profileOf i profileFactory patch nodeType = .ok profile)
    (h : StageReached i profileFactory patch nodeType overlays k c) :
    ∃ base, OnTopOf profile base ∧ Applies i base (patchBefore patch overlays k) c := by
  rcases h with ⟨refs, hmerge⟩
  rcases merges_of_mergeInternal hmerge with ⟨profile', hprofile', hmerges, -⟩
  rw [hprofile, Except.ok.injEq] at hprofile'
  subst hprofile'
  rcases hmerges.last with ⟨base, before, p, hpatches, htop, happlies⟩
  refine ⟨base, htop, ?_⟩
  have hlast := congrArg List.getLast? hpatches
  rw [List.getLast?_concat, List.getLast?_cons, Option.some.injEq] at hlast
  show Applies i base (((overlays.take k).map (·.overlayPatch)).getLastD patch) c
  rw [List.getLastD_eq_getLast?]
  rwa [hlast]

theorem stageReached_succ_iff (hk : k < overlays.length) {c' : ModelHandlerContract} :
    StageReached i profileFactory patch nodeType overlays (k + 1) c' ↔
      ∃ c, StageReached i profileFactory patch nodeType overlays k c ∧
        Applies i c.fields overlays[k].overlayPatch c' := by
  unfold StageReached
  rw [List.take_add_one, List.getElem?_eq_getElem hk, Option.toList_some]
  simp only [mergeInternal_concat_iff]
  constructor
  · rintro ⟨_, c, refs, hmerge, happlies, -⟩
    exact ⟨c, ⟨refs, hmerge⟩, happlies⟩
  · rintro ⟨c, ⟨refs, hmerge⟩, happlies⟩
    exact ⟨_, c, refs, hmerge, happlies, rfl⟩

theorem StageReached.unique {c c' : ModelHandlerContract}
    (h : StageReached i profileFactory patch nodeType overlays k c)
    (h' : StageReached i profileFactory patch nodeType overlays k c') : c = c' := by
  rcases h with ⟨refs, h⟩
  rcases h' with ⟨refs', h'⟩
  rw [h, Except.ok.injEq, Prod.mk.injEq] at h'
  exact h'.1

section
variable {profile : ModelContractBase} {base : BaseFields} {p next : ModelContractPatch}
  {c c' : ModelHandlerContract}

theorem addsAgain_iff (htop : OnTopOf profile base) (hstep : Step i base p c)
    (hnext : Step i c.fields next c') :
    ((∀ name ∈ c.inputNames, name ∉ next.capabilityInputsRemove.getD [] → name ∈ c'.inputNames) ∧
      ∀ name ∈ c.capabilityOutputs, name ∉ next.capabilityOutputsRemove.getD [] →
        name ∈ c'.capabilityOutputs) ↔
    AddsAgain (profile.behavior.getD defaultBehavior) p next := by
  have htop' := htop.step hstep
  rw [hstep.inputNames, hnext.inputNames, hstep.outputNames, hnext.outputNames,
    htop.capabilityInputs, htop.capabilityOutputs, htop'.capabilityInputs,
    htop'.capabilityOutputs]
  have hinputs := kept_iff (profile.behavior.getD defaultBehavior).capabilityInputs
    p.capabilityInputsRemove (clean_patch p).1 (clean_patch next).1 (clean_patch next).2.1
  have houtputs := kept_iff (profile.behavior.getD defaultBehavior).capabilityOutputs
    p.capabilityOutputsRemove (clean_patch p).2.2.1 (clean_patch next).2.2.1
    (clean_patch next).2.2.2
  rw [hinputs, houtputs]
  exact ⟨fun h => ⟨h.1, h.2⟩, fun h => ⟨h.capabilityInputs, h.capabilityOutputs⟩⟩

theorem patchChanges_of_noOverrides {base : BaseFields} (h : NoOverrides p) :
    patchChanges i base p = .ok [] := by
  unfold patchChanges
  simp only [h.name, h.nodeVersion, h.description, h.inputModel, h.outputModel, h.descriptor,
    h.capabilityInputs.1, h.capabilityInputs.2, h.capabilityOutputs.1, h.capabilityOutputs.2]
  rfl

theorem outputsAdd_disjoint (p : ModelContractPatch) :
    ∀ name ∈ p.outputsAdd.getD [], name ∉ p.capabilityOutputsRemove.getD [] := by
  intro name hname
  rw [outputsAdd_getD] at hname
  rcases List.mem_map.mp hname with ⟨capability, hcapability, rfl⟩
  exact p.noConflicts.2 capability hcapability

/-- A patch without overrides leaves the contract of a step as it is if the step was quiet. -/
theorem unchanged_of_quiet (htop : OnTopOf profile base) (happlies : Applies i base p c)
    (hnext : NoOverrides next) (hquiet : Quiet i (profile.behavior.getD defaultBehavior) p) :
    Applies i c.fields next c := by
  rcases happlies with ⟨-, hstep, hchecked⟩
  refine ⟨⟨[], patchChanges_of_noOverrides hnext⟩, ?_, hchecked⟩
  have hname : trim c.name = c.name := (htop.step hstep).name
  have htrim : trim ∘ trim = trim := funext trim_trim
  have hin : c.descriptor.capabilityInputs
      = (profile.behavior.getD defaultBehavior).capabilityInputs :=
    (htop.step hstep).capabilityInputs
  have hout : c.descriptor.capabilityOutputs
      = (profile.behavior.getD defaultBehavior).capabilityOutputs :=
    (htop.step hstep).capabilityOutputs
  -- nothing is added, and what is removed is not there
  have hinputs : applyListOperations (profile.behavior.getD defaultBehavior).capabilityInputs
      p.capabilityInputsAdd p.capabilityInputsRemove id
        = (profile.behavior.getD defaultBehavior).capabilityInputs := by
    rw [applyListOperations_eq, hquiet.adds.1, List.append_nil]
    exact List.filter_eq_self.mpr fun name h => by simpa using hquiet.removesInputs name h
  have houtputs : applyListOperations (profile.behavior.getD defaultBehavior).capabilityOutputs
      p.outputsAdd p.capabilityOutputsRemove id
        = (profile.behavior.getD defaultBehavior).capabilityOutputs := by
    rw [applyListOperations_eq, hquiet.adds.2, List.append_nil]
    exact List.filter_eq_self.mpr fun name h => by simpa using hquiet.removesOutputs name h
  have hbehavior : mergeBehavior (some c.descriptor) next.descriptor = c.descriptor := by
    rw [hnext.descriptor]
    rfl
  constructor
  · -- the identifier is made of the stripped name now
    rw [hnext.name, hstep.handlerId]
    show _ = trim (handlerIdOf i c.name)
    cases hset : p.name with
    | some name =>
      rw [hstep.name, hset]
      exact hquiet.name name (Option.mem_def.mpr hset)
    | none =>
      rw [hstep.name, hset, Option.getD_none, htop.name]
  · rw [hnext.name]
    exact hname.symm
  · rw [hnext.nodeVersion]
    rfl
  · rw [hnext.description]
    show c.description = c.description.map trim
    rw [hstep.description, Option.map_map, htrim]
  · exact hbehavior.symm
  · show mergeCapabilityInputs i (mergeBehavior (some c.descriptor) _).capabilityInputs _ _ = _
    rw [hbehavior, hnext.capabilityInputs.1, hnext.capabilityInputs.2,
      hin, ← hstep.capabilityInputs,
      (capabilities_mergeBehavior _ _).1, htop.capabilityInputs]
    unfold mergeCapabilityInputs
    rw [hinputs]
    rfl
  · show _ = (mergeCapabilityOutputs (mergeBehavior (some c.descriptor) _).capabilityOutputs
      _ _).map trim
    rw [hbehavior, hnext.capabilityOutputs.1, hnext.capabilityOutputs.2, hstep.outputNames,
      htop.capabilityOutputs, houtputs, hout]
    rfl
  · rw [hnext.inputModel]
    show c.inputModel = trim c.inputModel
    rw [hstep.inputModel, trim_trim]
  · rw [hnext.outputModel]
    show c.outputModel = trim c.outputModel
    rw [hstep.outputModel, trim_trim]
  · show c.tags = c.tags.map trim
    rw [hstep.tags, List.map_map, htrim]
  · rfl
  · rfl
  · rfl

theorem quiet_of_unchanged (htop : OnTopOf profile base) (hstep : Step i base p c)
    (hnext : NoOverrides next) (h : Step i c.fields next c) :
    Quiet i (profile.behavior.getD defaultBehavior) p := by
  have htop' := htop.step hstep
  have hadd : next.outputsAdd = none := by
    unfold ModelContractPatch.outputsAdd
    rw [hnext.capabilityOutputs.1]
    rfl
  have hnone : ∀ names : List String, applyListOperations names none none id = names :=
    fun _ => rfl
  have hinputNames := hstep.inputNames.symm.trans h.inputNames
  rw [hnext.capabilityInputs.1, hnext.capabilityInputs.2, hnone, htop'.capabilityInputs,
    htop.capabilityInputs] at hinputNames
  have houtputNames := hstep.outputNames.symm.trans h.outputNames
  rw [hadd, hnext.capabilityOutputs.2, hnone, htop'.capabilityOutputs,
    htop.capabilityOutputs] at houtputNames
  have hinputs := (unchanged_iff _ _ (clean_patch p).1 (clean_patch p).2.1 p.noConflicts.1).mp
    hinputNames
  have houtputs := (unchanged_iff _ _ (clean_patch p).2.2.1 (clean_patch p).2.2.2
    (outputsAdd_disjoint p)).mp houtputNames
  refine ⟨⟨hinputs.1, houtputs.1⟩, hinputs.2, houtputs.2, fun name hmem => ?_⟩
  have hset : p.name = some name := Option.mem_def.mp hmem
  have hname : c.name = trim name := by
    rw [hstep.name, hset, Option.getD_some]
  have hbefore : c.handlerId = trim (handlerIdOf i name) := by
    rw [hstep.handlerId, hset, Option.getD_some]
  have hafter : c.handlerId = trim (handlerIdOf i c.name) := by
    have hid := h.handlerId
    rwa [hnext.name, Option.getD_none] at hid
  rw [← hbefore, ← hname]
  exact hafter

end

/-- The stacks along which capabilities accumulate: wherever two stages follow one another, the
second overlay names what the first patch adds; and before an overlay without overrides stands
a patch that changes no capability. -/
structure AccumulationCondition (i : TextInterpreter) (profileFactory : ProfileFactory)
    (patch : ModelContractPatch) (nodeType : Option EnumNodeType)
    (overlays : List ModelOverlayStackEntry) : Prop where
  addsAgain : ∀ profile, profileOf i profileFactory patch nodeType = .ok profile →
    ∀ (k : ℕ) (hk : k < overlays.length),
      (∃ c, StageReached i profileFactory patch nodeType overlays (k + 1) c) →
      AddsAgain (profile.behavior.getD defaultBehavior) (patchBefore patch overlays k)
        overlays[k].overlayPatch
  quiet : ∀ profile, profileOf i profileFactory patch nodeType = .ok profile →
    ∀ (k : ℕ) (hk : k < overlays.length),
      (∃ c, StageReached i profileFactory patch nodeType overlays k c) →
      NoOverrides overlays[k].overlayPatch →
      Quiet i (profile.behavior.getD defaultBehavior) (patchBefore patch overlays k)

/-- A stage is on top of a profile. -/
theorem StageReached.profile (h : StageReached i profileFactory patch nodeType overlays k c) :
    ∃ profile, profileOf i profileFactory patch nodeType = .ok profile := by
  rcases h with ⟨refs, hmerge⟩
  rcases merges_of_mergeInternal hmerge with ⟨profile, hprofile, -⟩
  exact ⟨profile, hprofile⟩

/-- Capabilities accumulate along the stack exactly under the condition. -/
theorem accumulates_iff (i : TextInterpreter) (profileFactory : ProfileFactory)
    (patch : ModelContractPatch) (nodeType : Option EnumNodeType)
    (overlays : List ModelOverlayStackEntry) :
    Accumulates i profileFactory patch nodeType overlays ↔
      AccumulationCondition i profileFactory patch nodeType overlays := by
  constructor
  · intro h
    constructor
    · rintro profile hprofile k hk ⟨c', hreached'⟩
      rcases (stageReached_succ_iff hk).mp hreached' with ⟨c, hreached, happlies'⟩
      rcases hreached.last hprofile with ⟨base, htop, happlies⟩
      apply (addsAgain_iff htop happlies.2.1 happlies'.2.1).mp
      exact ⟨h.capabilityInputs k hk c c' hreached hreached',
        h.capabilityOutputs k hk c c' hreached hreached'⟩
    · rintro profile hprofile k hk ⟨c, hreached⟩ hnext
      rcases hreached.last hprofile with ⟨base, htop, happlies⟩
      rcases (stageReached_succ_iff hk).mp (h.unchanged k hk c hreached hnext) with
        ⟨c₀, hreached₀, happlies'⟩
      rw [← hreached.unique hreached₀] at happlies'
      exact quiet_of_unchanged htop happlies.2.1 hnext happlies'.2.1
  · intro h
    have hboth : ∀ (k : ℕ) (hk : k < overlays.length) (c c' : ModelHandlerContract),
        StageReached i profileFactory patch nodeType overlays k c →
        StageReached i profileFactory patch nodeType overlays (k + 1) c' →
        (∀ name ∈ c.inputNames,
          name ∉ overlays[k].overlayPatch.capabilityInputsRemove.getD [] →
          name ∈ c'.inputNames) ∧
        ∀ name ∈ c.capabilityOutputs,
          name ∉ overlays[k].overlayPatch.capabilityOutputsRemove.getD [] →
          name ∈ c'.capabilityOutputs := by
      intro k hk c c' hreached hreached'
      rcases hreached.profile with ⟨profile, hprofile⟩
      rcases hreached.last hprofile with ⟨base, htop, happlies⟩
      rcases (stageReached_succ_iff hk).mp hreached' with ⟨c₀, hreached₀, happlies'⟩
      rw [← hreached.unique hreached₀] at happlies'
      exact (addsAgain_iff htop happlies.2.1 happlies'.2.1).mpr
        (h.addsAgain profile hprofile k hk ⟨c', hreached'⟩)
    constructor
    · intro k hk c c' hreached hreached'
      exact (hboth k hk c c' hreached hreached').1
    · intro k hk c c' hreached hreached'
      exact (hboth k hk c c' hreached hreached').2
    · intro k hk c hreached hnext
      rcases hreached.profile with ⟨profile, hprofile⟩
      rcases hreached.last hprofile with ⟨base, htop, happlies⟩
      have hquiet := h.quiet profile hprofile k hk ⟨c, hreached⟩ hnext
      exact (stageReached_succ_iff hk).mpr
        ⟨c, hreached, unchanged_of_quiet htop happlies hnext hquiet⟩

/-! ## An overlay that loses a capability -/

/-- A patch on top of `compute_pure` that adds the capability input `http`. -/
def httpPatch : ModelContractPatch :=
  { extends_ := computePure
    capabilityInputsAdd := some ["http"]
    onexNames := by
      intro s hs
      have hhttp : s = "http" := by simpa using hs
      rw [hhttp]
      have hletters : "http".toList.all Char.isLower = true := by decide
      exact ⟨by decide, fun c hc => Or.inl (List.all_eq_true.mp hletters c hc)⟩ }

def emptyOverlay : ModelOverlayStackEntry :=
  { overlayId := "user-prefs", overlayPatch := { extends_ := computePure }, scope := .user }

/-- The base patch adds `http`, the overlay overrides nothing, and the capability is gone. -/
theorem httpPatch_not_accumulates :
    ¬ Accumulates asciiText computePureFactory httpPatch none [emptyOverlay] := by
  intro h
  have hbefore : (mergeInternal asciiText computePureFactory httpPatch none []).map
      (·.1.inputNames) = .ok ["http"] := by decide +kernel
  have hafter : (mergeInternal asciiText computePureFactory httpPatch none [emptyOverlay]).map
      (·.1.inputNames) = .ok [] := by decide +kernel
  rcases map_eq_ok hbefore with ⟨⟨c, refs⟩, hc, hnames⟩
  rcases map_eq_ok hafter with ⟨⟨c', refs'⟩, hc', hnames'⟩
  have hkept := h.capabilityInputs 0 (by decide) c c' ⟨refs, hc⟩ ⟨refs', hc'⟩ "http"
  simp only at hnames hnames'
  rw [hnames, hnames'] at hkept
  exact absurd (hkept (by decide) (by decide)) (by decide)

end OmnibaseCore.Merge
