import OmnibaseCore.Pipeline.RunnerTheorems
import OmnibaseCore.Pipeline.SortTheorems
import OmnibaseCore.Python.GroupBy
import OmnibaseCore.Python.Return

/-!
# What the builder returns or raises

The phases are built one after the other, in the order in which the first hook of each was
registered. The first phase with a fault decides what is raised: a hook of the wrong type before a
dependency that is not in the phase, and that before a cycle. Without a fault the plan has the hooks
of every phase in their `PriorityLeast` order, in whatever order they were registered.
-/

namespace OmnibaseCore.Pipeline

open FiniteGraph Relation

def phaseHooks (hooks : List ModelPipelineHook) (phase : PipelinePhase) :
    List ModelPipelineHook := hooks.filter fun hook => hook.phase = phase

/-- A hook is of another type than the contract, which the builder does not let pass. -/
def Mistyped (builder : BuilderExecutionPlan) (hooks : List ModelPipelineHook) : Prop :=
  builder.enforceHookTyping = true ∧ ∃ contract ∈ builder.contractCategory, ∃ hook ∈ hooks,
    ∃ category ∈ hook.handlerTypeCategory, category ≠ contract

def HasUnknown (hooks : List ModelPipelineHook) : Prop :=
  ∃ hook ∈ hooks, ∃ depName ∈ hook.dependencies,
    depName ∉ hooks.map ModelPipelineHook.hookName

def Faulty (builder : BuilderExecutionPlan) (hooks : List ModelPipelineHook) : Prop :=
  Mistyped builder hooks ∨ HasUnknown hooks ∨ ∃ name, OnCycle hooks name

def FirstFault (builder : BuilderExecutionPlan) (phase : PipelinePhase) : Prop :=
  let phases := builder.registry.hooks.map ModelPipelineHook.phase
  Faulty builder (phaseHooks builder.registry.hooks phase) ∧
    ∀ other, Faulty builder (phaseHooks builder.registry.hooks other) →
      phases.idxOf phase ≤ phases.idxOf other

/-! ## One phase -/

section
variable {builder : BuilderExecutionPlan} {hooks : List ModelPipelineHook}

theorem validateHookTyping_ok (h : ¬ Mistyped builder hooks) :
    ∃ warnings, validateHookTyping builder hooks = .ok warnings := by
  induction hooks with
  | nil => exact ⟨[], rfl⟩
  | cons hook hooks ih =>
    have hrest : ¬ Mistyped builder hooks := fun ⟨henforce, contract, hcontract, other, hother, hmis⟩ =>
      h ⟨henforce, contract, hcontract, other, List.mem_cons_of_mem _ hother, hmis⟩
    obtain ⟨warnings, hwarnings⟩ := ih hrest
    rw [validateHookTyping]
    split
    · rename_i contract category hcontract hcategory
      split_ifs with hsame henforce
      · exact ⟨warnings, hwarnings⟩
      · exact absurd ⟨henforce, contract, hcontract, hook, List.mem_cons_self, category, hcategory,
          hsame⟩ h
      · rw [hwarnings]
        exact ⟨_, rfl⟩
    · exact ⟨warnings, hwarnings⟩

theorem validateHookTyping_error (h : Mistyped builder hooks) :
    ∃ hookName hookCategory contractCategory,
      validateHookTyping builder hooks
        = .error (.hookTypeMismatch hookName hookCategory contractCategory) := by
  obtain ⟨henforce, contract, hcontract, other, hother, category, hcategory, hne⟩ := h
  induction hooks with
  | nil => exact nomatch hother
  | cons hook hooks ih =>
    have hlater : validateHookTyping builder hooks = validateHookTyping builder (hook :: hooks) ∨
        ∃ a b c, validateHookTyping builder (hook :: hooks) = .error (.hookTypeMismatch a b c) := by
      rw [validateHookTyping]
      split
      · split_ifs
        · exact Or.inl rfl
        · exact Or.inr ⟨_, _, _, rfl⟩
      · exact Or.inl rfl
    rcases List.mem_cons.mp hother with rfl | hother
    · refine ⟨other.hookName, category.value, contract.value, ?_⟩
      rw [validateHookTyping, hcontract, hcategory]
      dsimp only
      rw [if_neg hne, if_pos henforce]
    · rcases hlater with hlater | hraises
      · rw [← hlater]
        exact ih hother
      · exact hraises

theorem validateDependencies_ok_iff : validateDependencies hooks = .ok () ↔ ¬ HasUnknown hooks := by
  unfold validateDependencies HasUnknown
  rw [forM_eq_ok_iff]
  push Not
  refine forall₂_congr fun hook _ => ?_
  rw [forM_eq_ok_iff]
  refine forall₂_congr fun depName _ => ?_
  split_ifs with hmem
  · exact iff_of_true rfl hmem
  · exact iff_of_false (fun h => nomatch h) hmem

theorem validateDependencies_error (h : HasUnknown hooks) :
    ∃ hookName depName,
      validateDependencies hooks = .error (.unknownDependency hookName depName) := by
  cases hraises : validateDependencies hooks with
  | ok _ => exact absurd h (validateDependencies_ok_iff.mp hraises)
  | error e =>
    obtain ⟨hook, -, hhook⟩ := exists_of_forM_error hraises
    obtain ⟨depName, -, hdep⟩ := exists_of_forM_error hhook
    split_ifs at hdep
    exact ⟨hook.hookName, depName, congrArg Except.error (Except.error.inj hdep).symm⟩

theorem phaseHooks_of_not_hasUnknown (hnodup : (hooks.map ModelPipelineHook.hookName).Nodup)
    (h : ¬ HasUnknown hooks) : PhaseHooks hooks where
  nodup := hnodup
  closed hook hhook depName hdep := by_contra fun hnot => h ⟨hook, hhook, depName, hdep, hnot⟩

variable (phase : PipelinePhase)

theorem buildPhase_ok (hnodup : (hooks.map ModelPipelineHook.hookName).Nodup)
    (h : ¬ Faulty builder hooks) :
    ∃ warnings sortedHooks, topologicalSort hooks = .ok sortedHooks ∧
      buildPhase builder (phase, hooks) = .ok (warnings, phase,
        { phase := phase, hooks := sortedHooks, failFast := phase ∈ failFastPhases }) := by
  unfold Faulty at h
  rw [not_or, not_or] at h
  obtain ⟨htyped, hknown, hacyclic⟩ := h
  have hphase := phaseHooks_of_not_hasUnknown hnodup hknown
  obtain ⟨warnings, hwarnings⟩ := validateHookTyping_ok htyped
  cases hsorted : topologicalSort hooks with
  | error e =>
    obtain ⟨cycle, rfl⟩ := topologicalSort_error hsorted
    exact absurd (hphase.topologicalSort_error_iff.mp ⟨cycle, hsorted⟩) hacyclic
  | ok sortedHooks =>
    refine ⟨warnings, sortedHooks, rfl, ?_⟩
    unfold buildPhase
    rw [hwarnings, validateDependencies_ok_iff.mpr hknown, hsorted]
    rfl

theorem buildPhase_error (hnodup : (hooks.map ModelPipelineHook.hookName).Nodup)
    (h : Faulty builder hooks) :
    ∃ e, buildPhase builder (phase, hooks) = .error e ∧
      ((∃ hookName depName, e = .unknownDependency hookName depName) ↔
        ¬ Mistyped builder hooks ∧ HasUnknown hooks) ∧
      (∀ cycle, e = .dependencyCycle cycle ↔ ¬ Mistyped builder hooks ∧ ¬ HasUnknown hooks ∧
        topologicalSort hooks = .error (.dependencyCycle cycle)) := by
  unfold buildPhase
  by_cases htyped : Mistyped builder hooks
  · obtain ⟨a, b, c, hraises⟩ := validateHookTyping_error htyped
    refine ⟨.hookTypeMismatch a b c, by rw [hraises]; rfl, ?_, fun cycle => ?_⟩
    · exact iff_of_false (fun ⟨_, _, h⟩ => nomatch h) fun h => h.1 htyped
    · exact iff_of_false (fun h => nomatch h) fun h => h.1 htyped
  · obtain ⟨warnings, hwarnings⟩ := validateHookTyping_ok htyped
    by_cases hknown : HasUnknown hooks
    · obtain ⟨a, b, hraises⟩ := validateDependencies_error hknown
      refine ⟨.unknownDependency a b, by rw [hwarnings, hraises]; rfl, ?_, fun cycle => ?_⟩
      · exact iff_of_true ⟨a, b, rfl⟩ ⟨htyped, hknown⟩
      · exact iff_of_false (fun h => nomatch h) fun h => h.2.1 hknown
    · have hphase := phaseHooks_of_not_hasUnknown hnodup hknown
      have hcycle := (h.resolve_left htyped).resolve_left hknown
      obtain ⟨cycle, hraises⟩ := hphase.topologicalSort_error_iff.mpr hcycle
      refine ⟨.dependencyCycle cycle,
        by rw [hwarnings, validateDependencies_ok_iff.mpr hknown, hraises]; rfl, ?_, fun other => ?_⟩
      · exact iff_of_false (fun ⟨_, _, h⟩ => nomatch h) fun h => hknown h.2
      · rw [hraises, Except.error.injEq, and_iff_right htyped, and_iff_right hknown]

end

/-! ## All phases -/

section
variable {builder : BuilderExecutionPlan} {hooks : List ModelPipelineHook} {phase : PipelinePhase}

theorem addToPhase_eq {groups : List (PipelinePhase × List ModelPipelineHook)}
    (h : (groups.map Prod.fst).Nodup) (hook : ModelPipelineHook) :
    addToPhase groups hook = appendAt groups hook.phase hook := by
  induction groups with
  | nil => rfl
  | cons group groups ih =>
    rw [List.map_cons, List.nodup_cons] at h
    rw [appendAt]
    by_cases hgroup : group.1 = hook.phase
    · have hothers : groups.map (fun group =>
          if group.1 = hook.phase then (group.1, group.2 ++ [hook]) else group) = groups := by
        refine (List.map_congr_left fun other hother => if_neg fun hsame => h.1 ?_).trans
          (List.map_id groups)
        rw [hgroup, ← hsame]
        exact List.mem_map_of_mem hother
      unfold addToPhase
      rw [if_pos hgroup, if_pos (by rw [List.map_cons, hgroup]; exact List.mem_cons_self),
        List.map_cons, if_pos hgroup, hothers]
    · rw [if_neg hgroup, ← ih h.2]
      unfold addToPhase
      rw [List.map_cons]
      simp only [List.mem_cons, Ne.symm hgroup, false_or]
      split_ifs
      · rw [List.map_cons, if_neg hgroup]
      · rfl

theorem hooksByPhase_eq (hooks : List ModelPipelineHook) :
    hooksByPhase hooks = groupBy ModelPipelineHook.phase hooks := by
  induction hooks using List.reverseRecOn with
  | nil => rfl
  | append_singleton hooks hook ih =>
    unfold hooksByPhase at ih ⊢
    rw [List.foldl_append, List.foldl_cons, List.foldl_nil, ih, groupBy_append,
      addToPhase_eq (groups_groupBy _ _).nodup]

variable {group : PipelinePhase × List ModelPipelineHook}

theorem eq_phaseHooks_of_mem
    (h : group ∈ hooksByPhase hooks) : group = (group.1, phaseHooks hooks group.1) := by
  rw [hooksByPhase_eq] at h
  exact Prod.ext rfl ((groups_groupBy _ _).items group h)

theorem mem_hooksByPhase (h : phaseHooks hooks phase ≠ []) :
    (phase, phaseHooks hooks phase) ∈ hooksByPhase hooks := by
  obtain ⟨hook, hhook⟩ := List.exists_mem_of_ne_nil _ h
  obtain ⟨hmem, hphase⟩ := List.mem_filter.mp hhook
  have hkey : phase ∈ (hooksByPhase hooks).map Prod.fst := by
    rw [hooksByPhase_eq, (groups_groupBy _ _).mem_keys]
    exact ⟨hook, hmem, by simpa using hphase⟩
  obtain ⟨group, hgroup, hfst⟩ := List.mem_map.mp hkey
  have heq := eq_phaseHooks_of_mem hgroup
  rw [hfst] at heq
  exact heq ▸ hgroup

theorem nodup_phaseHooks (registry : RegistryHook) (phase : PipelinePhase) :
    ((phaseHooks registry.hooks phase).map ModelPipelineHook.hookName).Nodup :=
  registry.nodup.sublist (List.filter_sublist.map _)

theorem Faulty.ne_nil (h : Faulty builder hooks) : hooks ≠ [] := by
  rintro rfl
  rcases h with ⟨-, _, -, hook, hhook, -⟩ | ⟨hook, hhook, -⟩ | ⟨name, hcycle⟩
  · exact nomatch hhook
  · exact nomatch hhook
  · obtain ⟨_, ⟨hook, hhook, -⟩, -⟩ := TransGen.head'_iff.mp hcycle
    exact nomatch hhook

theorem FirstFault.unique {other : PipelinePhase} (h : FirstFault builder phase)
    (hother : FirstFault builder other) : phase = other := by
  have hmem : ∀ phase, Faulty builder (phaseHooks builder.registry.hooks phase) →
      phase ∈ builder.registry.hooks.map ModelPipelineHook.phase := by
    intro phase hfaulty
    obtain ⟨hook, hhook⟩ := List.exists_mem_of_ne_nil _ hfaulty.ne_nil
    obtain ⟨hmem, hphase⟩ := List.mem_filter.mp hhook
    rw [← of_decide_eq_true hphase]
    exact List.mem_map_of_mem hmem
  have hindex := le_antisymm (h.2 other hother.1) (hother.2 phase h.1)
  exact (List.idxOf_inj (hmem phase h.1)).mp hindex

theorem exists_firstFault (h : ∃ phase, Faulty builder (phaseHooks builder.registry.hooks phase)) :
    ∃ phase, FirstFault builder phase := by
  obtain ⟨phase, hphase⟩ := h
  obtain ⟨first, hfirst, hleast⟩ := (measure fun phase =>
    (builder.registry.hooks.map ModelPipelineHook.phase).idxOf phase).wf.has_min
      {phase | Faulty builder (phaseHooks builder.registry.hooks phase)} ⟨phase, hphase⟩
  exact ⟨first, hfirst, fun other hother => Nat.le_of_not_lt (hleast other hother)⟩

theorem FirstFault.build_eq (h : FirstFault builder phase) {e : BuildError}
    (he : buildPhase builder (phase, phaseHooks builder.registry.hooks phase) = .error e) :
    builder.build = .error e := by
  obtain ⟨front, back, hsplit⟩ := List.append_of_mem (mem_hooksByPhase h.1.ne_nil)
  have hfront : ∀ group ∈ front, ∃ built, buildPhase builder group = .ok built := by
    intro group hgroup
    have hmem : group ∈ hooksByPhase builder.registry.hooks :=
      hsplit ▸ List.mem_append_left _ hgroup
    rw [eq_phaseHooks_of_mem hmem]
    have hsound : ¬ Faulty builder (phaseHooks builder.registry.hooks group.1) := by
      intro hfaulty
      have hpairwise := pairwise_idxOf_groupBy ModelPipelineHook.phase builder.registry.hooks
      rw [← hooksByPhase_eq, hsplit, List.map_append, List.map_cons] at hpairwise
      have hbefore := (List.pairwise_append.mp hpairwise).2.2 group.1 (List.mem_map_of_mem hgroup)
        phase List.mem_cons_self
      exact absurd hbefore (Nat.not_lt.mpr (h.2 group.1 hfaulty))
    obtain ⟨warnings, sortedHooks, -, hbuilt⟩ :=
      buildPhase_ok group.1 (nodup_phaseHooks builder.registry group.1) hsound
    exact ⟨_, hbuilt⟩
  unfold BuilderExecutionPlan.build
  rw [hsplit, mapM_eq_error hfront he]
  rfl

theorem build_ok (h : ∀ phase, ¬ Faulty builder (phaseHooks builder.registry.hooks phase)) :
    ∃ plan warnings, builder.build = .ok (plan, warnings) := by
  unfold BuilderExecutionPlan.build
  cases hbuilt : (hooksByPhase builder.registry.hooks).mapM (buildPhase builder) with
  | ok built => exact ⟨_, _, rfl⟩
  | error e =>
    obtain ⟨group, hgroup, hraises⟩ := exists_of_mapM_error hbuilt
    rw [eq_phaseHooks_of_mem hgroup] at hraises
    obtain ⟨warnings, sortedHooks, -, hok⟩ :=
      buildPhase_ok group.1 (nodup_phaseHooks builder.registry group.1) (h group.1)
    rw [hok] at hraises
    exact nomatch hraises

theorem build_cases (builder : BuilderExecutionPlan) :
    ((∃ plan warnings, builder.build = .ok (plan, warnings)) ∧
      ∀ phase, ¬ Faulty builder (phaseHooks builder.registry.hooks phase)) ∨
    ∃ phase e, FirstFault builder phase ∧ builder.build = .error e ∧
      buildPhase builder (phase, phaseHooks builder.registry.hooks phase) = .error e := by
  by_cases hfault : ∃ phase, Faulty builder (phaseHooks builder.registry.hooks phase)
  · obtain ⟨phase, hfirst⟩ := exists_firstFault hfault
    obtain ⟨e, he, -⟩ :=
      buildPhase_error phase (nodup_phaseHooks builder.registry phase) hfirst.1
    exact Or.inr ⟨phase, e, hfirst, hfirst.build_eq he, he⟩
  · have hnone := not_exists.mp hfault
    exact Or.inl ⟨build_ok hnone, hnone⟩

theorem buildPhase_eq_ok
    {built : List ModelValidationWarning × PipelinePhase × ModelPhaseExecutionPlan}
    (h : buildPhase builder group = .ok built) :
    built.2.1 = group.1 ∧ topologicalSort group.2 = .ok built.2.2.hooks := by
  unfold buildPhase at h
  obtain ⟨warnings, -, h⟩ := bind_eq_ok h
  obtain ⟨_, -, h⟩ := bind_eq_ok h
  obtain ⟨sortedHooks, hsorted, h⟩ := bind_eq_ok h
  rw [← Except.ok.inj h]
  exact ⟨rfl, hsorted⟩

theorem getPhaseHooks_of_build {plan : ModelPipelineExecutionPlan}
    {warnings : List ModelValidationWarning} (h : builder.build = .ok (plan, warnings))
    (phase : PipelinePhase) :
    topologicalSort (phaseHooks builder.registry.hooks phase)
      = .ok (plan.getPhaseHooks phase) := by
  unfold BuilderExecutionPlan.build at h
  obtain ⟨built, hbuilt, h⟩ := bind_eq_ok h
  have hplan : plan.phases = built.map fun b => b.2 := by
    rw [← (Prod.mk.inj (Except.ok.inj h)).1]
  unfold ModelPipelineExecutionPlan.getPhaseHooks
  rw [hplan]
  cases hlookup : (built.map fun b => b.2).lookup phase with
  | none =>
    have hempty : phaseHooks builder.registry.hooks phase = [] := by
      by_contra hne
      obtain ⟨b, hb, hok⟩ := exists_mem_of_mapM_ok hbuilt _ (mem_hooksByPhase hne)
      have hnot := List.lookup_eq_none_iff.mp hlookup b.2 (List.mem_map_of_mem hb)
      simp [(buildPhase_eq_ok hok).1] at hnot
    rw [hempty]
    rfl
  | some phasePlan =>
    obtain ⟨front, back, hsplit, -⟩ := List.lookup_eq_some_iff.mp hlookup
    have hmem : (phase, phasePlan) ∈ built.map fun b => b.2 :=
      hsplit ▸ List.mem_append_right _ List.mem_cons_self
    obtain ⟨b, hb, heq⟩ := List.mem_map.mp hmem
    obtain ⟨group, hgroup, hok⟩ := exists_of_mapM_ok hbuilt b hb
    obtain ⟨hphase, hsorted⟩ := buildPhase_eq_ok hok
    rw [eq_phaseHooks_of_mem hgroup, heq] at hsorted
    rw [heq] at hphase
    dsimp only at hphase hsorted
    rw [hphase]
    exact hsorted

end

/-! ## The law -/

structure BuildLaw (builder : BuilderExecutionPlan) : Prop where
  unknownDependency :
    (∃ hookName depName, builder.build = .error (.unknownDependency hookName depName)) ↔
      ∃ phase, FirstFault builder phase ∧
        ¬ Mistyped builder (phaseHooks builder.registry.hooks phase) ∧
        HasUnknown (phaseHooks builder.registry.hooks phase)
  dependencyCycle : (∃ cycle, builder.build = .error (.dependencyCycle cycle)) ↔
      ∃ phase, FirstFault builder phase ∧
        ¬ Mistyped builder (phaseHooks builder.registry.hooks phase) ∧
        ¬ HasUnknown (phaseHooks builder.registry.hooks phase)
  returns : (∃ plan warnings, builder.build = .ok (plan, warnings)) ↔
      ∀ phase, ¬ Faulty builder (phaseHooks builder.registry.hooks phase)
  sorted : ∀ plan warnings, builder.build = .ok (plan, warnings) → ∀ phase,
    (plan.getPhaseHooks phase).Perm (phaseHooks builder.registry.hooks phase) ∧
      PriorityLeast (phaseHooks builder.registry.hooks phase) (plan.getPhaseHooks phase)
  order : ∀ plan warnings, builder.build = .ok (plan, warnings) → ∀ registry : RegistryHook,
    registry.hooks.Perm builder.registry.hooks →
      ∃ plan' warnings', { builder with registry := registry }.build = .ok (plan', warnings') ∧
        plan'.contractCategory = plan.contractCategory ∧
        ∀ phase, plan'.getPhaseHooks phase = plan.getPhaseHooks phase ∧
          plan'.isPhaseFailFast phase = plan.isPhaseFailFast phase

section
variable {builder : BuilderExecutionPlan}

theorem Faulty.perm {registry : RegistryHook} {hooks hooks' : List ModelPipelineHook}
    (hperm : hooks.Perm hooks') (h : Faulty { builder with registry := registry } hooks) :
    Faulty builder hooks' := by
  have hnames := hperm.map ModelPipelineHook.hookName
  rcases h with ⟨henforce, contract, hcontract, hook, hhook, hmis⟩ |
    ⟨hook, hhook, depName, hdep, hnot⟩ | ⟨name, hcycle⟩
  · exact Or.inl ⟨henforce, contract, hcontract, hook, hperm.mem_iff.mp hhook, hmis⟩
  · exact Or.inr (Or.inl ⟨hook, hperm.mem_iff.mp hhook, depName, hdep,
      fun h => hnot (hnames.mem_iff.mpr h)⟩)
  · refine Or.inr (Or.inr ⟨name, ?_⟩)
    exact TransGen.mono (fun a b h => (dependsOn_perm hperm).mp h) name name hcycle

/-- A plan does not depend on the order in which hooks are registered. -/
theorem build_perm {registry : RegistryHook} (hperm : registry.hooks.Perm builder.registry.hooks)
    {plan : ModelPipelineExecutionPlan} {warnings : List ModelValidationWarning}
    (h : builder.build = .ok (plan, warnings)) :
    ∃ plan' warnings', { builder with registry := registry }.build = .ok (plan', warnings') ∧
      plan'.contractCategory = plan.contractCategory ∧
      ∀ phase, plan'.getPhaseHooks phase = plan.getPhaseHooks phase ∧
        plan'.isPhaseFailFast phase = plan.isPhaseFailFast phase := by
  have hnone : ∀ phase, ¬ Faulty builder (phaseHooks builder.registry.hooks phase) := by
    rcases build_cases builder with ⟨-, hnone⟩ | ⟨phase, e, -, herror, -⟩
    · exact hnone
    · rw [h] at herror
      exact nomatch herror
  have hphases : ∀ phase, (phaseHooks registry.hooks phase).Perm
      (phaseHooks builder.registry.hooks phase) := fun phase => hperm.filter _
  obtain ⟨plan', warnings', h'⟩ := @build_ok { builder with registry := registry }
    fun phase hfaulty => hnone phase (hfaulty.perm (hphases phase))
  have hcategory : ∀ (builder : BuilderExecutionPlan) (plan : ModelPipelineExecutionPlan)
      (warnings : List ModelValidationWarning), builder.build = .ok (plan, warnings) →
        plan.contractCategory = builder.contractCategory.map EnumHandlerTypeCategory.value := by
    intro builder plan warnings h
    unfold BuilderExecutionPlan.build at h
    obtain ⟨built, -, h⟩ := bind_eq_ok h
    rw [← (Prod.mk.inj (Except.ok.inj h)).1]
  refine ⟨plan', warnings', h', ?_, fun phase => ⟨?_, ?_⟩⟩
  · rw [hcategory _ _ _ h, hcategory _ _ _ h']
  · have hknown : ¬ HasUnknown (phaseHooks builder.registry.hooks phase) := fun hunknown =>
      hnone phase (Or.inr (Or.inl hunknown))
    have hsame := (phaseHooks_of_not_hasUnknown (nodup_phaseHooks builder.registry phase)
      hknown).topologicalSort_perm (hphases phase).symm (getPhaseHooks_of_build h phase)
    rw [getPhaseHooks_of_build h' phase] at hsame
    exact Except.ok.inj hsame
  · rw [(builtPlan_of_build h).isPhaseFailFast_eq, (builtPlan_of_build h').isPhaseFailFast_eq]

theorem build_dependencyCycle_iff {cycle : List String} :
    builder.build = .error (.dependencyCycle cycle) ↔
      ∃ phase, FirstFault builder phase ∧
        ¬ Mistyped builder (phaseHooks builder.registry.hooks phase) ∧
        ¬ HasUnknown (phaseHooks builder.registry.hooks phase) ∧
        topologicalSort (phaseHooks builder.registry.hooks phase)
          = .error (.dependencyCycle cycle) := by
  rcases build_cases builder with ⟨⟨plan, warnings, hok⟩, hnone⟩ | ⟨phase, e, hfirst, hraises, he⟩
  · rw [hok]
    exact iff_of_false (fun h => nomatch h) fun ⟨phase, hfirst, _⟩ => hnone phase hfirst.1
  · obtain ⟨e', he', -, hcycle⟩ :=
      buildPhase_error phase (nodup_phaseHooks builder.registry phase) hfirst.1
    rw [he, Except.error.injEq] at he'
    rw [hraises, Except.error.injEq, he', hcycle]
    constructor
    · intro h
      exact ⟨phase, hfirst, h⟩
    · rintro ⟨other, hother, h⟩
      rw [hfirst.unique hother]
      exact h

theorem build_unknownDependency_iff :
    (∃ hookName depName, builder.build = .error (.unknownDependency hookName depName)) ↔
      ∃ phase, FirstFault builder phase ∧
        ¬ Mistyped builder (phaseHooks builder.registry.hooks phase) ∧
        HasUnknown (phaseHooks builder.registry.hooks phase) := by
  rcases build_cases builder with ⟨⟨plan, warnings, hok⟩, hnone⟩ | ⟨phase, e, hfirst, hraises, he⟩
  · rw [hok]
    exact iff_of_false (fun ⟨_, _, h⟩ => nomatch h) fun ⟨phase, hfirst, _⟩ => hnone phase hfirst.1
  · obtain ⟨e', he', hunknown, -⟩ :=
      buildPhase_error phase (nodup_phaseHooks builder.registry phase) hfirst.1
    rw [he, Except.error.injEq] at he'
    simp only [hraises, Except.error.injEq, he']
    rw [hunknown]
    constructor
    · intro h
      exact ⟨phase, hfirst, h⟩
    · rintro ⟨other, hother, h⟩
      rw [hfirst.unique hother]
      exact h

/-- The first phase with a fault decides what is raised; without a fault the plan is the
priority-least order of every phase. -/
theorem build_law (builder : BuilderExecutionPlan) : BuildLaw builder where
  unknownDependency := build_unknownDependency_iff
  dependencyCycle := by
    simp only [build_dependencyCycle_iff]
    constructor
    · rintro ⟨cycle, phase, hfirst, htyped, hknown, -⟩
      exact ⟨phase, hfirst, htyped, hknown⟩
    · rintro ⟨phase, hfirst, htyped, hknown⟩
      have hcycle := (hfirst.1.resolve_left htyped).resolve_left hknown
      obtain ⟨cycle, hraises⟩ := (phaseHooks_of_not_hasUnknown
        (nodup_phaseHooks builder.registry phase) hknown).topologicalSort_error_iff.mpr hcycle
      exact ⟨cycle, phase, hfirst, htyped, hknown, hraises⟩
  returns := by
    constructor
    · rintro ⟨plan, warnings, hok⟩
      rcases build_cases builder with ⟨-, hnone⟩ | ⟨phase, e, -, hraises, -⟩
      · exact hnone
      · rw [hok] at hraises
        exact nomatch hraises
    · exact build_ok
  sorted plan warnings h phase := by
    have hsorted := getPhaseHooks_of_build h phase
    have hknown : ¬ HasUnknown (phaseHooks builder.registry.hooks phase) := by
      intro hunknown
      rcases build_cases builder with ⟨-, hnone⟩ | ⟨_, e, -, hraises, -⟩
      · exact hnone phase (Or.inr (Or.inl hunknown))
      · rw [h] at hraises
        exact nomatch hraises
    have hphase := phaseHooks_of_not_hasUnknown (nodup_phaseHooks builder.registry phase) hknown
    exact ⟨hphase.topologicalSort_permutes hsorted, hphase.priorityLeast hsorted⟩
  order _ _ h _ hperm := build_perm hperm h

end

def BuilderExecutionPlan.raised (builder : BuilderExecutionPlan) : Option BuildError :=
  match builder.build with
  | .error e => some e
  | .ok _ => none

theorem build_eq_error {builder : BuilderExecutionPlan} {e : BuildError}
    (h : builder.raised = some e) : builder.build = .error e := by
  unfold BuilderExecutionPlan.raised at h
  split at h
  · rename_i hbuild
    rw [hbuild, Option.some.inj h]
  · exact nomatch h

/-- A hook that depends on itself, and one of a later phase that depends on nothing there is. -/
def twoFaults : BuilderExecutionPlan :=
  { registry :=
      { hooks := [
          { hookName := "a", phase := .before, dependencies := ["a"], callableRef := "m.a" },
          { hookName := "b", phase := .execute, dependencies := ["c"], callableRef := "m.b" }] } }

/-- The cycle is raised, although there is an unknown dependency. -/
theorem twoFaults_raises_cycle :
    HasUnknown (phaseHooks twoFaults.registry.hooks .execute) ∧
      ¬ ∃ hookName depName, twoFaults.build = .error (.unknownDependency hookName depName) := by
  refine ⟨⟨_, List.mem_cons_self, "c", List.mem_cons_self, by decide⟩, ?_⟩
  rintro ⟨hookName, depName, hraises⟩
  rw [build_eq_error (e := .dependencyCycle ["a"]) (by decide +kernel)] at hraises
  exact nomatch hraises

/-! ## Reported cycles -/

def NoTails (hooks : List ModelPipelineHook) : Prop :=
  ∀ name depName, DependsOn hooks name depName → OnCycle hooks depName → OnCycle hooks name

section
variable {builder : BuilderExecutionPlan} {hooks : List ModelPipelineHook} {cycle : List String}

theorem leadsToCycle_iff {name : String} : LeadsToCycle (dependenciesOf hooks) name ↔
    ∃ other, ReflTransGen (DependsOn hooks) name other ∧ OnCycle hooks other := by
  have hrel : Edge (dependenciesOf hooks) = DependsOn hooks := by
    funext a b
    exact propext edge_dependenciesOf
  unfold LeadsToCycle OnCycle
  rw [hrel]

theorem PhaseHooks.onCycle_iff (h : PhaseHooks hooks)
    (herror : topologicalSort hooks = .error (.dependencyCycle cycle)) :
    (∀ name ∈ cycle, OnCycle hooks name) ↔ NoTails hooks := by
  constructor
  · intro hcycle name depName hdep hon
    apply hcycle
    rw [h.mem_cycle_iff herror, leadsToCycle_iff]
    refine ⟨?_, depName, ReflTransGen.single hdep, hon⟩
    obtain ⟨hook, hhook, rfl, -⟩ := hdep
    exact List.mem_map_of_mem hhook
  · intro htails name hname
    obtain ⟨other, hpath, hon⟩ := leadsToCycle_iff.mp ((h.mem_cycle_iff herror).mp hname).2
    clear hname
    induction hpath using ReflTransGen.head_induction_on with
    | refl => exact hon
    | head hdep _ ih => exact htails _ _ hdep ih

/-- All names that are reported are on cycles just if nothing depends on a cycle from outside. -/
theorem reportedCycles_iff (h : builder.build = .error (.dependencyCycle cycle)) :
    ∃ phase, FirstFault builder phase ∧
      (∀ name ∈ cycle, name ∈ (phaseHooks builder.registry.hooks phase).map
        ModelPipelineHook.hookName) ∧
      ((∀ name ∈ cycle, OnCycle (phaseHooks builder.registry.hooks phase) name) ↔
        NoTails (phaseHooks builder.registry.hooks phase)) := by
  obtain ⟨phase, hfirst, -, hknown, herror⟩ := build_dependencyCycle_iff.mp h
  have hphase := phaseHooks_of_not_hasUnknown (nodup_phaseHooks builder.registry phase) hknown
  exact ⟨phase, hfirst, fun name hname => ((hphase.mem_cycle_iff herror).mp hname).1,
    hphase.onCycle_iff herror⟩

end

/-- Two hooks that depend on each other. -/
def ring : BuilderExecutionPlan :=
  { registry :=
      { hooks := [
          { hookName := "a", phase := .before, dependencies := ["b"], callableRef := "m.a" },
          { hookName := "b", phase := .before, dependencies := ["a"], callableRef := "m.b" }] } }

theorem reportedCycles_iff_ring :
    ∃ phase, FirstFault ring phase ∧
      (∀ name ∈ ["a", "b"], name ∈ (phaseHooks ring.registry.hooks phase).map
        ModelPipelineHook.hookName) ∧
      ((∀ name ∈ ["a", "b"], OnCycle (phaseHooks ring.registry.hooks phase) name) ↔
        NoTails (phaseHooks ring.registry.hooks phase)) := by
  exact reportedCycles_iff (build_eq_error (by decide +kernel))

def ringWithTail : BuilderExecutionPlan :=
  { registry :=
      { hooks := [
          { hookName := "a", phase := .before, dependencies := ["b"], callableRef := "m.a" },
          { hookName := "b", phase := .before, dependencies := ["a"], callableRef := "m.b" },
          { hookName := "c", phase := .before, dependencies := ["a"], callableRef := "m.c" }] } }

theorem ringWithTail_reports_tail :
    (∃ cycle, ringWithTail.build = .error (.dependencyCycle cycle) ∧ "c" ∈ cycle) ∧
      ∀ phase, ¬ OnCycle (phaseHooks ringWithTail.registry.hooks phase) "c" := by
  constructor
  · exact ⟨["a", "b", "c"], build_eq_error (by decide +kernel), by decide⟩
  · intro phase hcycle
    obtain ⟨name, -, hook, hhook, -, hdep⟩ := TransGen.tail'_iff.mp hcycle
    have hnone : ∀ hook ∈ ringWithTail.registry.hooks, "c" ∉ hook.dependencies := by decide
    exact hnone hook (List.mem_filter.mp hhook).1 hdep

end OmnibaseCore.Pipeline
