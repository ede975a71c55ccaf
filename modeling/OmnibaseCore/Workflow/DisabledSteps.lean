import OmnibaseCore.Workflow.Graph

/-!
# Validation of disabled steps

`validate_dag_with_disabled_steps` checks the ids of all steps, the dependencies of the enabled
steps, the graph of the enabled steps and the graph of all steps. It returns before the last three
checks if no step is enabled, so that a cycle of disabled steps is seen only beside an enabled
step (`dagValidationExact_iff`).
-/

namespace OmnibaseCore.Workflow

/-! ## Ids -/

/-- `id_counts.items()`. -/
def idCounts (steps : List ModelWorkflowStep) : List (UUID × ℕ) :=
  let ids := steps.map ModelWorkflowStep.stepId
  ids.eraseDups.map fun id => (id, ids.count id)

def validateUniqueStepIds (steps : List ModelWorkflowStep) : List String :=
  if steps = [] then
    []
  else
    let items := (idCounts steps).insertionSort fun x y => x.1.str ≤ y.1.str
    items.filterMap fun (stepId, count) =>
      if count > 1 then
        some ("Duplicate step_id found " ++ toString count ++ " times: " ++ stepId.str)
      else
        none

/-! ## Dependencies -/

structure ModelDependencyValidationResult where
  isValid : Bool
  missingDependencies : List UUID
  errorMessage : String

def stepMissing (validStepIds : Finset UUID) (step : ModelWorkflowStep) : List UUID :=
  step.dependsOn.filter (· ∉ validStepIds)

/-- `details`. A later step of the same name replaces the dependencies of an earlier one. -/
def missingDetails (validStepIds : Finset UUID) (steps : List ModelWorkflowStep) : List String :=
  let incomplete := steps.filter (stepMissing validStepIds · ≠ [])
  let stepToMissingDeps : String → List String := incomplete.foldl (fun deps step =>
    Function.update deps step.stepName ((stepMissing validStepIds step).map UUID.str)) fun _ => []
  (incomplete.map ModelWorkflowStep.stepName).eraseDups.map fun name =>
    "'" ++ name ++ "' -> [" ++ ", ".intercalate (stepToMissingDeps name) ++ "]"

/-- `WorkflowValidator.validate_dependencies`. -/
def validateDependencies (steps : List ModelWorkflowStep) : ModelDependencyValidationResult :=
  if steps = [] then
    { isValid := true, missingDependencies := [], errorMessage := "" }
  else
    let validStepIds := stepIds steps
    let missingDeps := (steps.flatMap (stepMissing validStepIds)).eraseDups
    if missingDeps ≠ [] then
      { isValid := false
        missingDependencies := missingDeps
        errorMessage := "Steps with missing dependencies: " ++
          "; ".intercalate (missingDetails validStepIds steps) }
    else
      { isValid := true, missingDependencies := [], errorMessage := "" }

/-- The messages about dependencies of enabled steps on disabled ones, a set of texts. -/
def disabledDepErrors (enabledSteps : List ModelWorkflowStep) (disabledStepIds : Finset UUID) :
    Finset String :=
  (enabledSteps.flatMap fun step =>
    (step.dependsOn.filter (· ∈ disabledStepIds)).map fun depId =>
      "Step '" ++ step.stepName ++ "' depends on disabled step: " ++ depId.str).toFinset

/-- `step_copy`, with the defaults in the fields that it does not take from the step. Its
correlation id is drawn anew, and nothing reads it. -/
def stepCopy (disabledStepIds : Finset UUID) (step : ModelWorkflowStep) : ModelWorkflowStep :=
  { ModelWorkflowStep.default step.correlationId step.stepId step.stepName step.stepType with
    dependsOn := step.dependsOn.filter (· ∉ disabledStepIds)
    enabled := step.enabled }

/-! ## The whole validation -/

/-- The checks of `validate_dag_with_disabled_steps` after its early return. -/
def validateEnabledSteps (σ : SetOrder UUID) (steps enabledSteps : List ModelWorkflowStep)
    (errors : List String) : Except PyException (List String) :=
  let disabledStepIds := stepIds steps \ stepIds enabledSteps
  let errors := errors ++ (disabledDepErrors enabledSteps disabledStepIds).sort (· ≤ ·)
  let depResult := validateDependencies (enabledSteps.map (stepCopy disabledStepIds))
  let errors := if !depResult.isValid then errors ++ [depResult.errorMessage] else errors
  match detectCycles σ enabledSteps with
  | .error e => .error e
  | .ok cycleResult =>
    let errors :=
      if cycleResult.hasCycle then errors ++ [cycleResult.cycleDescription] else errors
    match detectCycles σ steps with
    | .error e => .error e
    | .ok fullGraphCycleResult =>
      .ok (if fullGraphCycleResult.hasCycle && !cycleResult.hasCycle then
        errors ++ ["Hidden cycle involving disabled steps: " ++
          fullGraphCycleResult.cycleDescription]
      else errors)

def validateDagWithDisabledSteps (σ : SetOrder UUID) (steps : List ModelWorkflowStep) :
    Except PyException (List String) :=
  if steps = [] then
    .ok []
  else
    let errors := validateUniqueStepIds steps
    let enabledSteps := steps.filter ModelWorkflowStep.enabled
    if enabledSteps = [] then
      .ok errors
    else
      validateEnabledSteps σ steps enabledSteps errors

structure ValidDag (steps : List ModelWorkflowStep) : Prop where
  nodup : (steps.map ModelWorkflowStep.stepId).Nodup
  enabled_dependsOn : ∀ step ∈ steps, step.enabled = true → ∀ depId ∈ step.dependsOn,
    ∃ dependency ∈ steps, dependency.enabled = true ∧ dependency.stepId = depId
  acyclic : ¬ HasDirectedCycle steps

def DagValidationExact (σ : SetOrder UUID) (steps : List ModelWorkflowStep) : Prop :=
  validateDagWithDisabledSteps σ steps = .ok [] ↔ ValidDag steps

section
variable {steps : List ModelWorkflowStep}

/-! ## The single checks -/

theorem validateUniqueStepIds_eq_nil_iff :
    validateUniqueStepIds steps = [] ↔ (steps.map ModelWorkflowStep.stepId).Nodup := by
  unfold validateUniqueStepIds
  by_cases hsteps : steps = []
  · subst hsteps
    simp
  rw [if_neg hsteps, List.filterMap_eq_nil_iff, List.nodup_iff_count_le_one]
  simp only [List.mem_insertionSort, idCounts, List.mem_map, List.mem_eraseDups]
  constructor
  · intro h id
    by_cases hid : id ∈ steps.map ModelWorkflowStep.stepId
    · have hcount := h _ ⟨id, List.mem_map.mp hid, rfl⟩
      by_contra hlt
      rw [if_pos (by omega)] at hcount
      cases hcount
    · rw [List.count_eq_zero.mpr hid]
      omega
  · rintro h _ ⟨id, _, rfl⟩
    have hle := h id
    apply if_neg
    omega

theorem validateDependencies_isValid_iff :
    (validateDependencies steps).isValid = true ↔
      ∀ step ∈ steps, ∀ depId ∈ step.dependsOn, depId ∈ stepIds steps := by
  unfold validateDependencies
  by_cases hsteps : steps = []
  · subst hsteps
    simp
  have hmissing : (steps.flatMap (stepMissing (stepIds steps))).eraseDups = [] ↔
      ∀ step ∈ steps, ∀ depId ∈ step.dependsOn, depId ∈ stepIds steps := by
    rw [List.eq_nil_iff_forall_not_mem]
    simp only [List.mem_eraseDups, List.mem_flatMap, stepMissing, List.mem_filter,
      decide_eq_true_eq, not_exists, not_and, not_not]
    exact ⟨fun h step hstep depId hdep => h depId step hstep hdep,
      fun h depId step hstep hdep => h step hstep depId hdep⟩
  rw [if_neg hsteps, ← hmissing]
  dsimp only
  split_ifs with hnil
  · simpa using hnil
  · simpa using hnil

variable {enabledSteps : List ModelWorkflowStep}

theorem sort_disabledDepErrors_eq_nil_iff {disabledStepIds : Finset UUID} :
    (disabledDepErrors enabledSteps disabledStepIds).sort (· ≤ ·) = [] ↔
      ∀ step ∈ enabledSteps, ∀ depId ∈ step.dependsOn, depId ∉ disabledStepIds := by
  rw [List.eq_nil_iff_forall_not_mem]
  simp only [Finset.mem_sort, disabledDepErrors, List.mem_toFinset, List.mem_flatMap, List.mem_map,
    List.mem_filter, decide_eq_true_eq, not_exists, not_and]
  constructor
  · intro h step hstep depId hdep hdisabled
    exact h _ step hstep depId ⟨hdep, hdisabled⟩ rfl
  · intro h text step hstep depId hdep _
    exact h step hstep depId hdep.1 hdep.2

theorem stepIds_map_stepCopy (enabledSteps : List ModelWorkflowStep)
    (disabledStepIds : Finset UUID) :
    stepIds (enabledSteps.map (stepCopy disabledStepIds)) = stepIds enabledSteps := by
  unfold stepIds
  rw [List.map_map]
  rfl

variable (steps) in
theorem dependencyChecks_iff : ((∀ step ∈ enabledSteps, ∀ depId ∈ step.dependsOn,
        depId ∉ stepIds steps \ stepIds enabledSteps) ∧
      (validateDependencies (enabledSteps.map
        (stepCopy (stepIds steps \ stepIds enabledSteps)))).isValid = true) ↔
    ∀ step ∈ enabledSteps, ∀ depId ∈ step.dependsOn, depId ∈ stepIds enabledSteps := by
  rw [validateDependencies_isValid_iff, stepIds_map_stepCopy]
  simp only [List.forall_mem_map, stepCopy, List.mem_filter, decide_eq_true_eq]
  constructor
  · intro h step hstep depId hdep
    exact h.2 step hstep depId ⟨hdep, h.1 step hstep depId hdep⟩
  · intro h
    refine ⟨fun step hstep depId hdep hdisabled => ?_, fun step hstep depId hdep => ?_⟩
    · exact (Finset.mem_sdiff.mp hdisabled).2 (h step hstep depId hdep)
    · exact h step hstep depId hdep.1

/-! ## The two graphs -/

theorem HasDirectedCycle.mono (h : HasDirectedCycle enabledSteps) (hsub : enabledSteps ⊆ steps) :
    HasDirectedCycle steps := by
  rcases h with ⟨id, hcycle⟩
  have hdepends : ∀ a b, DependsOn enabledSteps a b → DependsOn steps a b := by
    intro a b hab
    rcases hab with ⟨hb, step, hstep, ha, hdep⟩
    rcases mem_stepIds.mp hb with ⟨dependency, hdependency, heq⟩
    exact ⟨mem_stepIds.mpr ⟨dependency, hsub hdependency, heq⟩, step, hsub hstep, ha, hdep⟩
  exact ⟨id, Relation.TransGen.mono hdepends id id hcycle⟩

theorem stepIds_mono (hsub : enabledSteps ⊆ steps) : stepIds enabledSteps ⊆ stepIds steps := by
  intro id hid
  rcases mem_stepIds.mp hid with ⟨step, hstep, heq⟩
  exact mem_stepIds.mpr ⟨step, hsub hstep, heq⟩

variable (σ : SetOrder UUID)

theorem validateEnabledSteps_eq_nil_iff (hsub : enabledSteps ⊆ steps)
    (hcard : (stepIds steps).card ≤ maxDfsIterations) {errors : List String} :
    validateEnabledSteps σ steps enabledSteps errors = .ok [] ↔ errors = [] ∧
      (∀ step ∈ enabledSteps, ∀ depId ∈ step.dependsOn, depId ∈ stepIds enabledSteps) ∧
      ¬ HasDirectedCycle steps := by
  have hle := Finset.card_le_card (stepIds_mono hsub)
  rcases detectCycles_spec σ enabledSteps (hle.trans hcard) with ⟨enabled, henabled, hcycle, _⟩
  rcases detectCycles_spec σ steps hcard with ⟨full, hfull, hfullCycle, _⟩
  have hmono : enabled.hasCycle = true → full.hasCycle = true := by
    rw [hcycle, hfullCycle]
    exact fun h => h.mono hsub
  rw [← dependencyChecks_iff steps, ← sort_disabledDepErrors_eq_nil_iff, ← hfullCycle]
  unfold validateEnabledSteps
  rw [henabled, hfull]
  dsimp only
  rw [Except.ok.injEq]
  cases hfound : enabled.hasCycle with
  | true =>
    rw [hmono hfound]
    simp
  | false =>
    cases full.hasCycle with
    | true => simp
    | false =>
      cases (validateDependencies (enabledSteps.map
          (stepCopy (stepIds steps \ stepIds enabledSteps)))).isValid with
      | true => simp
      | false => simp

/-! ## Exactness -/

theorem validDag_iff : ValidDag steps ↔ (steps.map ModelWorkflowStep.stepId).Nodup ∧
    (∀ step ∈ steps.filter ModelWorkflowStep.enabled, ∀ depId ∈ step.dependsOn,
      depId ∈ stepIds (steps.filter ModelWorkflowStep.enabled)) ∧ ¬ HasDirectedCycle steps := by
  simp only [mem_stepIds, List.mem_filter, and_assoc, and_imp]
  exact ⟨fun h => ⟨h.nodup, h.enabled_dependsOn, h.acyclic⟩, fun h => ⟨h.1, h.2.1, h.2.2⟩⟩

theorem dagValidationExact_of_enabled (hcard : (stepIds steps).card ≤ maxDfsIterations)
    (h : steps.filter ModelWorkflowStep.enabled ≠ []) : DagValidationExact σ steps := by
  have hsteps : steps ≠ [] := by
    intro hnil
    rw [hnil] at h
    exact h rfl
  unfold DagValidationExact validateDagWithDisabledSteps
  rw [if_neg hsteps, validDag_iff]
  dsimp only
  rw [if_neg h, validateEnabledSteps_eq_nil_iff σ (List.filter_subset_self _) hcard,
    validateUniqueStepIds_eq_nil_iff]

theorem validateDagWithDisabledSteps_of_disabled (h : steps.filter ModelWorkflowStep.enabled = []) :
    validateDagWithDisabledSteps σ steps = .ok [] ↔
      (steps.map ModelWorkflowStep.stepId).Nodup := by
  unfold validateDagWithDisabledSteps
  by_cases hsteps : steps = []
  · subst hsteps
    simp
  rw [if_neg hsteps]
  dsimp only
  rw [if_pos h, Except.ok.injEq, validateUniqueStepIds_eq_nil_iff]

end

/-- The validation is exact unless the steps are all disabled, with distinct ids and a cycle. -/
theorem dagValidationExact_iff (σ : SetOrder UUID) (steps : List ModelWorkflowStep)
    (hcard : (stepIds steps).card ≤ maxDfsIterations) :
    DagValidationExact σ steps ↔ (∃ step ∈ steps, step.enabled = true) ∨
      ¬ (steps.map ModelWorkflowStep.stepId).Nodup ∨ ¬ HasDirectedCycle steps := by
  by_cases henabled : steps.filter ModelWorkflowStep.enabled = []
  · have hnone : ¬ ∃ step ∈ steps, step.enabled = true := by
      simpa [List.filter_eq_nil_iff] using henabled
    unfold DagValidationExact
    rw [validateDagWithDisabledSteps_of_disabled σ henabled, validDag_iff, henabled]
    simp only [hnone, List.not_mem_nil, false_imp_iff, implies_true, true_and, false_or]
    tauto
  · have hsome : ∃ step ∈ steps, step.enabled = true := by
      simpa [List.filter_eq_nil_iff] using henabled
    exact ⟨fun _ => Or.inl hsome, fun _ => dagValidationExact_of_enabled σ hcard henabled⟩

def halfDisabledSteps : List ModelWorkflowStep :=
  [{ ModelWorkflowStep.default ⟨0⟩ ⟨1⟩ "first" .compute with dependsOn := [⟨2⟩] },
   { ModelWorkflowStep.default ⟨0⟩ ⟨2⟩ "second" .effect with
      dependsOn := [⟨1⟩], enabled := false }]

theorem dagValidationExact_iff_halfDisabledSteps :
    (stepIds halfDisabledSteps).card ≤ maxDfsIterations ∧
      (DagValidationExact (.ascending UUID) halfDisabledSteps ↔
        (∃ step ∈ halfDisabledSteps, step.enabled = true) ∨
        ¬ (halfDisabledSteps.map ModelWorkflowStep.stepId).Nodup ∨
        ¬ HasDirectedCycle halfDisabledSteps) := by
  have hcard : (stepIds halfDisabledSteps).card ≤ maxDfsIterations := by decide
  exact ⟨hcard, dagValidationExact_iff _ halfDisabledSteps hcard⟩

def disabledCycle : List ModelWorkflowStep :=
  halfDisabledSteps.map fun step => { step with enabled := false }

/-- The validation finds no error in the two disabled steps, although they depend on each
other. -/
theorem disabledCycle_not_dagValidationExact :
    (stepIds disabledCycle).card ≤ maxDfsIterations ∧
      validateDagWithDisabledSteps (.ascending UUID) disabledCycle = .ok [] ∧
      ¬ DagValidationExact (.ascending UUID) disabledCycle := by
  have haccepted : validateDagWithDisabledSteps (.ascending UUID) disabledCycle = .ok [] := by
    decide +kernel
  refine ⟨by decide, haccepted, fun hexact => ?_⟩
  have hfirst : DependsOn disabledCycle ⟨1⟩ ⟨2⟩ := by
    unfold DependsOn
    decide
  have hsecond : DependsOn disabledCycle ⟨2⟩ ⟨1⟩ := by
    unfold DependsOn
    decide
  exact (hexact.mp haccepted).acyclic ⟨⟨1⟩, (Relation.TransGen.single hfirst).tail hsecond⟩

end OmnibaseCore.Workflow
