import OmnibaseCore.Workflow.Graph

/-!
# Validation of workflow definitions

`validate_workflow_definition` collects the texts of the errors it finds and raises for a
reserved step type. A workflow is accepted when it neither raises nor finds an error; the
theorems say what is known of the steps then (`WellFormedSteps`).
-/

namespace OmnibaseCore.Workflow

open FiniteGraph

/-- The ids that occur again after their first occurrence. -/
def duplicateIds (stepIdList : List UUID) : Finset UUID :=
  (stepIdList.foldl (fun (acc : Finset UUID × Finset UUID) stepId =>
    (insert stepId acc.1, if stepId ∈ acc.1 then insert stepId acc.2 else acc.2)) (∅, ∅)).2

/-- The checks of `validate_workflow_definition` on one step. -/
def validateStep (ids : Finset UUID) (errors : List String) (step : ModelWorkflowStep) :
    Except PyException (List String) :=
  let errors :=
    if step.stepName = "" then errors ++ ["Step " ++ step.stepId.str ++ " missing name"]
    else errors
  if step.stepType ∈ reservedStepTypes then
    .error (.modelOnexError {
      errorCode := .validationError
      message := "Step '" ++ step.stepName ++ "' uses reserved step_type '" ++
        step.stepType.value ++ "'. " ++
        "Conditional execution is not supported in v1.0. Use step.enabled or " ++
        "step.skip_on_failure for conditional behavior."
      context := [("step_id", .str step.stepId.str), ("step_name", .str step.stepName),
        ("step_type", .str step.stepType.value)] })
  else
    let errors :=
      if step.timeoutMs < minTimeoutMs then
        errors ++ ["Step '" ++ step.stepName ++ "' has invalid timeout_ms=" ++
          toString step.timeoutMs ++ ". Minimum value is " ++ toString minTimeoutMs ++ "ms."]
      else errors
    .ok (step.dependsOn.foldl (fun errors depId =>
      if depId ∉ ids then
        errors ++ ["Step '" ++ step.stepName ++ "' depends on non-existent step: " ++ depId.str]
      else errors) errors)

/-- The loop of `validate_workflow_definition` over the steps. -/
def validateSteps (ids : Finset UUID) :
    List ModelWorkflowStep → List String → Except PyException (List String)
  | [], errors => .ok errors
  | step :: rest, errors =>
    match validateStep ids errors step with
    | .error e => .error e
    | .ok errors => validateSteps ids rest errors

/-- The checks of `validate_workflow_definition` on the metadata. -/
def validateMetadata (metadata : ModelWorkflowDefinitionMetadata) : List String :=
  (if metadata.workflowName = "" then ["Workflow name is required"] else []) ++
  (if metadata.executionMode ∉ ["sequential", "parallel", "batch"] then
    ["Invalid execution mode: " ++ metadata.executionMode] else []) ++
  (if metadata.timeoutMs ≤ 0 then
    ["Workflow timeout must be positive, got: " ++ toString metadata.timeoutMs] else [])

def validateWorkflowDefinition (σ : SetOrder UUID) (limits : Limits)
    (definition : ModelWorkflowDefinition) (steps : List ModelWorkflowStep) :
    Except PyException (List String) :=
  if steps.length > limits.maxWorkflowSteps then
    .ok ["Workflow exceeds maximum step limit: " ++ toString steps.length ++ " steps > " ++
      toString limits.maxWorkflowSteps ++ " maximum"]
  else
    let errors := validateMetadata definition.workflowMetadata
    if steps = [] then
      .ok errors
    else
      let stepIdList := steps.map ModelWorkflowStep.stepId
      let errors :=
        if stepIdList.length ≠ (stepIds steps).card then
          errors ++ ["Workflow contains duplicate step IDs: " ++
            ", ".intercalate ((σ.iter (duplicateIds stepIdList)).map UUID.str)]
        else errors
      match hasDependencyCycles σ steps with
      | .error e => .error e
      | .ok hasCycles =>
        let errors :=
          if hasCycles then errors ++ ["Workflow contains dependency cycles"] else errors
        validateSteps (stepIds steps) steps errors

def Accepted (σ : SetOrder UUID) (limits : Limits) (definition : ModelWorkflowDefinition)
    (steps : List ModelWorkflowStep) : Prop :=
  validateWorkflowDefinition σ limits definition steps = .ok []

instance (σ : SetOrder UUID) (limits : Limits) (definition : ModelWorkflowDefinition)
    (steps : List ModelWorkflowStep) : Decidable (Accepted σ limits definition steps) :=
  inferInstanceAs (Decidable (_ = _))

structure WellFormedSteps (steps : List ModelWorkflowStep) : Prop where
  nodup : (steps.map ModelWorkflowStep.stepId).Nodup
  dependsOn_mem : ∀ step ∈ steps, ∀ depId ∈ step.dependsOn, depId ∈ stepIds steps
  acyclic : ¬ HasDirectedCycle steps

/-! ## What acceptance means -/

theorem validateStep_nil {ids : Finset UUID} {errors : List String} {step : ModelWorkflowStep}
    (h : validateStep ids errors step = .ok []) :
    errors = [] ∧ ∀ depId ∈ step.dependsOn, depId ∈ ids := by
  have hdeps : ∀ (deps : List UUID) (errors : List String),
      deps.foldl (fun errors depId =>
        if depId ∉ ids then
          errors ++ ["Step '" ++ step.stepName ++ "' depends on non-existent step: " ++
            depId.str]
        else errors) errors = [] → errors = [] ∧ ∀ depId ∈ deps, depId ∈ ids := by
    intro deps
    induction deps with
    | nil => exact fun errors h => ⟨h, by simp⟩
    | cons d deps ih =>
      intro errors h
      rw [List.foldl_cons] at h
      have hrest := ih _ h
      by_cases hd : d ∈ ids
      · rw [if_neg (not_not.mpr hd)] at hrest
        exact ⟨hrest.1, List.forall_mem_cons.mpr ⟨hd, hrest.2⟩⟩
      · rw [if_pos hd] at hrest
        exact absurd hrest.1 (by simp)
  unfold validateStep at h
  dsimp only at h
  by_cases hreserved : step.stepType ∈ reservedStepTypes
  · rw [if_pos hreserved] at h
    cases h
  · rw [if_neg hreserved, Except.ok.injEq] at h
    have hfold := hdeps _ _ h
    refine ⟨?_, hfold.2⟩
    have hnil := hfold.1
    split_ifs at hnil
    · exact absurd hnil (by simp)
    · exact absurd hnil (by simp)
    · exact absurd hnil (by simp)
    · exact hnil

variable {steps : List ModelWorkflowStep}

theorem validateSteps_nil {ids : Finset UUID} {errors : List String}
    (h : validateSteps ids steps errors = .ok []) :
    errors = [] ∧ ∀ step ∈ steps, ∀ depId ∈ step.dependsOn, depId ∈ ids := by
  induction steps generalizing errors with
  | nil =>
    unfold validateSteps at h
    cases h
    exact ⟨rfl, by simp⟩
  | cons step rest ih =>
    unfold validateSteps at h
    cases hstep : validateStep ids errors step with
    | error e =>
      rw [hstep] at h
      cases h
    | ok errors' =>
      rw [hstep] at h
      have hrest := ih h
      rw [hrest.1] at hstep
      have hfirst := validateStep_nil hstep
      exact ⟨hfirst.1, List.forall_mem_cons.mpr ⟨hfirst.2, hrest.2⟩⟩

theorem nodup_of_length_eq_card
    (h : (steps.map ModelWorkflowStep.stepId).length = (stepIds steps).card) :
    (steps.map ModelWorkflowStep.stepId).Nodup := by
  unfold stepIds at h
  rw [List.card_toFinset] at h
  have hsublist := List.dedup_sublist (steps.map ModelWorkflowStep.stepId)
  rw [← hsublist.eq_of_length h.symm]
  exact List.nodup_dedup _

/-- An accepted workflow has distinct ids and no unknown dependency. -/
theorem Accepted.wellFormed {σ : SetOrder UUID} {limits : Limits}
    {definition : ModelWorkflowDefinition} (h : Accepted σ limits definition steps) :
    WellFormedSteps steps := by
  unfold Accepted validateWorkflowDefinition at h
  dsimp only at h
  by_cases hlength : steps.length > limits.maxWorkflowSteps
  · rw [if_pos hlength] at h
    cases h
  rw [if_neg hlength] at h
  by_cases hnil : steps = []
  · subst hnil
    refine ⟨List.nodup_nil, by simp, fun hcycle => ?_⟩
    rcases hcycle with ⟨a, ha⟩
    rcases Relation.TransGen.head'_iff.mp ha with ⟨b, hab, _⟩
    exact absurd hab.1 (Finset.notMem_empty b)
  rw [if_neg hnil] at h
  cases hcycles : hasDependencyCycles σ steps with
  | error e =>
    rw [hcycles] at h
    cases h
  | ok hasCycles =>
    rw [hcycles] at h
    dsimp only at h
    rcases validateSteps_nil h with ⟨herrors, hdeps⟩
    have hiff := hasDependencyCycles_ok hcycles
    cases hasCycles with
    | true => exact absurd herrors (by simp)
    | false =>
      rw [if_neg Bool.false_ne_true] at herrors
      refine ⟨nodup_of_length_eq_card ?_, hdeps, fun hcycle => ?_⟩
      · by_contra hcard
        rw [if_pos hcard] at herrors
        exact absurd herrors (by simp)
      · exact absurd (hiff.mpr hcycle) Bool.false_ne_true

end OmnibaseCore.Workflow
