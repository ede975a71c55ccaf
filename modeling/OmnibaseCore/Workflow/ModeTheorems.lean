import OmnibaseCore.Workflow.ParallelTheorems
import OmnibaseCore.Workflow.SequentialTheorems

/-!
# Theorems about all execution modes

What holds of the result of a run in each mode:

* the three lists partition the steps (`executeMode_partition`);
* the emitted actions are those of the completed steps, in sequential and batch mode only if
  the payloads fit (`emissionLaw_iff`);
* the modes agree on the outcome when no step is skipped on failure (`modes_agree`).

The examples use payloads of steps of type `compute`, whose serialized form is written out in
`computePayloadJson`.
-/

namespace OmnibaseCore.Workflow

/-! ## A concrete environment -/

/-- `json.dumps(payload.model_dump())` for the payload of a `compute` step. -/
def computePayloadJson (payload : SpecificActionPayload) : String :=
  "\x7b\"action_type\": \x7b\"name\": " ++ jsonString payload.actionType.name ++
  ", \"category\": \x7b\"name\": \"transformation\", \"display_name\": \"Transformation\", " ++
  "\"description\": \"Actions that transform data between formats or structures\"\x7d, " ++
  "\"display_name\": " ++ jsonString payload.actionType.displayName ++ ", \"description\": " ++
  jsonString payload.actionType.description ++ ", \"is_destructive\": false, " ++
  "\"requires_confirmation\": false, \"estimated_duration_ms\": null, " ++
  "\"security_level\": \"standard\", \"required_permissions\": [], " ++
  "\"mcp_compatible\": true, \"graphql_compatible\": true, " ++
  "\"composition_compatible\": true\x7d, \"correlation_id\": null, " ++
  "\"metadata\": \x7b\"workflow_id\": " ++ jsonString payload.metadata.workflowId ++
  ", \"step_id\": " ++ jsonString payload.metadata.stepId ++ ", \"step_name\": " ++
  jsonString payload.metadata.stepName ++ "\x7d, \"input_format\": null, " ++
  "\"output_format\": null, \"transformation_rules\": [], \"preserve_metadata\": true\x7d"

/-- A run with the given limits that has ten minutes and takes no time. -/
def computeExecution (limits : Limits) : Execution where
  env := {
    jsonDumps := fun payload => .ok (computePayloadJson payload)
    newActionId := fun step => ⟨step.stepId.int + 1000⟩
    newLeaseId := fun step => ⟨step.stepId.int + 2000⟩
    validationText := fun _ => "1 validation error for ModelAction" }
  limits := limits
  definition := { workflowMetadata := {
    workflowName := "workflow", executionMode := "sequential", timeoutMs := 600000 } }
  workflowId := ⟨500⟩
  timeoutDeadline := 600
  perfCounter := fun _ => 0

theorem computeExecution_timedOut (limits : Limits) (n : ℕ) :
    (computeExecution limits).timedOut n = false := by
  unfold Execution.timedOut computeExecution
  simp

/-- A step of type `compute` that lets the workflow go on when it fails. -/
def computeStep (id : Fin (2 ^ 128)) (name : String) (dependsOn : List UUID) :
    ModelWorkflowStep :=
  { ModelWorkflowStep.default ⟨id⟩ ⟨id⟩ name .compute with
    dependsOn := dependsOn, errorAction := .continue }

/-- The limits with the least bound on the payload of a step that can be configured. -/
def smallPayloadLimits : Limits := Limits.ofEnv none (some 1024) none

/-- A name that takes three hundred bytes of a payload, so that under `smallPayloadLimits` the
action of its step cannot be created. -/
def longName : String := String.ofList (List.replicate 50 'é')

/-! ## No step is lost or counted twice -/

variable {steps : List ModelWorkflowStep}

theorem executeSequential_partition (hwf : WellFormedSteps steps) (x : Execution)
    (σ : SetOrder UUID) : StepPartition steps (executeSequential x σ steps) := by
  rcases sequentialRun_partition x σ steps with ⟨done, rest, horder, hpart, hrest⟩
  have hsteps : (done ++ rest).Perm steps := by
    rw [← horder]
    exact hwf.executionOrder_perm σ
  refine StepPartition.of_perm hwf hsteps hpart ?_ rfl
  rcases hrest with hnil | ⟨step, hstep, hact, hfailed⟩
  · exact Or.inl hnil
  · exact Or.inr ⟨step, hsteps.mem_iff.mp (List.mem_append_left rest hstep), hact, hfailed⟩

variable {x : Execution} {result : ModelDeclarativeWorkflowResult}

theorem exists_parallelRun (h : executeParallel x steps = .ok result) :
    ∃ st, parallelRun x steps = .ok st ∧ result.completedSteps = st.completedSteps ∧
      result.failedSteps = st.failedSteps ∧ result.skippedSteps = st.skippedSteps ∧
      result.actionsEmitted = st.allActions ∧
      result.executionStatus = statusOf st.failedSteps := by
  unfold executeParallel at h
  cases hrun : parallelRun x steps with
  | error e =>
    rw [hrun] at h
    cases h
  | ok st =>
    rw [hrun] at h
    cases h
    exact ⟨st, rfl, rfl, rfl, rfl, rfl, rfl⟩

theorem executeParallel_partition (hwf : WellFormedSteps steps)
    (h : executeParallel x steps = .ok result) : StepPartition steps result := by
  rcases exists_parallelRun h with ⟨st, hrun, hc, hf, hs, _, hstatus⟩
  rcases parallelRun_partition hwf hrun with ⟨done, rest, hperm, hlists, hrest⟩
  refine StepPartition.of_perm hwf hperm ?_ ?_ ?_
  · rw [hc, hf, hs]
    exact hlists
  · rw [hf]
    exact hrest
  · rw [hf]
    exact hstatus

/-- In every mode, whatever fails and whenever time is up, the three lists partition the
steps, unless a step with the error action `stop` has failed. -/
theorem executeMode_partition {σ σ' : SetOrder UUID} {x : Execution}
    {steps : List ModelWorkflowStep} {mode : EnumExecutionMode}
    {result : ModelDeclarativeWorkflowResult} (hacc : Accepted σ x.limits x.definition steps)
    (h : executeMode x σ' steps mode = .ok result) : StepPartition steps result := by
  have hwf := hacc.wellFormed
  have hseq := executeSequential_partition hwf x σ'
  cases mode with
  | parallel => exact executeParallel_partition hwf h
  | sequential =>
    cases h
    exact hseq
  | batch =>
    cases h
    exact { hseq with }
  | conditional =>
    cases h
    exact hseq
  | streaming =>
    cases h
    exact hseq

/-- A workflow in which the first step fails and the second is skipped for that. -/
def skippingSteps : List ModelWorkflowStep := [
  computeStep 1 longName [],
  { computeStep 2 "second" [] with skipOnFailure := true },
  { computeStep 3 "third" [⟨1⟩] with enabled := false }]

theorem executeMode_partition_skippingSteps :
    ∃ result, executeMode (computeExecution smallPayloadLimits) (.ascending UUID) skippingSteps
        .sequential = .ok result ∧ StepPartition skippingSteps result := by
  have hacc : Accepted (.ascending UUID) smallPayloadLimits
      (computeExecution smallPayloadLimits).definition skippingSteps := by
    decide +kernel
  have hrun : executeMode (computeExecution smallPayloadLimits) (.ascending UUID) skippingSteps
      .sequential = .ok (executeSequential (computeExecution smallPayloadLimits)
        (.ascending UUID) skippingSteps) := rfl
  exact ⟨_, hrun, executeMode_partition hacc hrun⟩

/-! ## Emission -/

theorem EmissionLaw.of_partition (hpart : StepPartition steps result)
    (horder : result.actionsEmitted.map ModelAction.stepId = result.completedSteps)
    (hsum : (result.actionsEmitted.map (payloadSize x.env)).sum
      ≤ x.limits.maxTotalPayloadSizeBytes) : EmissionLaw x result := by
  refine ⟨horder, fun action haction => ?_, hsum⟩
  have hmem : action.stepId ∈ result.completedSteps := by
    rw [← horder]
    exact List.mem_map_of_mem haction
  exact ⟨fun h => hpart.completed_failed hmem h, fun h => hpart.completed_skipped hmem h⟩

theorem executeSequential_emissionLaw_iff {σ : SetOrder UUID} (hwf : WellFormedSteps steps) :
    EmissionLaw x (executeSequential x σ steps) ↔
      payloadDemand x σ steps ≤ x.limits.maxTotalPayloadSizeBytes := by
  have hemission := sequentialRun_emission x σ steps
  rw [← sequentialRun_fits_iff]
  constructor
  · intro hlaw
    rw [hemission.total]
    exact hlaw.within_limit
  · intro hfits
    refine EmissionLaw.of_partition (executeSequential_partition hwf x σ)
      (hemission.in_order hfits) ?_
    rw [hemission.total] at hfits
    exact hfits

theorem executeParallel_emissionLaw (hwf : WellFormedSteps steps)
    (h : executeParallel x steps = .ok result) : EmissionLaw x result := by
  rcases exists_parallelRun h with ⟨st, hrun, hc, _, _, ha, _⟩
  have hemission := parallelRun_emission hrun
  apply EmissionLaw.of_partition (executeParallel_partition hwf h)
  · rw [ha, hc]
    exact hemission.in_order
  · rw [ha, ← hemission.total]
    exact hemission.fits

/-- Parallel execution checks a payload before it emits the action. The other modes emit the
action first, so there the law holds only for workflows whose payloads fit. -/
theorem emissionLaw_iff {σ σ' : SetOrder UUID} {x : Execution} {steps : List ModelWorkflowStep}
    {mode : EnumExecutionMode} {result : ModelDeclarativeWorkflowResult}
    (hacc : Accepted σ x.limits x.definition steps)
    (h : executeMode x σ' steps mode = .ok result) :
    EmissionLaw x result ↔
      (mode = .parallel ∨ payloadDemand x σ' steps ≤ x.limits.maxTotalPayloadSizeBytes) := by
  have hwf := hacc.wellFormed
  have hseq := executeSequential_emissionLaw_iff (x := x) (σ := σ') hwf
  cases mode with
  | parallel => exact iff_of_true (executeParallel_emissionLaw hwf h) (Or.inl rfl)
  | sequential =>
    cases h
    simpa using hseq
  | batch =>
    cases h
    have hbatch : EmissionLaw x (executeBatch x σ' steps) ↔
        EmissionLaw x (executeSequential x σ' steps) :=
      ⟨fun h => { h with }, fun h => { h with }⟩
    simpa using hbatch.trans hseq
  | conditional =>
    cases h
    simpa using hseq
  | streaming =>
    cases h
    simpa using hseq

/-- The limits with the least bound on all payloads together that can be configured. -/
def smallTotalLimits : Limits := Limits.ofEnv none none (some 1024)

/-- Two steps whose payloads fit the limit one by one, but not together. -/
def overflowingSteps : List ModelWorkflowStep := [
  computeStep 1 "first" [],
  computeStep 2 "second" []]

theorem emissionLaw_iff_overflowingSteps :
    ∃ result, executeMode (computeExecution smallTotalLimits) (.ascending UUID)
        overflowingSteps .sequential = .ok result ∧
      (EmissionLaw (computeExecution smallTotalLimits) result ↔
        (EnumExecutionMode.sequential = .parallel ∨
          payloadDemand (computeExecution smallTotalLimits) (.ascending UUID) overflowingSteps
            ≤ smallTotalLimits.maxTotalPayloadSizeBytes)) := by
  have hacc : Accepted (.ascending UUID) smallTotalLimits
      (computeExecution smallTotalLimits).definition overflowingSteps := by
    decide +kernel
  have hrun : executeMode (computeExecution smallTotalLimits) (.ascending UUID)
      overflowingSteps .sequential = .ok (executeSequential (computeExecution smallTotalLimits)
        (.ascending UUID) overflowingSteps) := rfl
  exact ⟨_, hrun, emissionLaw_iff hacc hrun⟩

/-- The action of the step that exceeds the limit is emitted although the step fails. -/
theorem overflowingSteps_not_emissionLaw :
    Accepted (.ascending UUID) smallTotalLimits (computeExecution smallTotalLimits).definition
        overflowingSteps ∧
      ∃ result, executeMode (computeExecution smallTotalLimits) (.ascending UUID)
          overflowingSteps .sequential = .ok result ∧
        ¬ EmissionLaw (computeExecution smallTotalLimits) result := by
  refine ⟨by decide +kernel, _, rfl, fun hlaw => ?_⟩
  have hlengths : (executeSequential (computeExecution smallTotalLimits) (.ascending UUID)
        overflowingSteps).actionsEmitted.length = 2 ∧
      (executeSequential (computeExecution smallTotalLimits) (.ascending UUID)
        overflowingSteps).completedSteps.length = 1 := by
    decide +kernel
  have horder := congrArg List.length hlaw.in_order
  rw [List.length_map, hlengths.1, hlengths.2] at horder
  cases horder

/-! ## Agreement of the modes -/

def SameOutcome (r r' : ModelDeclarativeWorkflowResult) : Prop :=
  r.completedSteps.toFinset = r'.completedSteps.toFinset ∧
  r.failedSteps.toFinset = r'.failedSteps.toFinset ∧
  r.skippedSteps.toFinset = r'.skippedSteps.toFinset

theorem executeSequential_outcome {σ : SetOrder UUID} (hwf : WellFormedSteps steps)
    (htime : ∀ n, x.timedOut n = false) (hskip : ∀ s ∈ steps, s.skipOnFailure = false)
    (hstop : ∀ s ∈ steps, ¬ x.Creates s → s.errorAction ≠ .stop)
    (hfits : (sequentialRun x σ steps).totalPayloadSize ≤ x.limits.maxTotalPayloadSizeBytes) :
    OutcomeLists x steps steps (executeSequential x σ steps).completedSteps
      (executeSequential x σ steps).failedSteps (executeSequential x σ steps).skippedSteps :=
  (sequentialRun_outcome hwf htime hskip hstop hfits).lists.of_perm (hwf.executionOrder_perm σ)

/-- A sequential, a batch and a parallel run in which the same actions can be created have the
same outcome, if no step is skipped on failure, no failing step stops the workflow, nothing
times out and no run exceeds the limit on payloads. -/
theorem modes_agree {σ σ₁ σ₂ : SetOrder UUID} {limits : Limits}
    {definition : ModelWorkflowDefinition} {x y z : Execution} {steps : List ModelWorkflowStep}
    {result : ModelDeclarativeWorkflowResult} (hacc : Accepted σ limits definition steps)
    (hskip : ∀ s ∈ steps, s.skipOnFailure = false)
    (hxz : ∀ s ∈ steps, (x.Creates s ↔ z.Creates s))
    (hyz : ∀ s ∈ steps, (y.Creates s ↔ z.Creates s))
    (hstop : ∀ s ∈ steps, ¬ z.Creates s → s.errorAction ≠ .stop)
    (hx : ∀ n, x.timedOut n = false) (hy : ∀ n, y.timedOut n = false)
    (hz : ∀ n, z.timedOut n = false)
    (hxfits : (sequentialRun x σ₁ steps).totalPayloadSize ≤ x.limits.maxTotalPayloadSizeBytes)
    (hyfits : (sequentialRun y σ₂ steps).totalPayloadSize ≤ y.limits.maxTotalPayloadSizeBytes)
    (hparallel : executeParallel z steps = .ok result) :
    SameOutcome (executeSequential x σ₁ steps) result ∧
      SameOutcome (executeBatch y σ₂ steps) result := by
  have hwf := hacc.wellFormed
  rcases exists_parallelRun hparallel with ⟨st, hrun, hc, hf, hs, _, _⟩
  have hpar := parallelRun_outcome hwf hz hskip hstop hrun
  rw [← hc, ← hf, ← hs] at hpar
  have hxstop : ∀ s ∈ steps, ¬ x.Creates s → s.errorAction ≠ .stop :=
    fun s hs hno => hstop s hs fun hyes => hno ((hxz s hs).mpr hyes)
  have hystop : ∀ s ∈ steps, ¬ y.Creates s → s.errorAction ≠ .stop :=
    fun s hs hno => hstop s hs fun hyes => hno ((hyz s hs).mpr hyes)
  constructor
  · exact (executeSequential_outcome hwf hx hskip hxstop hxfits).toFinset_eq hxz hpar
  · exact (executeSequential_outcome hwf hy hskip hystop hyfits).toFinset_eq hyz hpar

def failingSteps : List ModelWorkflowStep := [
  computeStep 1 longName [],
  computeStep 2 "second" [],
  computeStep 3 "third" [⟨1⟩]]

theorem modes_agree_failingSteps :
    ∃ result, executeParallel (computeExecution smallPayloadLimits) failingSteps = .ok result ∧
      SameOutcome (executeSequential (computeExecution smallPayloadLimits) (.ascending UUID)
        failingSteps) result ∧
      SameOutcome (executeBatch (computeExecution smallPayloadLimits) (.ascending UUID)
        failingSteps) result := by
  have hacc : Accepted (.ascending UUID) smallPayloadLimits
      (computeExecution smallPayloadLimits).definition failingSteps := by
    decide +kernel
  have hstop : ∀ s ∈ failingSteps, s.errorAction ≠ .stop := by
    decide +kernel
  have hskip : ∀ s ∈ failingSteps, s.skipOnFailure = false := by
    decide +kernel
  have hfits : (sequentialRun (computeExecution smallPayloadLimits) (.ascending UUID)
      failingSteps).totalPayloadSize ≤ smallPayloadLimits.maxTotalPayloadSizeBytes := by
    decide +kernel
  have hok : (executeParallel (computeExecution smallPayloadLimits)
      failingSteps).toOption.isSome = true := by
    decide +kernel
  have htime := computeExecution_timedOut smallPayloadLimits
  cases hresult : executeParallel (computeExecution smallPayloadLimits) failingSteps with
  | error e =>
    rw [hresult] at hok
    cases hok
  | ok result =>
    exact ⟨result, rfl, modes_agree hacc hskip (fun _ _ => Iff.rfl) (fun _ _ => Iff.rfl)
      (fun s hs _ => hstop s hs) htime htime htime hfits hfits hresult⟩

end OmnibaseCore.Workflow
