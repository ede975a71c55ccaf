import OmnibaseCore.Workflow.ModeTheorems

/-!
# The deadline and the disabled steps

Parallel execution skips the disabled steps before it reads the clock. The loop of sequential and
batch execution reads the clock first, so that a disabled step to which it comes after the deadline
fails. `disabledReported_iff` says that this is the only way in which a disabled step is not
skipped.
-/

namespace OmnibaseCore.Workflow

/-- Disabled steps are skipped, and the workflow is completed when its enabled steps are. -/
structure DisabledReported (steps : List ModelWorkflowStep)
    (result : ModelDeclarativeWorkflowResult) : Prop where
  skipped : ∀ step ∈ steps, step.enabled = false → step.stepId.str ∈ result.skippedSteps ∧
    step.stepId.str ∉ result.failedSteps ∧ step.stepId.str ∉ result.completedSteps
  status : (∀ step ∈ steps, step.enabled = true → step.stepId.str ∈ result.completedSteps) →
    result.executionStatus = .completed

def NoneStops (steps : List ModelWorkflowStep) (result : ModelDeclarativeWorkflowResult) : Prop :=
  ∀ step ∈ steps, step.enabled = true → step.stepId.str ∈ result.failedSteps →
    step.errorAction ≠ .stop

/-- At no reading of the clock that is made for a disabled step is the deadline over. The clock is
read once for each step, in the order of execution. -/
def DisabledInTime (x : Execution) (σ : SetOrder UUID) (steps : List ModelWorkflowStep) : Prop :=
  ∀ reading step, (executionOrder σ steps)[reading]? = some step → step.enabled = false →
    x.timedOut reading = false

/-! ## Sequential execution -/

/-- What has become of the disabled steps among the visited ones, for which the clock has been read
once each. -/
structure DisabledSoFar (x : Execution) (done : List ModelWorkflowStep) (st : SequentialState) :
    Prop where
  clockReads : st.clockReads = done.length
  failed : ∀ reading step, done[reading]? = some step → step.enabled = false →
    x.timedOut reading = true → step.stepId.str ∈ st.failedSteps
  skipped : ∀ reading step, done[reading]? = some step → step.enabled = false →
    x.timedOut reading = false → step.stepId.str ∈ st.skippedSteps

/-- What every turn of the loop does to the lists and the clock. -/
structure SequentialGrows (st st' : SequentialState) : Prop where
  clockReads : st'.clockReads = st.clockReads + 1
  failed : st.failedSteps ⊆ st'.failedSteps
  skipped : st.skippedSteps ⊆ st'.skippedSteps

section
variable {x : Execution} {step : ModelWorkflowStep} {st st' : SequentialState} {stop : Bool}

section
variable (hstep : SequentialStep x step st st' stop)
include hstep

theorem SequentialStep.grows :
    SequentialGrows st st' := by
  have hfail : st.failedSteps ⊆ (st.tick.fail step).failedSteps := List.subset_append_left _ _
  have hskip : st.skippedSteps ⊆ (st.tick.skip step).skippedSteps := List.subset_append_left _ _
  cases hstep with
  | timedOut => exact ⟨rfl, hfail, List.Subset.refl _⟩
  | disabled => exact ⟨rfl, List.Subset.refl _, hskip⟩
  | blocked => exact ⟨rfl, hfail, List.Subset.refl _⟩
  | skipped => exact ⟨rfl, List.Subset.refl _, hskip⟩
  | failed => exact ⟨rfl, hfail, List.Subset.refl _⟩
  | overflowed => exact ⟨rfl, hfail, List.Subset.refl _⟩
  | completed => exact ⟨rfl, List.Subset.refl _, List.Subset.refl _⟩

theorem SequentialStep.of_disabled (hdisabled : step.enabled = false) :
    (x.timedOut st.clockReads = true ∧ step.stepId.str ∈ st'.failedSteps) ∨
      (x.timedOut st.clockReads = false ∧ step.stepId.str ∈ st'.skippedSteps) := by
  have habsurd : step.enabled ≠ true := by
    rw [hdisabled]
    exact Bool.false_ne_true
  cases hstep with
  | timedOut htime => exact Or.inl ⟨htime, by simp [SequentialState.fail]⟩
  | disabled htime => exact Or.inr ⟨htime, by simp [SequentialState.skip]⟩
  | blocked _ henabled => exact absurd henabled habsurd
  | skipped _ henabled => exact absurd henabled habsurd
  | failed _ henabled => exact absurd henabled habsurd
  | overflowed _ henabled => exact absurd henabled habsurd
  | completed _ henabled => exact absurd henabled habsurd

theorem SequentialStep.enabled_of_stop (hstop : stop = true) : step.enabled = true := by
  cases hstep with
  | timedOut => cases hstop
  | disabled => cases hstop
  | blocked => cases hstop
  | skipped => cases hstop
  | failed _ henabled => exact henabled
  | overflowed _ henabled => exact henabled
  | completed => cases hstop

theorem SequentialStep.disabledSoFar {done : List ModelWorkflowStep} (h : DisabledSoFar x done st) :
    DisabledSoFar x (done ++ [step]) st' := by
  have hgrows := hstep.grows
  have hindex : ∀ reading s, (done ++ [step])[reading]? = some s →
      done[reading]? = some s ∨ (reading = st.clockReads ∧ s = step) := by
    intro reading s hs
    rw [h.clockReads]
    by_cases hlt : reading < done.length
    · rw [List.getElem?_append_left hlt] at hs
      exact Or.inl hs
    · rw [List.getElem?_append_right (by omega), List.getElem?_singleton] at hs
      split_ifs at hs with hzero
      cases hs
      exact Or.inr ⟨by omega, rfl⟩
  refine ⟨?_, fun reading s hs hdisabled htime => ?_, fun reading s hs hdisabled htime => ?_⟩
  · rw [hgrows.clockReads, h.clockReads, List.length_append, List.length_singleton]
  · rcases hindex reading s hs with hs | ⟨rfl, rfl⟩
    · exact hgrows.failed (h.failed reading s hs hdisabled htime)
    · rcases hstep.of_disabled hdisabled with hlate | hearly
      · exact hlate.2
      · rw [hearly.1] at htime
        cases htime
  · rcases hindex reading s hs with hs | ⟨rfl, rfl⟩
    · exact hgrows.skipped (h.skipped reading s hs hdisabled htime)
    · rcases hstep.of_disabled hdisabled with hlate | hearly
      · rw [hlate.1] at htime
        cases htime
      · exact hearly.2

end

end

section
variable {x : Execution} {steps : List ModelWorkflowStep}

theorem sequentialRun_disabled (hwf : WellFormedSteps steps) (σ : SetOrder UUID)
    (hstop : NoneStops steps (executeSequential x σ steps)) :
    DisabledSoFar x (executionOrder σ steps) (sequentialRun x σ steps) := by
  have hinit : DisabledSoFar x [] .init := ⟨rfl, by simp, by simp⟩
  have hturn : ∀ done step rest st, executionOrder σ steps = done ++ step :: rest →
      DisabledSoFar x done st → DisabledSoFar x (done ++ [step]) (sequentialBody x step st).1 :=
    fun done step rest st _ h => (sequentialBody_spec x step st).disabledSoFar h
  rcases forBreak_rule (DisabledSoFar x) hinit hturn with ⟨done, rest, horder, hdone, hrest⟩
  rcases hrest with hrest | ⟨done', step, st, heq, _, hbody⟩
  · rw [hrest, List.append_nil] at horder
    rw [horder]
    exact hdone
  · have hspec := sequentialBody_spec x step st
    rw [hbody] at hspec
    have hmem : step ∈ steps := by
      apply (hwf.executionOrder_perm σ).mem_iff.mp
      rw [horder, heq]
      simp
    have haction := hspec.stop
    exact absurd haction.1 (hstop step hmem (hspec.enabled_of_stop rfl) haction.2)

variable {result : ModelDeclarativeWorkflowResult}

theorem DisabledReported.of_skipped (hpart : StepPartition steps result)
    (h : ∀ step ∈ steps, step.enabled = false → step.stepId.str ∈ result.skippedSteps) :
    DisabledReported steps result where
  skipped step hstep hdisabled := by
    have hskipped := h step hstep hdisabled
    exact ⟨hskipped, fun hfailed => hpart.failed_skipped hfailed hskipped,
      fun hcompleted => hpart.completed_skipped hcompleted hskipped⟩
  status hcompleted := by
    apply hpart.status.mpr
    rw [List.eq_nil_iff_forall_not_mem]
    intro t ht
    rcases hpart.subset t (by simp [ht]) with ⟨step, hstep, rfl⟩
    cases henabled : step.enabled with
    | true => exact hpart.completed_failed (hcompleted step hstep henabled) ht
    | false => exact hpart.failed_skipped ht (h step hstep henabled)

theorem executeSequential_disabledReported_iff (hwf : WellFormedSteps steps) (σ : SetOrder UUID)
    (hstop : NoneStops steps (executeSequential x σ steps)) :
    DisabledReported steps (executeSequential x σ steps) ↔ DisabledInTime x σ steps := by
  have hrun := sequentialRun_disabled hwf σ hstop
  constructor
  · intro h reading step hindex hdisabled
    by_contra hlate
    rw [Bool.not_eq_false] at hlate
    have hstep : step ∈ steps :=
      (hwf.executionOrder_perm σ).mem_iff.mp (List.mem_of_getElem? hindex)
    exact (h.skipped step hstep hdisabled).2.1 (hrun.failed reading step hindex hdisabled hlate)
  · intro h
    apply DisabledReported.of_skipped (executeSequential_partition hwf x σ)
    intro step hstep hdisabled
    have horder := (hwf.executionOrder_perm σ).mem_iff.mpr hstep
    rcases List.mem_iff_getElem?.mp horder with ⟨reading, hindex⟩
    exact hrun.skipped reading step hindex hdisabled (h reading step hindex hdisabled)

/-! ## Parallel execution -/

theorem Wave.skipped_subset {st st' : ParallelState} {stop : Bool} (h : Wave x st st' stop) :
    st.skippedSteps ⊆ st'.skippedSteps := by
  have hskip := (skipSteps_spec st.skipOnFailureSteps st.tick).skipped
  cases h with
  | timedOut =>
    rw [failRemaining_eq]
    exact List.Subset.refl _
  | stalled =>
    rw [failRemaining_eq]
    dsimp only
    rw [hskip]
    exact List.subset_append_left _ _
  | advanced _ _ _ hdone =>
    dsimp only
    rw [hdone.skipped, hskip]
    exact List.subset_append_left _ _

theorem executeParallel_disabledReported (hwf : WellFormedSteps steps)
    (h : executeParallel x steps = .ok result) :
    DisabledReported steps result := by
  apply DisabledReported.of_skipped (executeParallel_partition hwf h)
  rcases exists_parallelRun h with ⟨st, hrun, _, _, hskipped, _, _⟩
  have hstart : (ParallelState.init steps).skippedSteps ⊆ (ParallelState.init steps).skippedSteps :=
    List.Subset.refl _
  rcases parallelRun_rule (fun st => (ParallelState.init steps).skippedSteps ⊆ st.skippedSteps)
    hstart (fun _ _ hsub _ hwave => List.Subset.trans hsub hwave.skipped_subset) hrun with ⟨last, hlast, hend⟩
  have hsub : (ParallelState.init steps).skippedSteps ⊆ result.skippedSteps := by
    rw [hskipped]
    rcases hend with ⟨rfl, _⟩ | ⟨_, hwave⟩
    · exact hlast
    · exact List.Subset.trans hlast hwave.skipped_subset
  intro step hstep hdisabled
  apply hsub
  rw [(parallelStart steps).skipped, mem_stepTexts]
  exact ⟨step, List.mem_filter.mpr ⟨hstep, by simpa using hdisabled⟩, rfl⟩

end

/-! ## All modes -/

/-- Unless a failing step stops the workflow, its disabled steps are reported as skipped exactly
if the mode is parallel or the loop comes to all of them before the deadline. -/
theorem disabledReported_iff {σ σ' : SetOrder UUID} {x : Execution}
    {steps : List ModelWorkflowStep} {mode : EnumExecutionMode}
    {result : ModelDeclarativeWorkflowResult} (hacc : Accepted σ x.limits x.definition steps)
    (h : executeMode x σ' steps mode = .ok result) (hstop : NoneStops steps result) :
    DisabledReported steps result ↔ mode = .parallel ∨ DisabledInTime x σ' steps := by
  have hwf := hacc.wellFormed
  have hseq : NoneStops steps (executeSequential x σ' steps) →
      (DisabledReported steps (executeSequential x σ' steps) ↔ DisabledInTime x σ' steps) :=
    executeSequential_disabledReported_iff hwf σ'
  cases mode with
  | parallel => exact iff_of_true (executeParallel_disabledReported hwf h) (Or.inl rfl)
  | sequential =>
    cases h
    simpa using hseq hstop
  | batch =>
    cases h
    have hbatch : DisabledReported steps (executeBatch x σ' steps) ↔
        DisabledReported steps (executeSequential x σ' steps) :=
      ⟨fun h => ⟨h.skipped, h.status⟩, fun h => ⟨h.skipped, h.status⟩⟩
    simpa using hbatch.trans (hseq hstop)
  | conditional =>
    cases h
    simpa using hseq hstop
  | streaming =>
    cases h
    simpa using hseq hstop

/-- A run for which time is up after the first reading of the clock. -/
def shortExecution : Execution :=
  { computeExecution (Limits.ofEnv none none none) with
    perfCounter := fun reading => if reading = 0 then 0 else 1000 }

def lastDisabledSteps : List ModelWorkflowStep := [
  computeStep 1 "first" [],
  { computeStep 2 "second" [] with enabled := false }]

theorem lastDisabledSteps_accepted : Accepted (.ascending UUID) shortExecution.limits
    shortExecution.definition lastDisabledSteps := by
  decide +kernel

theorem noneStops_lastDisabledSteps (result : ModelDeclarativeWorkflowResult) :
    NoneStops lastDisabledSteps result := by
  have hactions : ∀ step ∈ lastDisabledSteps, step.errorAction ≠ .stop := by decide
  exact fun step hstep _ _ => hactions step hstep

theorem disabledReported_iff_lastDisabledSteps :
    ∃ result, executeMode shortExecution (.ascending UUID) lastDisabledSteps .batch = .ok result ∧
      (DisabledReported lastDisabledSteps result ↔ EnumExecutionMode.batch = .parallel ∨
        DisabledInTime shortExecution (.ascending UUID) lastDisabledSteps) := by
  have hrun : executeMode shortExecution (.ascending UUID) lastDisabledSteps .batch = .ok
      (executeBatch shortExecution (.ascending UUID) lastDisabledSteps) := rfl
  exact ⟨_, hrun, disabledReported_iff lastDisabledSteps_accepted hrun
    (noneStops_lastDisabledSteps _)⟩

/-- The enabled step completes in time, but the disabled one fails, and with it the workflow. -/
theorem lastDisabledSteps_not_disabledReported :
    Accepted (.ascending UUID) shortExecution.limits shortExecution.definition
        lastDisabledSteps ∧
      Monotone shortExecution.perfCounter ∧
      (∀ step ∈ lastDisabledSteps, step.errorAction ≠ .stop) ∧
      ∃ result, executeMode shortExecution (.ascending UUID) lastDisabledSteps .sequential
          = .ok result ∧
        result.completedSteps = [(UUID.mk 1).str] ∧ result.failedSteps = [(UUID.mk 2).str] ∧
        result.executionStatus = .failed ∧ ¬ DisabledReported lastDisabledSteps result := by
  have hmonotone : Monotone shortExecution.perfCounter := by
    intro reading later hle
    show (if reading = 0 then (0 : ℚ) else 1000) ≤ if later = 0 then 0 else 1000
    split_ifs with hfirst hsecond
    · exact le_refl _
    · norm_num
    · omega
    · exact le_refl _
  have hfailed : (executeSequential shortExecution (.ascending UUID) lastDisabledSteps).failedSteps
      = [(UUID.mk 2).str] := by
    decide +kernel
  refine ⟨lastDisabledSteps_accepted, hmonotone, by decide, _, rfl, by decide +kernel, hfailed,
    by decide +kernel, fun h => ?_⟩
  have hskipped := h.skipped { computeStep 2 "second" [] with enabled := false }
    (by simp [lastDisabledSteps]) rfl
  apply hskipped.2.1
  rw [hfailed]
  simp [computeStep, ModelWorkflowStep.default]

end OmnibaseCore.Workflow
