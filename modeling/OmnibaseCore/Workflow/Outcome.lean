import OmnibaseCore.Workflow.Executor
import OmnibaseCore.Workflow.Validation

/-!
# What the result of a run means

The vocabulary for the results of the executor, whatever the mode.
-/

namespace OmnibaseCore.Workflow

/-- The ids of the steps as the results print them. -/
def stepTexts (steps : List ModelWorkflowStep) : List String :=
  steps.map fun step => step.stepId.str

theorem mem_stepTexts {steps : List ModelWorkflowStep} {t : String} :
    t ∈ stepTexts steps ↔ ∃ step ∈ steps, step.stepId.str = t := by
  unfold stepTexts
  rw [List.mem_map]

@[simp] theorem stepTexts_nil : stepTexts [] = [] := rfl

@[simp] theorem stepTexts_append (l₁ l₂ : List ModelWorkflowStep) :
    stepTexts (l₁ ++ l₂) = stepTexts l₁ ++ stepTexts l₂ := List.map_append

@[simp] theorem stepTexts_singleton (step : ModelWorkflowStep) :
    stepTexts [step] = [step.stepId.str] := rfl

section
variable {steps : List ModelWorkflowStep}

section
variable (h : WellFormedSteps steps)
include h

theorem WellFormedSteps.eq_of_str_eq {s t : ModelWorkflowStep}
    (hs : s ∈ steps) (ht : t ∈ steps) (heq : s.stepId.str = t.stepId.str) : s = t :=
  List.inj_on_of_nodup_map h.nodup hs ht (UUID.str_injective heq)

theorem WellFormedSteps.eq_of_stepId_eq {s t : ModelWorkflowStep}
    (hs : s ∈ steps) (ht : t ∈ steps) (heq : s.stepId = t.stepId) : s = t :=
  List.inj_on_of_nodup_map h.nodup hs ht heq

theorem WellFormedSteps.nodup_steps : steps.Nodup :=
  List.Nodup.of_map _ h.nodup

theorem WellFormedSteps.nodup_stepTexts :
    (stepTexts steps).Nodup := by
  have hmap : stepTexts steps = (steps.map ModelWorkflowStep.stepId).map UUID.str := by
    unfold stepTexts
    rw [List.map_map]
    rfl
  rw [hmap]
  exact h.nodup.map UUID.str_injective

theorem WellFormedSteps.str_mem_iff {l : List ModelWorkflowStep}
    (hl : l ⊆ steps) {s : ModelWorkflowStep} (hs : s ∈ steps) :
    s.stepId.str ∈ stepTexts l ↔ s ∈ l := by
  rw [mem_stepTexts]
  constructor
  · intro hmem
    rcases hmem with ⟨t, ht, heq⟩
    rwa [← h.eq_of_str_eq (hl ht) hs heq]
  · exact fun hmem => ⟨s, hmem, rfl⟩

end

end

/-! ## Partition -/

/-- Exactly one of three statements holds. -/
def ExactlyOne (p q r : Prop) : Prop := (p ∧ ¬ q ∧ ¬ r) ∨ (¬ p ∧ q ∧ ¬ r) ∨ (¬ p ∧ ¬ q ∧ r)

theorem exactlyOne_of_disjoint {p q r : Prop} (h : (p ∨ q) ∨ r) (hpq : p → ¬ q) (hpr : p → ¬ r)
    (hqr : q → ¬ r) : ExactlyOne p q r := by
  unfold ExactlyOne
  rcases h with (hp | hq) | hr
  · exact Or.inl ⟨hp, hpq hp, hpr hp⟩
  · exact Or.inr (Or.inl ⟨fun hp => hpq hp hq, hq, hqr hq⟩)
  · exact Or.inr (Or.inr ⟨fun hp => hpr hp hr, fun hq => hqr hq hr, hr⟩)

/-- No step is lost or counted twice. -/
structure StepPartition (steps : List ModelWorkflowStep)
    (result : ModelDeclarativeWorkflowResult) : Prop where
  completed_nodup : result.completedSteps.Nodup
  failed_nodup : result.failedSteps.Nodup
  skipped_nodup : result.skippedSteps.Nodup
  completed_failed : result.completedSteps.Disjoint result.failedSteps
  completed_skipped : result.completedSteps.Disjoint result.skippedSteps
  failed_skipped : result.failedSteps.Disjoint result.skippedSteps
  subset : ∀ t ∈ result.completedSteps ++ result.failedSteps ++ result.skippedSteps,
    ∃ step ∈ steps, step.stepId.str = t
  covered : (∀ step ∈ steps, step.stepId.str ∈ result.failedSteps → step.errorAction ≠ .stop) →
    ∀ step ∈ steps, ExactlyOne (step.stepId.str ∈ result.completedSteps)
      (step.stepId.str ∈ result.failedSteps) (step.stepId.str ∈ result.skippedSteps)
  status : result.executionStatus = .completed ↔ result.failedSteps = []

theorem statusOf_eq_completed_iff {failedSteps : List String} :
    statusOf failedSteps = .completed ↔ failedSteps = [] := by
  unfold statusOf
  by_cases h : failedSteps = []
  · rw [if_pos h]
    exact iff_of_true rfl h
  · rw [if_neg h]
    exact iff_of_false nofun h

theorem StepPartition.of_perm {steps done rest : List ModelWorkflowStep}
    {result : ModelDeclarativeWorkflowResult} (hwf : WellFormedSteps steps)
    (hsteps : (done ++ rest).Perm steps)
    (hperm : (result.completedSteps ++ result.failedSteps ++ result.skippedSteps).Perm
      (stepTexts done))
    (hrest : rest = [] ∨ ∃ step ∈ steps, step.errorAction = .stop ∧
      step.stepId.str ∈ result.failedSteps)
    (hstatus : result.executionStatus = statusOf result.failedSteps) :
    StepPartition steps result := by
  have hdone : (stepTexts done).Nodup := by
    have hall : (stepTexts (done ++ rest)).Nodup :=
      (hsteps.map fun s : ModelWorkflowStep => s.stepId.str).nodup_iff.mpr hwf.nodup_stepTexts
    rw [stepTexts_append] at hall
    exact (List.nodup_append.mp hall).1
  have hnodup := hperm.nodup_iff.mpr hdone
  rw [List.nodup_append'] at hnodup
  rcases hnodup with ⟨hcf, hs, hdisj⟩
  rw [List.nodup_append'] at hcf
  rcases hcf with ⟨hc, hf, hcfDisj⟩
  rw [List.disjoint_append_left] at hdisj
  refine ⟨hc, hf, hs, hcfDisj, hdisj.1, hdisj.2, ?_, ?_, ?_⟩
  · intro t ht
    rcases mem_stepTexts.mp (hperm.mem_iff.mp ht) with ⟨step, hstep, heq⟩
    exact ⟨step, hsteps.mem_iff.mp (List.mem_append_left rest hstep), heq⟩
  · intro hstop step hstep
    have hnil : rest = [] := by
      rcases hrest with hnil | ⟨s, hs, hact, hfailed⟩
      · exact hnil
      · exact absurd hact (hstop s hs hfailed)
    rw [hnil, List.append_nil] at hsteps
    have hmem : step.stepId.str ∈
        result.completedSteps ++ result.failedSteps ++ result.skippedSteps :=
      hperm.mem_iff.mpr (mem_stepTexts.mpr ⟨step, hsteps.mem_iff.mpr hstep, rfl⟩)
    rw [List.mem_append, List.mem_append] at hmem
    exact exactlyOne_of_disjoint hmem (fun h h' => hcfDisj h h') (fun h h' => hdisj.1 h h')
      (fun h h' => hdisj.2 h h')
  · rw [hstatus, statusOf_eq_completed_iff]

/-! ## Emission -/

/-- The emitted actions are those of the completed steps, in order, and their payloads
together stay within the limit. -/
structure EmissionLaw (x : Execution) (result : ModelDeclarativeWorkflowResult) : Prop where
  in_order : result.actionsEmitted.map ModelAction.stepId = result.completedSteps
  only_completed : ∀ action ∈ result.actionsEmitted,
    action.stepId ∉ result.failedSteps ∧ action.stepId ∉ result.skippedSteps
  within_limit : (result.actionsEmitted.map (payloadSize x.env)).sum
    ≤ x.limits.maxTotalPayloadSizeBytes

/-! ## Satisfied dependencies -/

def Execution.Creates (x : Execution) (step : ModelWorkflowStep) : Prop :=
  ∃ created, x.createAction step = .ok created

instance (x : Execution) (step : ModelWorkflowStep) : Decidable (x.Creates step) :=
  match h : x.createAction step with
  | .ok created => isTrue ⟨created, h⟩
  | .error e => isFalse fun hc => by
      rcases hc with ⟨created, hcreated⟩
      rw [h] at hcreated
      cases hcreated

variable {step : ModelWorkflowStep}

theorem Execution.not_creates_iff {x : Execution} :
    ¬ x.Creates step ↔ ∃ e, x.createAction step = .error e := by
  unfold Execution.Creates
  cases x.createAction step with
  | error e => simp
  | ok created => simp

/-- The dependencies on an id are met: its step is disabled, or its own dependencies are met
and its action can be created. -/
inductive Satisfied (x : Execution) (steps : List ModelWorkflowStep) : UUID → Prop
  | disabled {step : ModelWorkflowStep} (hstep : step ∈ steps) (henabled : step.enabled = false) :
      Satisfied x steps step.stepId
  | completed {step : ModelWorkflowStep} (hstep : step ∈ steps) (henabled : step.enabled = true)
      (hcreates : x.Creates step) (hdeps : ∀ depId ∈ step.dependsOn, Satisfied x steps depId) :
      Satisfied x steps step.stepId

theorem WellFormedSteps.satisfied_iff {steps : List ModelWorkflowStep}
    (h : WellFormedSteps steps) {x : Execution} (hstep : step ∈ steps) :
    Satisfied x steps step.stepId ↔ step.enabled = false ∨ (step.enabled = true ∧
      x.Creates step ∧ ∀ depId ∈ step.dependsOn, Satisfied x steps depId) := by
  constructor
  · intro hsat
    generalize hid : step.stepId = id at hsat
    cases hsat with
    | @disabled s hs henabled =>
      rw [← h.eq_of_stepId_eq hstep hs hid] at henabled
      exact Or.inl henabled
    | @completed s hs henabled hcreates hdeps =>
      have heq := h.eq_of_stepId_eq hstep hs hid
      subst heq
      exact Or.inr ⟨henabled, hcreates, hdeps⟩
  · intro hcases
    rcases hcases with henabled | ⟨henabled, hcreates, hdeps⟩
    · exact .disabled hstep henabled
    · exact .completed hstep henabled hcreates hdeps

theorem dependenciesMet_iff {ids : Finset UUID} :
    dependenciesMet step ids = true ↔ ∀ depId ∈ step.dependsOn, depId ∈ ids := by
  unfold dependenciesMet
  rw [List.all_eq_true]
  simp only [decide_eq_true_eq]

/-- What a run without skips on failure makes of a list of steps. -/
structure OutcomeLists (x : Execution) (steps done : List ModelWorkflowStep)
    (completedSteps failedSteps skippedSteps : List String) : Prop where
  completed : ∀ t, t ∈ completedSteps ↔ ∃ step ∈ done, step.stepId.str = t ∧
    step.enabled = true ∧ Satisfied x steps step.stepId
  failed : ∀ t, t ∈ failedSteps ↔ ∃ step ∈ done, step.stepId.str = t ∧
    step.enabled = true ∧ ¬ Satisfied x steps step.stepId
  skipped : ∀ t, t ∈ skippedSteps ↔ ∃ step ∈ done, step.stepId.str = t ∧
    step.enabled = false

theorem exists_mem_concat {done : List ModelWorkflowStep} {p : ModelWorkflowStep → Prop} :
    (∃ s ∈ done ++ [step], p s) ↔ (∃ s ∈ done, p s) ∨ p step := by
  simp only [List.mem_append, List.mem_singleton, or_and_right, exists_or, exists_eq_left]

section
variable {x : Execution} {steps done : List ModelWorkflowStep}
  {completedSteps failedSteps skippedSteps : List String}

section
variable (h : OutcomeLists x steps done completedSteps failedSteps skippedSteps)
include h

theorem OutcomeLists.complete
    (henabled : step.enabled = true) (hsat : Satisfied x steps step.stepId) :
    OutcomeLists x steps (done ++ [step]) (completedSteps ++ [step.stepId.str]) failedSteps
      skippedSteps := by
  refine ⟨fun t => ?_, fun t => ?_, fun t => ?_⟩
  · rw [List.mem_append, List.mem_singleton, exists_mem_concat, h.completed]
    simp only [henabled, hsat, and_true, eq_comm (a := t)]
  · rw [exists_mem_concat, h.failed]
    simp [hsat]
  · rw [exists_mem_concat, h.skipped]
    simp [henabled]

theorem OutcomeLists.fail
    (henabled : step.enabled = true) (hsat : ¬ Satisfied x steps step.stepId) :
    OutcomeLists x steps (done ++ [step]) completedSteps (failedSteps ++ [step.stepId.str])
      skippedSteps := by
  refine ⟨fun t => ?_, fun t => ?_, fun t => ?_⟩
  · rw [exists_mem_concat, h.completed]
    simp [hsat]
  · rw [List.mem_append, List.mem_singleton, exists_mem_concat, h.failed]
    simp only [henabled, hsat, not_false_iff, and_true, eq_comm (a := t)]
  · rw [exists_mem_concat, h.skipped]
    simp [henabled]

theorem OutcomeLists.skip
    (henabled : step.enabled = false) :
    OutcomeLists x steps (done ++ [step]) completedSteps failedSteps
      (skippedSteps ++ [step.stepId.str]) := by
  refine ⟨fun t => ?_, fun t => ?_, fun t => ?_⟩
  · rw [exists_mem_concat, h.completed]
    simp [henabled]
  · rw [exists_mem_concat, h.failed]
    simp [henabled]
  · rw [List.mem_append, List.mem_singleton, exists_mem_concat, h.skipped]
    simp only [henabled, and_true, eq_comm (a := t)]

/-- The lists after a wave whose steps are as satisfied as they can be. -/
theorem OutcomeLists.append {l : List ModelWorkflowStep}
    (henabled : ∀ s ∈ l, s.enabled = true)
    (hsat : ∀ s ∈ l, (Satisfied x steps s.stepId ↔ x.Creates s)) :
    OutcomeLists x steps (done ++ l) (completedSteps ++ stepTexts (l.filter (x.Creates ·)))
      (failedSteps ++ stepTexts (l.filter (¬ x.Creates ·))) skippedSteps := by
  have hsplit : ∀ p : ModelWorkflowStep → Prop,
      (∃ s ∈ done ++ l, p s) ↔ (∃ s ∈ done, p s) ∨ ∃ s ∈ l, p s := by
    intro p
    simp only [List.mem_append, or_and_right, exists_or]
  refine ⟨fun t => ?_, fun t => ?_, fun t => ?_⟩
  · rw [List.mem_append, h.completed, hsplit, mem_stepTexts]
    apply or_congr_right
    constructor
    · intro hmem
      rcases hmem with ⟨s, hs, ht⟩
      rw [List.mem_filter, decide_eq_true_eq] at hs
      exact ⟨s, hs.1, ht, henabled s hs.1, (hsat s hs.1).mpr hs.2⟩
    · intro hmem
      rcases hmem with ⟨s, hs, ht, _, hyes⟩
      exact ⟨s, List.mem_filter.mpr ⟨hs, decide_eq_true ((hsat s hs).mp hyes)⟩, ht⟩
  · rw [List.mem_append, h.failed, hsplit, mem_stepTexts]
    apply or_congr_right
    constructor
    · intro hmem
      rcases hmem with ⟨s, hs, ht⟩
      rw [List.mem_filter, decide_eq_true_eq] at hs
      exact ⟨s, hs.1, ht, henabled s hs.1, fun hyes => hs.2 ((hsat s hs.1).mp hyes)⟩
    · intro hmem
      rcases hmem with ⟨s, hs, ht, _, hno⟩
      exact ⟨s, List.mem_filter.mpr ⟨hs, decide_eq_true fun hc => hno ((hsat s hs).mpr hc)⟩, ht⟩
  · rw [h.skipped, hsplit]
    refine (or_iff_left ?_).symm
    intro hmem
    rcases hmem with ⟨s, hs, _, hdisabled⟩
    rw [henabled s hs] at hdisabled
    cases hdisabled

theorem OutcomeLists.append_failed {l : List ModelWorkflowStep}
    (henabled : ∀ s ∈ l, s.enabled = true) (hsat : ∀ s ∈ l, ¬ Satisfied x steps s.stepId) :
    OutcomeLists x steps (done ++ l) completedSteps (failedSteps ++ stepTexts l)
      skippedSteps := by
  induction l generalizing done failedSteps with
  | nil => simpa using h
  | cons s l ih =>
    have hfail := h.fail (henabled s List.mem_cons_self) (hsat s List.mem_cons_self)
    have hrest := ih hfail (fun t ht => henabled t (List.mem_cons_of_mem s ht))
      (fun t ht => hsat t (List.mem_cons_of_mem s ht))
    simpa [stepTexts] using hrest

end

theorem OutcomeLists.of_perm {done' : List ModelWorkflowStep} (hperm : done.Perm done')
    (h : OutcomeLists x steps done completedSteps failedSteps skippedSteps) :
    OutcomeLists x steps done' completedSteps failedSteps skippedSteps := by
  refine ⟨fun t => ?_, fun t => ?_, fun t => ?_⟩
  · rw [h.completed]
    simp only [hperm.mem_iff]
  · rw [h.failed]
    simp only [hperm.mem_iff]
  · rw [h.skipped]
    simp only [hperm.mem_iff]

theorem Satisfied.congr {y : Execution} (hxy : ∀ s ∈ steps, x.Creates s → y.Creates s) {id : UUID}
    (h : Satisfied x steps id) : Satisfied y steps id := by
  induction h with
  | disabled hstep henabled => exact .disabled hstep henabled
  | completed hstep henabled hcreates _ ih =>
    exact .completed hstep henabled (hxy _ hstep hcreates) ih

theorem OutcomeLists.toFinset_eq {y : Execution} {completedSteps' failedSteps' skippedSteps' :
      List String} (hxy : ∀ s ∈ steps, (x.Creates s ↔ y.Creates s))
    (h : OutcomeLists x steps steps completedSteps failedSteps skippedSteps)
    (h' : OutcomeLists y steps steps completedSteps' failedSteps' skippedSteps') :
    completedSteps.toFinset = completedSteps'.toFinset ∧
      failedSteps.toFinset = failedSteps'.toFinset ∧
      skippedSteps.toFinset = skippedSteps'.toFinset := by
  have hsat : ∀ id, Satisfied x steps id ↔ Satisfied y steps id := fun id =>
    ⟨fun h => h.congr fun s hs => (hxy s hs).mp, fun h => h.congr fun s hs => (hxy s hs).mpr⟩
  refine ⟨?_, ?_, ?_⟩
  · ext t
    rw [List.mem_toFinset, List.mem_toFinset, h.completed, h'.completed]
    simp only [hsat]
  · ext t
    rw [List.mem_toFinset, List.mem_toFinset, h.failed, h'.failed]
    simp only [hsat]
  · ext t
    rw [List.mem_toFinset, List.mem_toFinset, h.skipped, h'.skipped]

end

end OmnibaseCore.Workflow
