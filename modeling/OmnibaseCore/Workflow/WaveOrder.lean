import OmnibaseCore.Graph.Layers
import OmnibaseCore.Workflow.ModeTheorems

/-!
# Waves

The wave of a step is the length of the longest chain of dependencies below it. Parallel
execution emits the actions wave by wave, and within a wave in the order of declaration. The
other modes follow the topological order, whose heap compares the declaration indices only.

`waveBoundaryGuarantee_iff` says for which workflows the two orders agree.
-/

namespace OmnibaseCore.Workflow

open FiniteGraph

/-- The wave of a step: 0 without dependencies, otherwise one more than the last wave of its
dependencies (`WellFormedSteps.isLayer_wave`). -/
def wave (steps : List ModelWorkflowStep) : UUID → ℕ :=
  rank (buildDependencyEdges steps) (steps.length + 1)

def WaveLt (steps : List ModelWorkflowStep) : UUID → UUID → Prop :=
  LayerLt (wave steps) (stepOrderKey steps)

instance (steps : List ModelWorkflowStep) : DecidableRel (WaveLt steps) :=
  fun a b => inferInstanceAs (Decidable (LayerLt (wave steps) (stepOrderKey steps) a b))

def InWaveOrder (steps : List ModelWorkflowStep) (texts : List String) : Prop :=
  ∃ l, texts = stepTexts l ∧ l.Perm steps ∧
    l.Pairwise fun s t => WaveLt steps s.stepId t.stepId

def AllCompleted (result : ModelDeclarativeWorkflowResult) : Prop :=
  result.failedSteps = [] ∧ result.skippedSteps = []

def emissionOrder (result : ModelDeclarativeWorkflowResult) : List String :=
  result.actionsEmitted.map ModelAction.stepId

/-- The topological order goes wave by wave, and so does what is emitted by sequential and by
batch execution, as by parallel execution. -/
structure WaveBoundaryGuarantee (steps : List ModelWorkflowStep) : Prop where
  topological : ∀ σ, (getTopologicalOrder σ steps).Pairwise (WaveLt steps)
  emission : ∀ {x σ mode result}, mode = .sequential ∨ mode = .batch →
    executeMode x σ steps mode = .ok result → AllCompleted result →
    InWaveOrder steps (emissionOrder result)
  parallel : ∀ {x y σ mode result result'}, mode = .sequential ∨ mode = .batch →
    executeMode x σ steps mode = .ok result → AllCompleted result →
    executeMode y σ steps .parallel = .ok result' → AllCompleted result' →
    emissionOrder result = emissionOrder result'

/-- No step that is declared before a step of the wave below its own can overtake it: it
depends on a step of that wave that is not declared earlier. -/
def NeverOvertakes (steps : List ModelWorkflowStep) : Prop :=
  ∀ s ∈ steps, ∀ t ∈ steps, wave steps t.stepId = wave steps s.stepId + 1 →
    stepOrderKey steps t.stepId < stepOrderKey steps s.stepId →
    ∃ depId ∈ t.dependsOn, wave steps depId = wave steps s.stepId ∧
      stepOrderKey steps s.stepId ≤ stepOrderKey steps depId

section
variable {steps : List ModelWorkflowStep}

/-! ## Waves and declaration indices -/

theorem WellFormedSteps.isLayer_wave (h : WellFormedSteps steps) :
    IsLayer (buildDependencyEdges steps) (wave steps) := by
  intro b
  have hsource : SourcesIn (steps.map ModelWorkflowStep.stepId) (buildDependencyEdges steps) := by
    intro a b hab
    rcases mem_stepIds.mp (edge_buildDependencyEdges.mp hab).mem_left with ⟨s, hs, rfl⟩
    exact List.mem_map_of_mem hs
  apply (acyclic_buildDependencyEdges_iff.mpr h.acyclic).rank_eq hsource
  rw [List.length_map]
  exact Nat.lt_succ_self _

variable {s : ModelWorkflowStep}

section
variable (h : WellFormedSteps steps)
include h

theorem WellFormedSteps.mem_buildDependencyEdges (hs : s ∈ steps)
    {depId : UUID} : depId ∈ buildDependencyEdges steps s.stepId ↔ depId ∈ s.dependsOn := by
  have hedge : Edge (buildDependencyEdges steps) s.stepId depId ↔
      DependsOn steps s.stepId depId := edge_buildDependencyEdges
  unfold Edge DependsOn at hedge
  rw [hedge]
  constructor
  · intro hdep
    rcases hdep with ⟨_, t, ht, heq, hdep⟩
    rwa [h.eq_of_stepId_eq ht hs heq] at hdep
  · exact fun hdep => ⟨h.dependsOn_mem s hs depId hdep, s, hs, rfl, hdep⟩

theorem WellFormedSteps.wave_lt (hs : s ∈ steps) {depId : UUID}
    (hdep : depId ∈ s.dependsOn) : wave steps depId < wave steps s.stepId :=
  h.isLayer_wave.lt ((h.mem_buildDependencyEdges hs).mpr hdep)

theorem WellFormedSteps.exists_dependency (hs : s ∈ steps) {n : ℕ}
    (hwave : wave steps s.stepId = n + 1) : ∃ depId ∈ s.dependsOn, wave steps depId = n := by
  rcases h.isLayer_wave.exists_pred hwave with ⟨depId, hdep, heq⟩
  exact ⟨depId, (h.mem_buildDependencyEdges hs).mp hdep, heq⟩

theorem WellFormedSteps.stepOrderKey_getElem {i : ℕ}
    (hi : i < steps.length) : stepOrderKey steps steps[i].stepId = i := by
  have hnodup : (steps.zipIdx.map fun p => p.1.stepId).Nodup := by
    have hmap : (steps.zipIdx.map fun p => p.1.stepId)
        = (steps.zipIdx.map Prod.fst).map ModelWorkflowStep.stepId := by
      rw [List.map_map]
      rfl
    rw [hmap, List.zipIdx_map_fst]
    exact h.nodup
  have hmem : (steps[i], i) ∈ steps.zipIdx := List.mk_mem_zipIdx_iff_getElem?.mpr (by simp [hi])
  exact foldl_update_of_nodup (fun p : ModelWorkflowStep × ℕ => p.1.stepId) Prod.snd
    (fun _ => 0) hnodup hmem

theorem WellFormedSteps.stepOrderKey_injective
    {s t : ModelWorkflowStep} (hs : s ∈ steps) (ht : t ∈ steps)
    (heq : stepOrderKey steps s.stepId = stepOrderKey steps t.stepId) : s = t := by
  rcases List.mem_iff_getElem.mp hs with ⟨i, hi, rfl⟩
  rcases List.mem_iff_getElem.mp ht with ⟨j, hj, rfl⟩
  rw [h.stepOrderKey_getElem hi, h.stepOrderKey_getElem hj] at heq
  subst heq
  rfl

theorem WellFormedSteps.pairwise_stepOrderKey :
    steps.Pairwise fun s t => stepOrderKey steps s.stepId < stepOrderKey steps t.stepId := by
  rw [List.pairwise_iff_getElem]
  intro i j hi hj hij
  rwa [h.stepOrderKey_getElem hi, h.stepOrderKey_getElem hj]

end

/-! ## The topological order -/

theorem greedy_getTopologicalOrder (σ : SetOrder UUID) (steps : List ModelWorkflowStep) :
    Greedy (σ.iter (stepIds steps)) (buildAdjacencyListAndInDegree steps).edges
      (stepOrderKey steps) (getTopologicalOrder σ steps) := by
  intro l₁ a l₂ heq
  rcases (getTopologicalOrder_spec σ steps).greedy l₁ a l₂ heq with ⟨havail, hleast⟩
  refine ⟨havail, fun b hb => ?_⟩
  have hle : heapKey steps a ≤ heapKey steps b := hleast b hb
  unfold heapKey at hle
  rcases (Prod.Lex.toLex_le_toLex).mp hle with hlt | ⟨heq, _⟩
  · exact hlt.le
  · exact heq.le

theorem WellFormedSteps.topologicalOrder_iff (h : WellFormedSteps steps) (σ : SetOrder UUID) :
    (getTopologicalOrder σ steps).Pairwise (WaveLt steps) ↔ NeverOvertakes steps := by
  have hin := kahnInput σ steps
  have hmem : ∀ id, id ∈ σ.iter (stepIds steps) ↔ ∃ s ∈ steps, s.stepId = id :=
    fun id => (σ.mem_iter _ id).trans mem_stepIds
  have hkey : ∀ a ∈ σ.iter (stepIds steps), ∀ b ∈ σ.iter (stepIds steps),
      stepOrderKey steps a = stepOrderKey steps b → a = b := by
    intro a ha b hb heq
    rcases (hmem a).mp ha with ⟨s, hs, rfl⟩
    rcases (hmem b).mp hb with ⟨t, ht, rfl⟩
    rw [h.stepOrderKey_injective hs ht heq]
  have hpred : ∀ a b, a ∈ buildDependencyEdges steps b ↔
      Edge (buildAdjacencyListAndInDegree steps).edges a b :=
    fun a b => edge_buildDependencyEdges.trans edge_edges.symm
  have hnodes : ∀ a, a ∈ getTopologicalOrder σ steps ↔ a ∈ σ.iter (stepIds steps) :=
    fun a => (mem_getTopologicalOrder σ h.acyclic).trans (σ.mem_iter _ a).symm
  unfold WaveLt
  rw [(greedy_getTopologicalOrder σ steps).pairwise_layerLt_iff hin.source hpred h.isLayer_wave
    (getTopologicalOrder_spec σ steps).nodup hnodes hkey]
  unfold NeverOvertakes
  constructor
  · intro hall s hs t ht hwave hlt
    rcases hall s.stepId ((hmem _).mpr ⟨s, hs, rfl⟩) t.stepId ((hmem _).mpr ⟨t, ht, rfl⟩) hwave hlt
      with ⟨depId, hdep, hrest⟩
    exact ⟨depId, (h.mem_buildDependencyEdges ht).mp hdep, hrest⟩
  · intro hall a ha b hb hwave hlt
    rcases (hmem a).mp ha with ⟨s, hs, rfl⟩
    rcases (hmem b).mp hb with ⟨t, ht, rfl⟩
    rcases hall s hs t ht hwave hlt with ⟨depId, hdep, hrest⟩
    exact ⟨depId, (h.mem_buildDependencyEdges ht).mpr hdep, hrest⟩

/-- Two lists of all steps that both go wave by wave are equal. -/
theorem InWaveOrder.unique {texts texts' : List String} (h : InWaveOrder steps texts)
    (h' : InWaveOrder steps texts') : texts = texts' := by
  rcases h with ⟨l, rfl, hperm, hsorted⟩
  rcases h' with ⟨l', rfl, hperm', hsorted'⟩
  have heq : l = l' := by
    apply List.Perm.eq_of_pairwise _ hsorted hsorted' (hperm.trans hperm'.symm)
    intro s t _ _ hst hts
    exact absurd hts hst.asymm
  rw [heq]

/-! ## Sequential emission -/

/-- As long as no step has failed or been skipped, the steps visited are the completed ones. -/
def CompletedSoFar (done : List ModelWorkflowStep) (st : SequentialState) : Prop :=
  st.failedSteps = [] → st.skippedSteps = [] →
    st.completedSteps = stepTexts done ∧ st.allActions.map ModelAction.stepId = stepTexts done

variable {x : Execution}

theorem SequentialStep.completedSoFar {step : ModelWorkflowStep} {st st' : SequentialState}
    {stop : Bool} (hstep : SequentialStep x step st st' stop) {done : List ModelWorkflowStep}
    (h : CompletedSoFar done st) : CompletedSoFar (done ++ [step]) st' := by
  have hfail : ∀ st₁ : SequentialState, (st₁.fail step).failedSteps ≠ [] := by
    intro st₁
    simp [SequentialState.fail]
  have hskip : ∀ st₁ : SequentialState, (st₁.skip step).skippedSteps ≠ [] := by
    intro st₁
    simp [SequentialState.skip]
  cases hstep with
  | timedOut => exact fun hfailed => absurd hfailed (hfail _)
  | disabled => exact fun _ hskipped => absurd hskipped (hskip _)
  | blocked => exact fun hfailed => absurd hfailed (hfail _)
  | skipped => exact fun _ hskipped => absurd hskipped (hskip _)
  | failed => exact fun hfailed => absurd hfailed (hfail _)
  | overflowed => exact fun hfailed => absurd hfailed (hfail _)
  | completed _ _ _ _ haction _ =>
    intro hfailed hskipped
    rcases h hfailed hskipped with ⟨hcompleted, hactions⟩
    unfold SequentialState.complete SequentialState.emit SequentialState.tick
    dsimp only
    rw [List.map_append, List.map_singleton, hcompleted, hactions,
      (Execution.createAction_ok haction).1, stepTexts_append, stepTexts_singleton]
    exact ⟨rfl, rfl⟩

theorem executeSequential_emissionOrder {σ : SetOrder UUID}
    (h : AllCompleted (executeSequential x σ steps)) :
    emissionOrder (executeSequential x σ steps) = stepTexts (executionOrder σ steps) := by
  have hinit : CompletedSoFar [] .init := fun _ _ => ⟨rfl, rfl⟩
  have hturn : ∀ done step rest st, executionOrder σ steps = done ++ step :: rest →
      CompletedSoFar done st → CompletedSoFar (done ++ [step]) (sequentialBody x step st).1 :=
    fun done step rest st _ h => (sequentialBody_spec x step st).completedSoFar h
  rcases forBreak_rule CompletedSoFar hinit hturn with ⟨done, rest, horder, hcompleted, hrest⟩
  have hactions := (hcompleted h.1 h.2).2
  rcases hrest with hrest | ⟨done', step, st, _, _, hbody⟩
  · rw [hrest, List.append_nil] at horder
    rw [horder]
    exact hactions
  · -- no step has stopped the loop, for none has failed
    have hspec := sequentialBody_spec x step st
    rw [hbody] at hspec
    have hmem := hspec.stop.2
    have hnil : (sequentialRun x σ steps).failedSteps = [] := h.1
    unfold sequentialRun at hnil
    rw [hnil] at hmem
    cases hmem

/-! ## Parallel emission -/

/-- As long as no step has failed or been skipped, the waves below `k` are completed, one after
the other. -/
def CompletedWaves (steps : List ModelWorkflowStep) (st : ParallelState) : Prop :=
  st.failedSteps = [] → st.skippedSteps = [] → ∃ k l,
    st.completedSteps = stepTexts l ∧
    (l.Pairwise fun s t => WaveLt steps s.stepId t.stepId) ∧
    (∀ s, s ∈ l ↔ s ∈ steps ∧ wave steps s.stepId < k) ∧
    (∀ id, id ∈ st.completedStepIds ↔ ∃ s ∈ l, s.stepId = id) ∧
    st.remainingSteps = steps.filter fun s => k ≤ wave steps s.stepId

theorem ParallelStart.completedWaves {st : ParallelState} (h : ParallelStart steps st) :
    CompletedWaves steps st := by
  intro _ hskipped
  rw [h.skipped] at hskipped
  have henabled : ∀ s ∈ steps, s.enabled = true := by
    intro s hs
    by_contra hdisabled
    have hmem : s ∈ steps.filter fun s => !s.enabled := List.mem_filter.mpr ⟨hs, by simpa using hdisabled⟩
    rw [List.map_eq_nil_iff.mp hskipped] at hmem
    cases hmem
  refine ⟨0, [], h.completed, List.Pairwise.nil, by simp, fun id => ?_, ?_⟩
  · rw [h.ids]
    simp only [List.not_mem_nil, false_and, exists_false, iff_false, not_exists, not_and]
    intro s hs hdisabled
    rw [henabled s hs] at hdisabled
    cases hdisabled
  · rw [h.remaining]
    simpa using henabled

/-- After all steps of the waves before, the steps of a wave are ready. -/
theorem readySteps_eq_wave (hwf : WellFormedSteps steps) {st : ParallelState} {k : ℕ}
    {l : List ModelWorkflowStep} (hfailed : st.failedSteps = [])
    (hl : ∀ s, s ∈ l ↔ s ∈ steps ∧ wave steps s.stepId < k)
    (hids : ∀ id, id ∈ st.completedStepIds ↔ ∃ s ∈ l, s.stepId = id)
    (hremaining : st.remainingSteps = steps.filter fun s => k ≤ wave steps s.stepId) :
    st.readySteps = steps.filter fun s => wave steps s.stepId = k := by
  unfold ParallelState.readySteps
  rw [hremaining, List.filter_filter]
  apply List.filter_congr
  intro s hs
  have hdone : ∀ depId ∈ s.dependsOn, depId ∈ st.completedStepIds ↔ wave steps depId < k := by
    intro depId hdep
    rw [hids]
    constructor
    · intro hmem
      rcases hmem with ⟨t, ht, rfl⟩
      exact ((hl t).mp ht).2
    · intro hlt
      rcases mem_stepIds.mp (hwf.dependsOn_mem s hs depId hdep) with ⟨t, ht, rfl⟩
      exact ⟨t, (hl t).mpr ⟨ht, hlt⟩, rfl⟩
  have hmet : dependenciesMet s st.completedStepIds = true ↔ wave steps s.stepId ≤ k := by
    rw [dependenciesMet_iff]
    constructor
    · intro hdeps
      by_contra hlt
      rcases hwf.exists_dependency hs (n := wave steps s.stepId - 1) (by omega)
        with ⟨depId, hdep, heq⟩
      have := (hdone depId hdep).mp (hdeps depId hdep)
      omega
    · intro hle depId hdep
      have := hwf.wave_lt hs hdep
      exact (hdone depId hdep).mpr (by omega)
  rw [Bool.eq_iff_iff]
  simp only [hfailed, ne_eq, not_true_eq_false, decide_false, Bool.and_false, Bool.not_false,
    Bool.and_true, Bool.and_eq_true, hmet, decide_eq_true_eq]
  omega

/-- A wave that goes on completes one more wave. -/
theorem CompletedWaves.advance (hwf : WellFormedSteps steps) {st st' : ParallelState}
    {done ignored : List ModelWorkflowStep} (h : CompletedWaves steps st)
    (hsplit : st.readySteps = done ++ ignored)
    (hdone : Processed x done (st.tick.skipSteps st.skipOnFailureSteps) st')
    (hend : (st'.shouldStop = false ∧ ignored = []) ∨ (st'.shouldStop = true ∧
      ∃ step ∈ done, ¬ x.Creates step ∧ step.errorAction = .stop)) : CompletedWaves steps
      { st' with remainingSteps := st'.remainingSteps.filter fun s => s ∉ st.readySteps } := by
  intro hfailed' hskipped'
  dsimp only at hfailed' hskipped'
  have hskip := skipSteps_spec st.skipOnFailureSteps st.tick
  rw [hdone.failed, hskip.failed] at hfailed'
  rw [hdone.skipped, hskip.skipped] at hskipped'
  have hfailed : st.failedSteps = [] := (List.append_eq_nil_iff.mp hfailed').1
  have hskipped : st.skippedSteps = [] := (List.append_eq_nil_iff.mp hskipped').1
  -- as nothing has failed, every step of the wave was created
  have hcreates : ∀ s ∈ done, x.Creates s := by
    intro s hs
    by_contra hno
    have hmem : s ∈ done.filter (¬ x.Creates ·) := List.mem_filter.mpr ⟨hs, by simpa using hno⟩
    rw [List.map_eq_nil_iff.mp (List.append_eq_nil_iff.mp hfailed').2] at hmem
    cases hmem
  have hignored : ignored = [] := by
    rcases hend with hend | ⟨_, step, hstep, hno, _⟩
    · exact hend.2
    · exact absurd (hcreates step hstep) hno
  rw [hignored, List.append_nil] at hsplit
  subst hsplit
  rcases h hfailed hskipped with ⟨k, l, hcompleted, hsorted, hl, hids, hremaining⟩
  have hready := readySteps_eq_wave hwf hfailed hl hids hremaining
  have hmem : ∀ s, s ∈ st.readySteps ↔ s ∈ steps ∧ wave steps s.stepId = k := by
    intro s
    rw [hready, List.mem_filter, decide_eq_true_eq]
  have hnoskip : st.skipOnFailureSteps = [] := by
    rw [List.eq_nil_iff_forall_not_mem]
    intro s hs
    exact (mem_skipOnFailureSteps.mp hs).2.2.2 hfailed
  refine ⟨k + 1, l ++ st.readySteps, ?_, ?_, fun s => ?_, fun id => ?_, ?_⟩
  · dsimp only
    rw [hdone.completed, hskip.completed, stepTexts_append,
      List.filter_eq_self.mpr fun s hs => decide_eq_true (hcreates s hs)]
    exact congrArg (· ++ stepTexts st.readySteps) hcompleted
  · rw [List.pairwise_append]
    refine ⟨hsorted, ?_, fun s hs t ht => ?_⟩
    · rw [hready]
      have hordered := hwf.pairwise_stepOrderKey.filter fun s => wave steps s.stepId = k
      refine hordered.imp_of_mem fun hs ht hlt => ?_
      rw [List.mem_filter, decide_eq_true_eq] at hs ht
      exact Or.inr ⟨hs.2.trans ht.2.symm, hlt⟩
    · have hlt := ((hl s).mp hs).2
      have heq := ((hmem t).mp ht).2
      exact Or.inl (by omega)
  · rw [List.mem_append, hl, hmem]
    constructor
    · intro hs
      rcases hs with ⟨hs, hlt⟩ | ⟨hs, heq⟩
      · exact ⟨hs, by omega⟩
      · exact ⟨hs, by omega⟩
    · intro hs
      rcases Nat.lt_succ_iff_lt_or_eq.mp hs.2 with hlt | heq
      · exact Or.inl ⟨hs.1, hlt⟩
      · exact Or.inr ⟨hs.1, heq⟩
  · dsimp only
    rw [hdone.ids, hskip.ids, hnoskip]
    have hold : id ∈ st.tick.completedStepIds ↔ ∃ s ∈ l, s.stepId = id := hids id
    rw [hold]
    simp only [List.not_mem_nil, false_and, exists_false, or_false, List.mem_append, or_and_right,
      exists_or]
    refine or_congr_right (exists_congr fun s => ?_)
    exact ⟨fun hs => ⟨hs.1, hs.2.2⟩, fun hs => ⟨hs.1, hcreates s hs.1, hs.2⟩⟩
  · dsimp only
    rw [hdone.remaining, hskip.remaining, hnoskip, List.diff_nil]
    have hold : st.tick.remainingSteps = steps.filter fun s => k ≤ wave steps s.stepId :=
      hremaining
    rw [hold, List.filter_filter]
    apply List.filter_congr
    intro s hs
    rw [Bool.eq_iff_iff, Bool.and_eq_true, decide_eq_true_eq, decide_eq_true_eq,
      decide_eq_true_eq, hmem]
    constructor
    · intro hboth
      have hne : wave steps s.stepId ≠ k := fun heq => hboth.1 ⟨hs, heq⟩
      omega
    · intro hle
      exact ⟨fun hready => by omega, by omega⟩

variable {result : ModelDeclarativeWorkflowResult}

/-- A run in which all complete emits its actions wave by wave. -/
theorem executeParallel_inWaveOrder (hwf : WellFormedSteps steps)
    (h : executeParallel x steps = .ok result)
    (hall : AllCompleted result) : InWaveOrder steps (emissionOrder result) := by
  have hpart := executeParallel_partition hwf h
  have hlaw := executeParallel_emissionLaw hwf h
  unfold emissionOrder
  rw [hlaw.in_order]
  rcases exists_parallelRun h with ⟨st, hrun, hc, hf, hs, _, _⟩
  have hturn : ∀ st st', CompletedWaves steps st → st.shouldStop = false → Wave x st st' false →
      CompletedWaves steps st' := by
    intro st st' hI _ hwave
    cases hwave with
    | advanced _ _ hsplit hdone hend => exact hI.advance hwf hsplit hdone hend
  rcases parallelRun_rule _ (parallelStart steps).completedWaves hturn hrun with
    ⟨last, hlast, hend⟩
  -- a last turn that breaks has failed nothing either, so it has changed nothing
  have hsame : st.completedSteps = last.completedSteps ∧ last.failedSteps = [] ∧
      last.skippedSteps = [] := by
    rw [hall.1] at hf
    rw [hall.2] at hs
    rcases hend with ⟨rfl, _⟩ | ⟨_, hwave⟩
    · exact ⟨rfl, hf.symm, hs.symm⟩
    · cases hwave with
      | timedOut =>
        rw [failRemaining_eq] at hf hs ⊢
        exact ⟨rfl, (List.append_eq_nil_iff.mp hf.symm).1, hs.symm⟩
      | stalled =>
        have hskip := skipSteps_spec last.skipOnFailureSteps last.tick
        rw [failRemaining_eq] at hf hs ⊢
        dsimp only at hf hs ⊢
        rw [hskip.failed] at hf
        rw [hskip.skipped] at hs
        exact ⟨hskip.completed, (List.append_eq_nil_iff.mp hf.symm).1,
          (List.append_eq_nil_iff.mp hs.symm).1⟩
  rcases hlast hsame.2.1 hsame.2.2 with ⟨k, l, hcompleted, hsorted, hl, _, _⟩
  have heq : result.completedSteps = stepTexts l := by rw [hc, hsame.1, hcompleted]
  refine ⟨l, heq, ?_, hsorted⟩
  have hnodup : l.Nodup := hsorted.imp fun hlt heq => by
    rw [heq] at hlt
    exact hlt.asymm hlt
  rw [List.perm_ext_iff_of_nodup hnodup hwf.nodup_steps]
  intro s
  refine ⟨fun hs => ((hl s).mp hs).1, fun hs => ?_⟩
  have hone := hpart.covered (by simp [hall.1]) s hs
  rw [hall.1, hall.2, heq] at hone
  have hsub : l ⊆ steps := fun t ht => ((hl t).mp ht).1
  rw [hwf.str_mem_iff hsub hs] at hone
  unfold ExactlyOne at hone
  simpa using hone

/-! ## The guarantee -/

theorem emissionOrder_eq {σ : SetOrder UUID} {mode : EnumExecutionMode}
    (hmode : mode = .sequential ∨ mode = .batch)
    (h : executeMode x σ steps mode = .ok result) (hall : AllCompleted result) :
    emissionOrder result = stepTexts (executionOrder σ steps) := by
  have hbatch : ∀ {r : ModelDeclarativeWorkflowResult}, AllCompleted (executeSequential x σ steps) →
      r.actionsEmitted = (executeSequential x σ steps).actionsEmitted →
      emissionOrder r = stepTexts (executionOrder σ steps) := by
    intro r hcompleted heq
    unfold emissionOrder
    rw [heq]
    exact executeSequential_emissionOrder hcompleted
  rcases hmode with rfl | rfl
  · cases h
    exact hbatch hall rfl
  · cases h
    exact hbatch hall rfl

/-- The order of all modes is that of the waves exactly for the workflows in which no step
overtakes a step of the wave below its own. -/
theorem waveBoundaryGuarantee_iff (hwf : WellFormedSteps steps) :
    WaveBoundaryGuarantee steps ↔ NeverOvertakes steps := by
  constructor
  · intro h
    exact (hwf.topologicalOrder_iff (.ascending UUID)).mp (h.topological _)
  · intro h
    have htopological : ∀ σ, (getTopologicalOrder σ steps).Pairwise (WaveLt steps) :=
      fun σ => (hwf.topologicalOrder_iff σ).mpr h
    have horder : ∀ σ, InWaveOrder steps (stepTexts (executionOrder σ steps)) := by
      intro σ
      refine ⟨_, rfl, hwf.executionOrder_perm σ, ?_⟩
      have hpairwise := htopological σ
      rw [← hwf.map_executionOrder σ, List.pairwise_map] at hpairwise
      exact hpairwise
    refine ⟨htopological, fun hmode hrun hall => ?_, fun hmode hrun hall hparallel hall' => ?_⟩
    · rw [emissionOrder_eq hmode hrun hall]
      exact horder _
    · rw [emissionOrder_eq hmode hrun hall]
      exact (horder _).unique (executeParallel_inWaveOrder hwf hparallel hall')

end

/-- The second step depends on the first, the third is declared after it: the topological order
is that of the declarations, but the third step belongs to the first wave. -/
def overtakingSteps : List ModelWorkflowStep := [
  computeStep 1 "first" [],
  computeStep 2 "second" [⟨1⟩],
  computeStep 3 "third" []]

theorem overtakingSteps_accepted : Accepted (.ascending UUID) (Limits.ofEnv none none none)
    (computeExecution (Limits.ofEnv none none none)).definition overtakingSteps := by
  decide +kernel

theorem waveBoundaryGuarantee_iff_overtakingSteps :
    WaveBoundaryGuarantee overtakingSteps ↔ NeverOvertakes overtakingSteps :=
  waveBoundaryGuarantee_iff overtakingSteps_accepted.wellFormed

theorem overtakingSteps_not_waveBoundaryGuarantee :
    WellFormedSteps overtakingSteps ∧
      getTopologicalOrder (.ascending UUID) overtakingSteps = [⟨1⟩, ⟨2⟩, ⟨3⟩] ∧
      wave overtakingSteps ⟨2⟩ = 1 ∧ wave overtakingSteps ⟨3⟩ = 0 ∧
      ¬ WaveBoundaryGuarantee overtakingSteps := by
  refine ⟨overtakingSteps_accepted.wellFormed, by decide +kernel, by decide +kernel,
    by decide +kernel, fun h => ?_⟩
  have horder := h.topological (.ascending UUID)
  revert horder
  decide +kernel

end OmnibaseCore.Workflow
