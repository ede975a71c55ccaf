import OmnibaseCore.Workflow.Outcome

/-!
# Theorems about sequential execution

`SequentialStep` lists what one turn of the loop can do. The invariants of the loop follow
from it case by case: the three lists of results partition the steps visited so far
(`SequentialPartition`), and the actions emitted are those of the completed steps as long as
the payloads stay within their limit (`SequentialEmission`).
-/

namespace OmnibaseCore.Workflow

open FiniteGraph

section
variable {steps : List ModelWorkflowStep}

/-! ## The order of the loop -/

variable {step : ModelWorkflowStep}

theorem stepsById_of_mem (h : (steps.map ModelWorkflowStep.stepId).Nodup) (hstep : step ∈ steps) :
    stepsById steps step.stepId = some step :=
  foldl_update_of_nodup ModelWorkflowStep.stepId some (fun _ => none) h hstep

theorem mem_of_stepsById {id : UUID}
    (h : stepsById steps id = some step) : step ∈ steps ∧ step.stepId = id := by
  by_cases hid : id ∈ steps.map ModelWorkflowStep.stepId
  · rcases exists_of_foldl_update ModelWorkflowStep.stepId some steps (fun _ => none) hid with
      ⟨s, hs, hkey, heq⟩
    have hsome : some step = some s := h.symm.trans heq
    cases hsome
    exact ⟨hs, hkey⟩
  · have hnone : stepsById steps id = none :=
      foldl_update_of_notMem ModelWorkflowStep.stepId some steps (fun _ => none) hid
    rw [hnone] at h
    cases h

theorem getTopologicalOrder_spec (σ : SetOrder UUID) (steps : List ModelWorkflowStep) :
    KahnResult (Worklist.heap (heapKey steps)) (σ.iter (stepIds steps))
      (buildAdjacencyListAndInDegree steps).edges (getTopologicalOrder σ steps) :=
  kahn_spec (kahnInput σ steps)

theorem mem_getTopologicalOrder (σ : SetOrder UUID) (h : ¬ HasDirectedCycle steps) {id : UUID} :
    id ∈ getTopologicalOrder σ steps ↔ id ∈ stepIds steps := by
  have hin := kahnInput σ steps
  have hspec := getTopologicalOrder_spec σ steps
  constructor
  · intro hid
    exact (σ.mem_iter _ id).mp (hspec.subset id hid)
  · intro hid
    exact hspec.mem_of_acyclic hin.source hin.target (acyclic_edges_iff.mpr h) id
      ((σ.mem_iter _ id).mpr hid)

theorem WellFormedSteps.map_executionOrder (h : WellFormedSteps steps) (σ : SetOrder UUID) :
    (executionOrder σ steps).map ModelWorkflowStep.stepId = getTopologicalOrder σ steps := by
  unfold executionOrder
  have hmem : ∀ id ∈ getTopologicalOrder σ steps, ∃ step ∈ steps, step.stepId = id := by
    intro id hid
    exact mem_stepIds.mp ((mem_getTopologicalOrder σ h.acyclic).mp hid)
  generalize getTopologicalOrder σ steps = order at hmem
  induction order with
  | nil => rfl
  | cons id order ih =>
    rcases hmem id List.mem_cons_self with ⟨step, hstep, rfl⟩
    rw [List.filterMap_cons_some (stepsById_of_mem h.nodup hstep), List.map_cons,
      ih fun id hid => hmem id (List.mem_cons_of_mem _ hid)]

theorem WellFormedSteps.executionOrder_perm (h : WellFormedSteps steps) (σ : SetOrder UUID) :
    (executionOrder σ steps).Perm steps := by
  have horder : (executionOrder σ steps).Nodup := by
    apply List.Nodup.of_map ModelWorkflowStep.stepId
    rw [h.map_executionOrder]
    exact (getTopologicalOrder_spec σ steps).nodup
  rw [List.perm_ext_iff_of_nodup horder h.nodup_steps]
  intro step
  unfold executionOrder
  rw [List.mem_filterMap]
  constructor
  · intro hmem
    rcases hmem with ⟨id, _, hid⟩
    exact (mem_of_stepsById hid).1
  · intro hstep
    refine ⟨step.stepId, ?_, stepsById_of_mem h.nodup hstep⟩
    rw [mem_getTopologicalOrder σ h.acyclic]
    exact mem_stepIds.mpr ⟨step, hstep, rfl⟩

theorem WellFormedSteps.dependency_before (h : WellFormedSteps steps) {σ : SetOrder UUID}
    {done rest : List ModelWorkflowStep}
    (horder : executionOrder σ steps = done ++ step :: rest) {depId : UUID}
    (hdep : depId ∈ step.dependsOn) : ∃ s ∈ done, s.stepId = depId := by
  have hstep : step ∈ steps :=
    (h.executionOrder_perm σ).mem_iff.mp (by rw [horder]; simp)
  have hedge : Edge (buildAdjacencyListAndInDegree steps).edges depId step.stepId :=
    edge_edges.mpr ⟨h.dependsOn_mem step hstep depId hdep, step, hstep, rfl, hdep⟩
  have hids := h.map_executionOrder σ
  rw [horder, List.map_append, List.map_cons] at hids
  have havail := (getTopologicalOrder_spec σ steps).available hids.symm
  exact List.mem_map.mp (havail.2.2 depId hedge)

end

/-! ## One turn of the loop -/

def SequentialState.tick (st : SequentialState) : SequentialState :=
  { st with clockReads := st.clockReads + 1 }

/-- What one turn of the loop can do. -/
inductive SequentialStep (x : Execution) (step : ModelWorkflowStep) (st : SequentialState) :
    SequentialState → Bool → Prop
  | timedOut (htime : x.timedOut st.clockReads = true) :
      SequentialStep x step st (st.tick.fail step) false
  | disabled (htime : x.timedOut st.clockReads = false) (henabled : step.enabled = false) :
      SequentialStep x step st (st.tick.skip step) false
  | blocked (htime : x.timedOut st.clockReads = false) (henabled : step.enabled = true)
      (hdeps : dependenciesMet step st.completedStepIds = false) :
      SequentialStep x step st (st.tick.fail step) false
  | skipped (htime : x.timedOut st.clockReads = false) (henabled : step.enabled = true)
      (hdeps : dependenciesMet step st.completedStepIds = true)
      (hskip : step.skipOnFailure = true) (hfailed : st.failedSteps ≠ []) :
      SequentialStep x step st (st.tick.skip step) false
  | failed (htime : x.timedOut st.clockReads = false) (henabled : step.enabled = true)
      (hdeps : dependenciesMet step st.completedStepIds = true)
      (hskip : ¬ (step.skipOnFailure = true ∧ st.failedSteps ≠ []))
      {e : PyException} (haction : x.createAction step = .error e) :
      SequentialStep x step st (st.tick.fail step) (step.errorAction = .stop)
  | overflowed (htime : x.timedOut st.clockReads = false) (henabled : step.enabled = true)
      (hdeps : dependenciesMet step st.completedStepIds = true)
      (hskip : ¬ (step.skipOnFailure = true ∧ st.failedSteps ≠ []))
      {action : ModelAction} {size : ℕ} (haction : x.createAction step = .ok (action, size))
      (hsize : x.limits.maxTotalPayloadSizeBytes < st.totalPayloadSize + size) :
      SequentialStep x step st ((st.tick.emit action size).fail step) (step.errorAction = .stop)
  | completed (htime : x.timedOut st.clockReads = false) (henabled : step.enabled = true)
      (hdeps : dependenciesMet step st.completedStepIds = true)
      (hskip : ¬ (step.skipOnFailure = true ∧ st.failedSteps ≠ []))
      {action : ModelAction} {size : ℕ} (haction : x.createAction step = .ok (action, size))
      (hsize : st.totalPayloadSize + size ≤ x.limits.maxTotalPayloadSizeBytes) :
      SequentialStep x step st ((st.tick.emit action size).complete step) false

theorem sequentialBody_spec (x : Execution) (step : ModelWorkflowStep) (st : SequentialState) :
    SequentialStep x step st (sequentialBody x step st).1 (sequentialBody x step st).2 := by
  unfold sequentialBody
  dsimp only
  by_cases htime : x.timedOut st.clockReads = true
  · rw [if_pos htime]
    exact .timedOut htime
  rw [if_neg htime]
  rw [Bool.not_eq_true] at htime
  by_cases henabled : step.enabled = true
  · rw [if_neg (not_not.mpr henabled)]
    by_cases hdeps : dependenciesMet step st.completedStepIds = true
    · rw [if_neg (not_not.mpr hdeps)]
      by_cases hskip : step.skipOnFailure = true ∧ st.failedSteps ≠ []
      · rw [if_pos hskip]
        exact .skipped htime henabled hdeps hskip.1 hskip.2
      · rw [if_neg hskip]
        cases haction : x.createAction step with
        | error e => exact .failed htime henabled hdeps hskip haction
        | ok created =>
          rcases created with ⟨action, size⟩
          dsimp only
          split_ifs with hsize
          · exact .overflowed htime henabled hdeps hskip haction hsize
          · exact .completed htime henabled hdeps hskip haction (Nat.le_of_not_lt hsize)
    · rw [if_pos hdeps]
      exact .blocked htime henabled (Bool.not_eq_true _ ▸ hdeps)
  · rw [if_pos henabled]
    exact .disabled htime (Bool.not_eq_true _ ▸ henabled)

/-! ## The results partition the steps -/

/-- The three lists together hold each visited step once. -/
def SequentialPartition (done : List ModelWorkflowStep) (st : SequentialState) : Prop :=
  (st.completedSteps ++ st.failedSteps ++ st.skippedSteps).Perm (stepTexts done)

theorem perm_concat {l l' d : List String} {a : String} (h : l.Perm d)
    (h' : l'.Perm (a :: l)) : l'.Perm (d ++ [a]) :=
  (h'.trans (h.cons a)).trans (List.perm_append_singleton a d).symm

variable {done : List ModelWorkflowStep}

section
variable {st : SequentialState} (h : SequentialPartition done st)
include h

theorem SequentialPartition.fail (step : ModelWorkflowStep) :
    SequentialPartition (done ++ [step]) (st.fail step) := by
  unfold SequentialPartition SequentialState.fail at *
  rw [stepTexts_append, stepTexts_singleton]
  apply perm_concat h
  dsimp only
  rw [← List.append_assoc, List.append_assoc, List.singleton_append]
  exact List.perm_middle

theorem SequentialPartition.skip (step : ModelWorkflowStep) :
    SequentialPartition (done ++ [step]) (st.skip step) := by
  unfold SequentialPartition SequentialState.skip at *
  rw [stepTexts_append, stepTexts_singleton]
  apply perm_concat h
  dsimp only
  rw [← List.append_assoc]
  exact List.perm_append_singleton _ _

theorem SequentialPartition.complete (step : ModelWorkflowStep) :
    SequentialPartition (done ++ [step]) (st.complete step) := by
  unfold SequentialPartition SequentialState.complete at *
  rw [stepTexts_append, stepTexts_singleton]
  apply perm_concat h
  dsimp only
  rw [List.append_assoc, List.append_assoc, List.singleton_append, List.append_assoc]
  exact List.perm_middle

end

variable {st st' : SequentialState} {x : Execution}

variable {step : ModelWorkflowStep}

/-- One turn of the loop keeps the partition. -/
theorem SequentialStep.partition
    {stop : Bool} (hstep : SequentialStep x step st st' stop) (h : SequentialPartition done st) :
    SequentialPartition (done ++ [step]) st' := by
  have htick : SequentialPartition done st.tick := h
  have hemit : ∀ action size, SequentialPartition done (st.tick.emit action size) :=
    fun _ _ => h
  cases hstep with
  | timedOut => exact htick.fail step
  | disabled => exact htick.skip step
  | blocked => exact htick.fail step
  | skipped => exact htick.skip step
  | failed => exact htick.fail step
  | overflowed => exact (hemit _ _).fail step
  | completed => exact (hemit _ _).complete step

/-- A turn that ends in `break` has failed a step whose error action is `stop`. -/
theorem SequentialStep.stop (hstep : SequentialStep x step st st' true) :
    step.errorAction = .stop ∧ step.stepId.str ∈ st'.failedSteps := by
  generalize hstop : true = stop at hstep
  cases hstep with
  | timedOut => cases hstop
  | disabled => cases hstop
  | blocked => cases hstop
  | skipped => cases hstop
  | failed => exact ⟨of_decide_eq_true hstop.symm, by simp [SequentialState.fail]⟩
  | overflowed => exact ⟨of_decide_eq_true hstop.symm, by simp [SequentialState.fail]⟩
  | completed => cases hstop

theorem sequentialRun_partition (x : Execution) (σ : SetOrder UUID)
    (steps : List ModelWorkflowStep) :
    ∃ done rest, executionOrder σ steps = done ++ rest ∧
      SequentialPartition done (sequentialRun x σ steps) ∧
      (rest = [] ∨ ∃ step ∈ done, step.errorAction = .stop ∧
        step.stepId.str ∈ (sequentialRun x σ steps).failedSteps) := by
  have hinit : SequentialPartition [] .init := List.Perm.refl _
  have hturn : ∀ done step rest st, executionOrder σ steps = done ++ step :: rest →
      SequentialPartition done st →
      SequentialPartition (done ++ [step]) (sequentialBody x step st).1 :=
    fun done step rest st _ h => (sequentialBody_spec x step st).partition h
  rcases forBreak_rule SequentialPartition hinit hturn with ⟨done, rest, horder, hpart, hrest⟩
  refine ⟨done, rest, horder, hpart, ?_⟩
  rcases hrest with hrest | ⟨done', step, st, rfl, _, hbody⟩
  · exact Or.inl hrest
  · have hspec := sequentialBody_spec x step st
    rw [hbody] at hspec
    exact Or.inr ⟨step, by simp, hspec.stop⟩

/-! ## The actions that are emitted -/

theorem Execution.createAction_ok
    {action : ModelAction} {size : ℕ} (h : x.createAction step = .ok (action, size)) :
    action.stepId = step.stepId.str ∧ size = payloadSize x.env action := by
  have hok := createActionForStep_ok h
  exact ⟨hok.1, hok.2.1⟩

/-- The actions are those of the completed steps for as long as the payloads fit. -/
structure SequentialEmission (x : Execution) (st : SequentialState) : Prop where
  total : st.totalPayloadSize = (st.allActions.map (payloadSize x.env)).sum
  in_order : st.totalPayloadSize ≤ x.limits.maxTotalPayloadSizeBytes →
    st.allActions.map ModelAction.stepId = st.completedSteps

theorem SequentialEmission.emit_total {st : SequentialState}
    (h : SequentialEmission x st) {action : ModelAction} {size : ℕ}
    (haction : x.createAction step = .ok (action, size)) :
    (st.emit action size).totalPayloadSize
      = ((st.emit action size).allActions.map (payloadSize x.env)).sum := by
  unfold SequentialState.emit
  rw [List.map_append, List.sum_append, List.map_singleton, List.sum_singleton, ← h.total,
    ← (Execution.createAction_ok haction).2]

/-- One turn of the loop keeps the actions in step with the completed steps. -/
theorem SequentialStep.emission {stop : Bool} (hstep : SequentialStep x step st st' stop)
    (h : SequentialEmission x st) : SequentialEmission x st' := by
  have htick : SequentialEmission x st.tick := ⟨h.total, h.in_order⟩
  cases hstep with
  | timedOut => exact ⟨h.total, h.in_order⟩
  | disabled => exact ⟨h.total, h.in_order⟩
  | blocked => exact ⟨h.total, h.in_order⟩
  | skipped => exact ⟨h.total, h.in_order⟩
  | failed => exact ⟨h.total, h.in_order⟩
  | overflowed _ _ _ _ haction hsize =>
    exact ⟨htick.emit_total haction, fun hle => absurd hsize (not_lt.mpr hle)⟩
  | completed _ _ _ _ haction hsize =>
    refine ⟨htick.emit_total haction, fun _ => ?_⟩
    unfold SequentialState.complete SequentialState.emit SequentialState.tick
    dsimp only
    rw [List.map_append, List.map_singleton, h.in_order (by omega),
      (Execution.createAction_ok haction).1]

theorem sequentialRun_emission (x : Execution) (σ : SetOrder UUID)
    (steps : List ModelWorkflowStep) : SequentialEmission x (sequentialRun x σ steps) := by
  have hinit : SequentialEmission x .init := ⟨rfl, fun _ => rfl⟩
  rcases forBreak_rule (fun _ => SequentialEmission x) hinit
    (fun _ step _ st _ h => (sequentialBody_spec x step st).emission h) with ⟨_, _, _, h, _⟩
  exact h

/-! ## The size of all payloads -/

/-- What the loop would go through if payloads were not limited: which steps are satisfied,
whether one has failed, and what the payloads of the completed steps add up to. -/
structure Walk where
  satisfied : Finset UUID
  anyFailed : Bool
  demand : ℕ
  reading : ℕ

def walkBody (x : Execution) (step : ModelWorkflowStep) (w₀ : Walk) : Walk × Bool :=
  let w := { w₀ with reading := w₀.reading + 1 }
  if x.timedOut w₀.reading then
    ({ w with anyFailed := true }, false)
  else if ¬ step.enabled then
    ({ w with satisfied := insert step.stepId w.satisfied }, false)
  else if ¬ dependenciesMet step w.satisfied then
    ({ w with anyFailed := true }, false)
  else if step.skipOnFailure ∧ w.anyFailed then
    ({ w with satisfied := insert step.stepId w.satisfied }, false)
  else
    match x.createAction step with
    | .error _ => ({ w with anyFailed := true }, step.errorAction = .stop)
    | .ok (_, size) =>
      ({ w with satisfied := insert step.stepId w.satisfied, demand := w.demand + size }, false)

/-- The sum of the payload sizes of the steps that a sequential run without a limit on payloads
would complete. -/
def payloadDemand (x : Execution) (σ : SetOrder UUID) (steps : List ModelWorkflowStep) : ℕ :=
  (forBreak (walkBody x) (executionOrder σ steps)
    { satisfied := ∅, anyFailed := false, demand := 0, reading := 0 }).demand

theorem le_demand_walkBody (x : Execution) (step : ModelWorkflowStep) (w : Walk) :
    w.demand ≤ (walkBody x step w).1.demand := by
  unfold walkBody
  dsimp only
  split_ifs <;> try exact Nat.le_refl _
  split
  · exact Nat.le_refl _
  · exact Nat.le_add_right _ _

theorem SequentialStep.le_total {stop : Bool} (hstep : SequentialStep x step st st' stop) :
    st.totalPayloadSize ≤ st'.totalPayloadSize := by
  cases hstep with
  | overflowed => exact Nat.le_add_right _ _
  | completed => exact Nat.le_add_right _ _
  | _ => exact Nat.le_refl _

structure WalkFollows (st : SequentialState) (w : Walk) : Prop where
  satisfied : w.satisfied = st.completedStepIds
  anyFailed : w.anyFailed = true ↔ st.failedSteps ≠ []
  demand : w.demand = st.totalPayloadSize
  reading : w.reading = st.clockReads

/-- One turn: the walk keeps following the loop, or both are beyond the limit. -/
theorem WalkFollows.turn {w : Walk} {stop : Bool} (h : WalkFollows st w)
    (hstep : SequentialStep x step st st' stop) :
    (WalkFollows st' (walkBody x step w).1 ∧ (walkBody x step w).2 = stop) ∨
    (x.limits.maxTotalPayloadSizeBytes < st'.totalPayloadSize ∧
      x.limits.maxTotalPayloadSizeBytes < (walkBody x step w).1.demand) := by
  rcases w with ⟨satisfied, anyFailed, demand, reading⟩
  rcases h with ⟨hsat, hfail, hdem, hread⟩
  dsimp only at hsat hfail hdem hread
  subst hsat hdem hread
  have hfailed : true = true ↔ st.failedSteps ++ [step.stepId.str] ≠ [] := by simp
  unfold walkBody
  cases hstep with
  | timedOut htime =>
    simp only [htime, if_true]
    exact Or.inl ⟨⟨rfl, hfailed, rfl, rfl⟩, trivial⟩
  | disabled htime henabled =>
    simp only [htime, henabled, Bool.false_eq_true, if_false, not_false_iff, if_true]
    exact Or.inl ⟨⟨rfl, hfail, rfl, rfl⟩, trivial⟩
  | blocked htime henabled hdeps =>
    simp only [htime, henabled, hdeps, Bool.false_eq_true, if_false, not_true, not_false_iff,
      if_true]
    exact Or.inl ⟨⟨rfl, hfailed, rfl, rfl⟩, trivial⟩
  | skipped htime henabled hdeps hskip hst =>
    have hskip' : step.skipOnFailure = true ∧ anyFailed = true := ⟨hskip, hfail.mpr hst⟩
    simp only [htime, henabled, hdeps, Bool.false_eq_true, if_false, not_true, hskip', and_self,
      if_true]
    exact Or.inl ⟨⟨rfl, iff_of_true rfl hst, rfl, rfl⟩, trivial⟩
  | failed htime henabled hdeps hskip haction =>
    rw [← hfail] at hskip
    simp only [htime, henabled, hdeps, Bool.false_eq_true, if_false, not_true, hskip, haction]
    exact Or.inl ⟨⟨rfl, hfailed, rfl, rfl⟩, trivial⟩
  | overflowed htime henabled hdeps hskip haction hsize =>
    rw [← hfail] at hskip
    simp only [htime, henabled, hdeps, Bool.false_eq_true, if_false, not_true, hskip, haction]
    exact Or.inr ⟨hsize, hsize⟩
  | completed htime henabled hdeps hskip haction =>
    rw [← hfail] at hskip
    simp only [htime, henabled, hdeps, Bool.false_eq_true, if_false, not_true, hskip, haction]
    exact Or.inl ⟨⟨rfl, hfail, rfl, rfl⟩, trivial⟩

theorem WalkFollows.fits_iff (l : List ModelWorkflowStep) :
    ∀ {st : SequentialState} {w : Walk}, WalkFollows st w →
      ((forBreak (sequentialBody x) l st).totalPayloadSize ≤ x.limits.maxTotalPayloadSizeBytes ↔
        (forBreak (walkBody x) l w).demand ≤ x.limits.maxTotalPayloadSizeBytes) := by
  induction l with
  | nil =>
    intro st w h
    unfold forBreak
    rw [h.demand]
  | cons step l ih =>
    intro st w h
    rcases h.turn (sequentialBody_spec x step st) with ⟨hfollows, hstop⟩ | ⟨hst, hw⟩
    · unfold forBreak
      cases hbody : sequentialBody x step st with
      | mk st' stop =>
        cases hwalk : walkBody x step w with
        | mk w' stop' =>
          rw [hbody, hwalk] at hfollows hstop
          have hstop' : stop' = stop := hstop
          subst hstop'
          cases stop' with
          | true =>
            dsimp only
            rw [hfollows.demand]
          | false => exact ih hfollows
    · -- beyond the limit both stay there
      have hst' := le_forBreak_cons
        (fun step st => (sequentialBody_spec x step st).le_total) step l st
      have hw' := le_forBreak_cons (le_demand_walkBody x) step l w
      constructor
      · intro hle
        omega
      · intro hle
        omega

theorem sequentialRun_fits_iff (x : Execution) (σ : SetOrder UUID)
    (steps : List ModelWorkflowStep) :
    (sequentialRun x σ steps).totalPayloadSize ≤ x.limits.maxTotalPayloadSizeBytes ↔
      payloadDemand x σ steps ≤ x.limits.maxTotalPayloadSizeBytes := by
  have hinit : WalkFollows .init
      { satisfied := ∅, anyFailed := false, demand := 0, reading := 0 } :=
    ⟨rfl, by simp [SequentialState.init], rfl, rfl⟩
  exact hinit.fits_iff (executionOrder σ steps)

/-! ## The outcome without skips on failure -/

/-- The lists and the satisfied ids are those of `Satisfied`, for the steps done so far. -/
structure SequentialOutcome (x : Execution) (steps done : List ModelWorkflowStep)
    (st : SequentialState) : Prop where
  lists : OutcomeLists x steps done st.completedSteps st.failedSteps st.skippedSteps
  ids : ∀ id, id ∈ st.completedStepIds ↔
    Satisfied x steps id ∧ ∃ step ∈ done, step.stepId = id

theorem SequentialOutcome.insert_ids {steps done : List ModelWorkflowStep}
    {st : SequentialState} (h : SequentialOutcome x steps done st)
    (hsat : Satisfied x steps step.stepId) (id : UUID) :
    id ∈ insert step.stepId st.completedStepIds ↔
      Satisfied x steps id ∧ ∃ s ∈ done ++ [step], s.stepId = id := by
  rw [Finset.mem_insert, h.ids, exists_mem_concat]
  constructor
  · intro hid
    rcases hid with rfl | ⟨hid, hdone⟩
    · exact ⟨hsat, Or.inr rfl⟩
    · exact ⟨hid, Or.inl hdone⟩
  · intro hid
    rcases hid with ⟨hid, hdone | rfl⟩
    · exact Or.inr ⟨hid, hdone⟩
    · exact Or.inl rfl

theorem SequentialOutcome.keep_ids {steps done : List ModelWorkflowStep}
    {st : SequentialState} (h : SequentialOutcome x steps done st)
    (hsat : ¬ Satisfied x steps step.stepId) (id : UUID) :
    id ∈ st.completedStepIds ↔
      Satisfied x steps id ∧ ∃ s ∈ done ++ [step], s.stepId = id := by
  rw [h.ids, exists_mem_concat]
  constructor
  · exact fun hid => ⟨hid.1, Or.inl hid.2⟩
  · intro hid
    rcases hid with ⟨hid, hdone | rfl⟩
    · exact ⟨hid, hdone⟩
    · exact absurd hid hsat

section
variable {steps : List ModelWorkflowStep} {σ : SetOrder UUID}

/-- One turn of the loop, while no time limit and no payload limit is exceeded. All
dependencies of the step have been visited before it, so it is known by then which of them
are satisfied. -/
theorem SequentialOutcome.turn (hwf : WellFormedSteps steps)
    (htime : ∀ n, x.timedOut n = false) (hskip : ∀ s ∈ steps, s.skipOnFailure = false)
    {done rest : List ModelWorkflowStep}
    (horder : executionOrder σ steps = done ++ step :: rest)
    {stop : Bool} (h : SequentialOutcome x steps done st)
    (hstep : SequentialStep x step st st' stop)
    (hfits : st'.totalPayloadSize ≤ x.limits.maxTotalPayloadSizeBytes) :
    SequentialOutcome x steps (done ++ [step]) st' := by
  have hmem : step ∈ steps := (hwf.executionOrder_perm σ).mem_iff.mp (by rw [horder]; simp)
  have hdeps : dependenciesMet step st.completedStepIds = true ↔
      ∀ depId ∈ step.dependsOn, Satisfied x steps depId := by
    rw [dependenciesMet_iff]
    refine forall₂_congr fun depId hdep => ?_
    rw [h.ids]
    exact and_iff_left (hwf.dependency_before horder hdep)
  have hsat := hwf.satisfied_iff (x := x) hmem
  cases hstep with
  | timedOut hlate =>
    rw [htime] at hlate
    cases hlate
  | disabled _ henabled =>
    have hyes := hsat.mpr (Or.inl henabled)
    exact ⟨h.lists.skip henabled, h.insert_ids hyes⟩
  | blocked _ henabled hblocked =>
    have hno : ¬ Satisfied x steps step.stepId := by
      rw [hsat, henabled, ← hdeps, hblocked]
      simp
    exact ⟨h.lists.fail henabled hno, h.keep_ids hno⟩
  | skipped _ _ _ hskipped =>
    rw [hskip step hmem] at hskipped
    cases hskipped
  | failed _ henabled _ _ haction =>
    have hno : ¬ Satisfied x steps step.stepId := by
      rw [hsat, henabled]
      have hcreates := Execution.not_creates_iff.mpr ⟨_, haction⟩
      simp [hcreates]
    exact ⟨h.lists.fail henabled hno, h.keep_ids hno⟩
  | overflowed _ _ _ _ _ hsize => exact absurd hsize (not_lt.mpr hfits)
  | completed _ henabled hmet _ haction =>
    have hyes := hsat.mpr (Or.inr ⟨henabled, ⟨_, haction⟩, hdeps.mp hmet⟩)
    exact ⟨h.lists.complete henabled hyes, h.insert_ids hyes⟩

/-- The same for the sequential loop, within the limit on payloads. -/
theorem sequentialRun_outcome (hwf : WellFormedSteps steps)
    (htime : ∀ n, x.timedOut n = false) (hskip : ∀ s ∈ steps, s.skipOnFailure = false)
    (hstop : ∀ s ∈ steps, ¬ x.Creates s → s.errorAction ≠ .stop)
    (hfits : (sequentialRun x σ steps).totalPayloadSize ≤ x.limits.maxTotalPayloadSizeBytes) :
    SequentialOutcome x steps (executionOrder σ steps) (sequentialRun x σ steps) := by
  have hinit : SequentialOutcome x steps [] .init := by
    refine ⟨⟨?_, ?_, ?_⟩, ?_⟩ <;> simp [SequentialState.init]
  -- as long as the payloads fit; they do in the end, and the sum never goes down
  have hturn : ∀ done step rest st, executionOrder σ steps = done ++ step :: rest →
      (st.totalPayloadSize ≤ x.limits.maxTotalPayloadSizeBytes →
        SequentialOutcome x steps done st) →
      ((sequentialBody x step st).1.totalPayloadSize ≤ x.limits.maxTotalPayloadSizeBytes →
        SequentialOutcome x steps (done ++ [step]) (sequentialBody x step st).1) := by
    intro done step rest st horder h hle
    have hspec := sequentialBody_spec x step st
    exact (h (hspec.le_total.trans hle)).turn hwf htime hskip horder hspec hle
  rcases forBreak_rule _ (fun _ => hinit) hturn with ⟨done, rest, horder, h, hrest⟩
  have hdone : rest = [] := by
    rcases hrest with hrest | ⟨done', step, st, rfl, _, hbody⟩
    · exact hrest
    · have hspec := sequentialBody_spec x step st
      have hfinal : (sequentialBody x step st).1 = sequentialRun x σ steps := by
        rw [hbody]
        rfl
      have hmem : step ∈ steps :=
        (hwf.executionOrder_perm σ).mem_iff.mp (by rw [horder]; simp)
      have hstopped := hspec
      rw [hbody] at hstopped
      have haction := hstopped.stop.1
      generalize hst' : (sequentialBody x step st).1 = st' at hspec
      generalize hstop' : (sequentialBody x step st).2 = stop at hspec
      rw [hbody] at hstop'
      rw [hst'] at hfinal
      cases hspec with
      | failed _ _ _ _ hcreate =>
        exact absurd haction (hstop step hmem (Execution.not_creates_iff.mpr ⟨_, hcreate⟩))
      | overflowed _ _ _ _ _ hsize =>
        rw [← hfinal] at hfits
        exact absurd hsize (not_lt.mpr hfits)
      | _ => cases hstop'
  rw [hdone, List.append_nil] at horder
  rw [horder]
  exact h hfits

end

end OmnibaseCore.Workflow
