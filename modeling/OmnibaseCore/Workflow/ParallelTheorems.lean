import OmnibaseCore.Workflow.Outcome

/-!
# Theorems about parallel execution

`Wave` lists what one turn of the loop can do: give up because time is up, give up because no
step is ready, or process the ready steps. `parallelLoop_rule` turns what a wave preserves
into what a run preserves; it also shows that the fuel of the loop suffices.
-/

namespace OmnibaseCore.Workflow

/-! ## The parts of a wave -/

section
variable {x : Execution} {st : ParallelState}

theorem failRemaining_eq (st : ParallelState) :
    st.failRemaining
      = { st with failedSteps := st.failedSteps ++ stepTexts st.remainingSteps } := by
  have hfold : ∀ (l : List ModelWorkflowStep) (st : ParallelState),
      l.foldl (fun st step => { st with failedSteps := st.failedSteps ++ [step.stepId.str] }) st
        = { st with failedSteps := st.failedSteps ++ stepTexts l } := by
    intro l
    induction l with
    | nil =>
      intro st
      rw [stepTexts_nil, List.append_nil]
      rfl
    | cons step l ih =>
      intro st
      rw [List.foldl_cons, ih]
      dsimp only
      rw [List.append_assoc]
      rfl
  exact hfold st.remainingSteps st

theorem skipSteps_cons (st : ParallelState) (step : ModelWorkflowStep)
    (l : List ModelWorkflowStep) :
    st.skipSteps (step :: l)
      = { st.skip step with remainingSteps := st.remainingSteps.erase step }.skipSteps l := rfl

structure Skipped (l : List ModelWorkflowStep) (st st' : ParallelState) : Prop where
  skipped : st'.skippedSteps = st.skippedSteps ++ stepTexts l
  ids : ∀ id, id ∈ st'.completedStepIds ↔ id ∈ st.completedStepIds ∨ ∃ s ∈ l, s.stepId = id
  remaining : st'.remainingSteps = st.remainingSteps.diff l
  completed : st'.completedSteps = st.completedSteps
  failed : st'.failedSteps = st.failedSteps
  actions : st'.allActions = st.allActions
  total : st'.totalPayloadSize = st.totalPayloadSize
  shouldStop : st'.shouldStop = st.shouldStop
  clockReads : st'.clockReads = st.clockReads

theorem skipSteps_spec (l : List ModelWorkflowStep) (st : ParallelState) :
    Skipped l st (st.skipSteps l) := by
  induction l generalizing st with
  | nil => exact ⟨by simp [ParallelState.skipSteps], by simp [ParallelState.skipSteps], rfl, rfl,
      rfl, rfl, rfl, rfl, rfl⟩
  | cons step l ih =>
    rw [skipSteps_cons]
    have h := ih { st.skip step with remainingSteps := st.remainingSteps.erase step }
    refine ⟨?_, fun id => ?_, ?_, h.completed, h.failed, h.actions, h.total, h.shouldStop,
      h.clockReads⟩
    · rw [h.skipped]
      unfold ParallelState.skip
      dsimp only
      rw [List.append_assoc]
      rfl
    · rw [h.ids]
      unfold ParallelState.skip
      dsimp only
      rw [Finset.mem_insert, List.exists_mem_cons_iff, eq_comm, or_comm (a := step.stepId = id),
        or_assoc]
    · rw [h.remaining]
      dsimp only
      rw [List.diff_cons]

/-! ## The results of a wave -/

def createdActions (x : Execution) (steps : List ModelWorkflowStep) : List ModelAction :=
  steps.filterMap fun step => (x.createAction step).toOption.map Prod.fst

/-- The sizes of their payloads together. -/
def createdSize (x : Execution) (steps : List ModelWorkflowStep) : ℕ :=
  (steps.map fun step => ((x.createAction step).toOption.map Prod.snd).getD 0).sum

structure Processed (x : Execution) (done : List ModelWorkflowStep) (st st' : ParallelState) :
    Prop where
  completed : st'.completedSteps = st.completedSteps ++ stepTexts (done.filter (x.Creates ·))
  failed : st'.failedSteps = st.failedSteps ++ stepTexts (done.filter (¬ x.Creates ·))
  actions : st'.allActions = st.allActions ++ createdActions x done
  ids : ∀ id, id ∈ st'.completedStepIds ↔
    id ∈ st.completedStepIds ∨ ∃ s ∈ done, x.Creates s ∧ s.stepId = id
  total : st'.totalPayloadSize = st.totalPayloadSize + createdSize x done
  fits : st.totalPayloadSize ≤ x.limits.maxTotalPayloadSizeBytes →
    st'.totalPayloadSize ≤ x.limits.maxTotalPayloadSizeBytes
  skipped : st'.skippedSteps = st.skippedSteps
  remaining : st'.remainingSteps = st.remainingSteps
  clockReads : st'.clockReads = st.clockReads
  goesOn : st'.shouldStop = false →
    ∀ step ∈ done, ¬ x.Creates step → step.errorAction ≠ .stop

theorem Processed.nil (x : Execution) (st : ParallelState) : Processed x [] st st :=
  ⟨by simp, by simp, by simp [createdActions], by simp, by simp [createdSize], id, rfl, rfl,
    rfl, by simp⟩

theorem Processed.cons_ok {step : ModelWorkflowStep} {done : List ModelWorkflowStep}
    {action : ModelAction} {size : ℕ} {st' : ParallelState}
    (haction : x.createAction step = .ok (action, size))
    (hsize : st.totalPayloadSize + size ≤ x.limits.maxTotalPayloadSizeBytes)
    (h : Processed x done { st with
      totalPayloadSize := st.totalPayloadSize + size
      allActions := st.allActions ++ [action]
      completedSteps := st.completedSteps ++ [step.stepId.str]
      completedStepIds := insert step.stepId st.completedStepIds } st') :
    Processed x (step :: done) st st' := by
  have hcreates : x.Creates step := ⟨_, haction⟩
  have hgoesOn : st'.shouldStop = false →
      ∀ s ∈ step :: done, ¬ x.Creates s → s.errorAction ≠ .stop := by
    intro hgo
    rw [List.forall_mem_cons]
    exact ⟨fun hno => absurd hcreates hno, h.goesOn hgo⟩
  refine ⟨?_, ?_, ?_, fun id => ?_, ?_, fun _ => h.fits hsize, h.skipped, h.remaining,
    h.clockReads, hgoesOn⟩
  · rw [h.completed, List.filter_cons_of_pos (by simpa using hcreates)]
    simp [stepTexts]
  · rw [h.failed, List.filter_cons_of_neg (by simpa using hcreates)]
  · rw [h.actions]
    simp [createdActions, haction, Except.toOption]
  · rw [h.ids, List.exists_mem_cons_iff]
    dsimp only
    rw [Finset.mem_insert, eq_comm, or_comm (a := step.stepId = id), or_assoc]
    simp [hcreates]
  · rw [h.total]
    simp [createdSize, haction, Except.toOption, Nat.add_assoc]

theorem Processed.cons_error {step : ModelWorkflowStep} {done : List ModelWorkflowStep}
    {e : PyException} {st' : ParallelState} {shouldStop : Bool}
    (haction : x.createAction step = .error e)
    (hstop : step.errorAction = .stop → st'.shouldStop = true)
    (h : Processed x done { st with
      failedSteps := st.failedSteps ++ [step.stepId.str]
      shouldStop := shouldStop } st') :
    Processed x (step :: done) st st' := by
  have hcreates : ¬ x.Creates step := Execution.not_creates_iff.mpr ⟨_, haction⟩
  have hgoesOn : st'.shouldStop = false →
      ∀ s ∈ step :: done, ¬ x.Creates s → s.errorAction ≠ .stop := by
    intro hgo
    rw [List.forall_mem_cons]
    refine ⟨fun _ hact => ?_, h.goesOn hgo⟩
    rw [hstop hact] at hgo
    cases hgo
  refine ⟨?_, ?_, ?_, fun id => ?_, ?_, h.fits, h.skipped, h.remaining, h.clockReads, hgoesOn⟩
  · rw [h.completed, List.filter_cons_of_neg (by simpa using hcreates)]
  · rw [h.failed, List.filter_cons_of_pos (by simpa using hcreates)]
    simp [stepTexts]
  · rw [h.actions]
    simp [createdActions, haction, Except.toOption]
  · rw [h.ids, List.exists_mem_cons_iff]
    simp [hcreates]
  · rw [h.total]
    simp [createdSize, haction, Except.toOption]

theorem processResults_stopped
    (l : List (ModelWorkflowStep × Except PyException (ModelAction × ℕ))) (st : ParallelState) :
    processResults x l true st = .ok st := by
  induction l with
  | nil => rfl
  | cons r l ih =>
    unfold processResults
    rw [if_pos rfl, ih]

/-- The results of a wave are processed up to a failure that stops. -/
theorem processResults_spec (l : List ModelWorkflowStep) :
    ∀ {st st' : ParallelState}, st.shouldStop = false →
      processResults x (l.map fun step => (step, x.createAction step)) false st = .ok st' →
      ∃ done ignored, l = done ++ ignored ∧ Processed x done st st' ∧
        ((st'.shouldStop = false ∧ ignored = []) ∨ (st'.shouldStop = true ∧
          ∃ step ∈ done, ¬ x.Creates step ∧ step.errorAction = .stop)) := by
  induction l with
  | nil =>
    intro st st' hstop h
    cases h
    exact ⟨[], [], rfl, Processed.nil x st, Or.inl ⟨hstop, rfl⟩⟩
  | cons step l ih =>
    intro st st' hstop h
    rw [List.map_cons] at h
    unfold processResults at h
    rw [if_neg Bool.false_ne_true] at h
    dsimp only at h
    cases haction : x.createAction step with
    | ok created =>
      rcases created with ⟨action, size⟩
      rw [haction] at h
      dsimp only at h
      split_ifs at h with hsize
      rcases ih (by exact hstop) h with ⟨done, ignored, hl, hdone, hend⟩
      refine ⟨step :: done, ignored, by rw [hl, List.cons_append],
        hdone.cons_ok haction (Nat.le_of_not_lt hsize), ?_⟩
      rcases hend with hend | ⟨hend, s, hs, hfail⟩
      · exact Or.inl hend
      · exact Or.inr ⟨hend, s, List.mem_cons_of_mem step hs, hfail⟩
    | error e =>
      rw [haction] at h
      dsimp only at h
      by_cases hact : step.errorAction = .stop
      · rw [if_pos hact, processResults_stopped] at h
        cases h
        refine ⟨[step], l, rfl, (Processed.nil x _).cons_error haction fun _ => rfl,
          Or.inr ⟨rfl, step, ?_⟩⟩
        exact ⟨by simp, Execution.not_creates_iff.mpr ⟨_, haction⟩, hact⟩
      · rw [if_neg hact] at h
        rcases ih (by exact hstop) h with ⟨done, ignored, hl, hdone, hend⟩
        refine ⟨step :: done, ignored, by rw [hl, List.cons_append],
          hdone.cons_error haction fun h => absurd h hact, ?_⟩
        rcases hend with hend | ⟨hend, s, hs, hfail⟩
        · exact Or.inl hend
        · exact Or.inr ⟨hend, s, List.mem_cons_of_mem step hs, hfail⟩

end

/-! ## One turn of the loop -/

def ParallelState.tick (st : ParallelState) : ParallelState :=
  { st with clockReads := st.clockReads + 1 }

/-- What one turn of the loop can do, if it does not fail. -/
inductive Wave (x : Execution) (st : ParallelState) : ParallelState → Bool → Prop
  | timedOut (htime : x.timedOut st.clockReads = true) : Wave x st st.tick.failRemaining true
  | stalled (htime : x.timedOut st.clockReads = false) (hready : st.readySteps = []) :
      Wave x st (st.tick.skipSteps st.skipOnFailureSteps).failRemaining true
  | advanced (htime : x.timedOut st.clockReads = false) (hready : st.readySteps ≠ [])
      {done ignored : List ModelWorkflowStep} {st' : ParallelState}
      (hsplit : st.readySteps = done ++ ignored)
      (hdone : Processed x done (st.tick.skipSteps st.skipOnFailureSteps) st')
      (hend : (st'.shouldStop = false ∧ ignored = []) ∨ (st'.shouldStop = true ∧
        ∃ step ∈ done, ¬ x.Creates step ∧ step.errorAction = .stop)) :
      Wave x st { st' with
        remainingSteps := st'.remainingSteps.filter fun s => s ∉ st.readySteps } false

variable {x : Execution}

theorem parallelWave_spec {st st' : ParallelState} {stop : Bool}
    (hstop : st.shouldStop = false) (h : parallelWave x st = .ok (st', stop)) :
    Wave x st st' stop := by
  unfold parallelWave at h
  dsimp only at h
  by_cases htime : x.timedOut st.clockReads = true
  · rw [if_pos htime] at h
    cases h
    exact .timedOut htime
  rw [if_neg htime] at h
  rw [Bool.not_eq_true] at htime
  by_cases hready : { st with clockReads := st.clockReads + 1 }.readySteps = []
  · rw [if_pos hready] at h
    cases h
    exact .stalled htime hready
  rw [if_neg hready] at h
  generalize hresults : processResults x _ _ _ = results at h
  cases results with
  | error e => cases h
  | ok st₁ =>
    cases h
    have hskip := skipSteps_spec st.skipOnFailureSteps st.tick
    rcases processResults_spec _ (hskip.shouldStop.trans hstop) hresults with
      ⟨done, ignored, hsplit, hdone, hend⟩
    exact .advanced htime hready hsplit hdone hend

theorem Wave.length_lt {st st' : ParallelState} (h : Wave x st st' false) :
    st'.remainingSteps.length < st.remainingSteps.length := by
  cases h with
  | @advanced _ hready done ignored st₁ _ hdone _ =>
    dsimp only
    rw [hdone.remaining, (skipSteps_spec st.skipOnFailureSteps st.tick).remaining]
    have hsub : (st.tick.remainingSteps.diff st.skipOnFailureSteps).Sublist st.remainingSteps :=
      List.diff_sublist _ _
    have hle := (hsub.filter fun s => s ∉ st.readySteps).length_le
    rcases List.exists_mem_of_ne_nil _ hready with ⟨s, hs⟩
    have hlt : (st.remainingSteps.filter fun s => s ∉ st.readySteps).length
        < st.remainingSteps.length := by
      rw [List.length_filter_lt_length_iff_exists]
      refine ⟨s, List.mem_of_mem_filter hs, ?_⟩
      simpa using hs
    omega

/-- The rule for the loop. The run ends in a state that satisfies the invariant, either
because no steps remain or a stop has been triggered, or by one last turn that breaks. -/
theorem parallelLoop_rule (I : ParallelState → Prop)
    (hturn : ∀ st st', I st → st.shouldStop = false → Wave x st st' false → I st') (fuel : ℕ) :
    ∀ {st st' : ParallelState}, I st → st.remainingSteps.length < fuel →
      parallelLoop x fuel st = .ok st' →
      ∃ last, I last ∧
        ((st' = last ∧ (last.remainingSteps = [] ∨ last.shouldStop = true)) ∨
          (last.shouldStop = false ∧ Wave x last st' true)) := by
  induction fuel with
  | zero =>
    intro st st' _ hfuel
    exact absurd hfuel (Nat.not_lt_zero _)
  | succ fuel ih =>
    intro st st' hI hfuel h
    unfold parallelLoop at h
    by_cases hgo : st.remainingSteps ≠ [] ∧ ¬ st.shouldStop = true
    · rw [if_pos hgo] at h
      have hstop : st.shouldStop = false := by simpa using hgo.2
      cases hwave : parallelWave x st with
      | error e =>
        rw [hwave] at h
        cases h
      | ok r =>
        rcases r with ⟨st₁, stop⟩
        rw [hwave] at h
        have hspec := parallelWave_spec hstop hwave
        cases stop with
        | true =>
          cases h
          exact ⟨st, hI, Or.inr ⟨hstop, hspec⟩⟩
        | false =>
          have hlt := hspec.length_lt
          exact ih (hturn st st₁ hI hstop hspec) (by omega) h
    · rw [if_neg hgo] at h
      cases h
      refine ⟨st, hI, Or.inl ⟨rfl, ?_⟩⟩
      by_cases hnil : st.remainingSteps = []
      · exact Or.inl hnil
      · exact Or.inr (by simpa using fun hstop => hgo ⟨hnil, hstop⟩)

/-! ## The state before the first wave -/

structure ParallelStart (steps : List ModelWorkflowStep) (st : ParallelState) : Prop where
  remaining : st.remainingSteps = steps.filter fun s => s.enabled
  skipped : st.skippedSteps = stepTexts (steps.filter fun s => !s.enabled)
  ids : ∀ id, id ∈ st.completedStepIds ↔ ∃ s ∈ steps, s.enabled = false ∧ s.stepId = id
  completed : st.completedSteps = []
  failed : st.failedSteps = []
  actions : st.allActions = []
  total : st.totalPayloadSize = 0
  shouldStop : st.shouldStop = false
  clockReads : st.clockReads = 0

theorem parallelStart (steps : List ModelWorkflowStep) :
    ParallelStart steps (.init steps) := by
  unfold ParallelState.init
  induction steps using List.reverseRecOn with
  | nil => constructor <;> simp
  | append_singleton steps step ih =>
    rw [List.foldl_append, List.foldl_cons, List.foldl_nil]
    generalize List.foldl _ _ steps = st at ih ⊢
    cases henabled : step.enabled with
    | true =>
      rw [if_pos rfl]
      refine ⟨?_, ?_, fun id => ?_, ih.completed, ih.failed, ih.actions, ih.total,
        ih.shouldStop, ih.clockReads⟩
      · dsimp only
        rw [ih.remaining, List.filter_append]
        simp [henabled]
      · dsimp only
        rw [ih.skipped, List.filter_append]
        simp [henabled]
      · dsimp only
        rw [ih.ids, exists_mem_concat]
        simp [henabled]
    | false =>
      rw [if_neg Bool.false_ne_true]
      unfold ParallelState.skip
      refine ⟨?_, ?_, fun id => ?_, ih.completed, ih.failed, ih.actions, ih.total,
        ih.shouldStop, ih.clockReads⟩
      · dsimp only
        rw [ih.remaining, List.filter_append]
        simp [henabled]
      · dsimp only
        rw [ih.skipped, List.filter_append]
        simp [henabled, stepTexts]
      · dsimp only
        rw [Finset.mem_insert, ih.ids, exists_mem_concat, or_comm, eq_comm]
        simp [henabled]

theorem parallelRun_rule {steps : List ModelWorkflowStep} {st : ParallelState}
    (I : ParallelState → Prop) (hinit : I (.init steps))
    (hturn : ∀ st st', I st → st.shouldStop = false → Wave x st st' false → I st')
    (h : parallelRun x steps = .ok st) :
    ∃ last, I last ∧
      ((st = last ∧ (last.remainingSteps = [] ∨ last.shouldStop = true)) ∨
        (last.shouldStop = false ∧ Wave x last st true)) := by
  have hfuel : (ParallelState.init steps).remainingSteps.length < steps.length + 1 := by
    rw [(parallelStart steps).remaining]
    exact Nat.lt_succ_of_le (List.length_filter_le _ _)
  exact parallelLoop_rule I hturn _ hinit hfuel h

/-! ## The steps a wave deals with -/

section
variable {st st' : ParallelState}

theorem mem_readySteps {step : ModelWorkflowStep} :
    step ∈ st.readySteps ↔ step ∈ st.remainingSteps ∧
      dependenciesMet step st.completedStepIds = true ∧
      ¬ (step.skipOnFailure = true ∧ st.failedSteps ≠ []) := by
  unfold ParallelState.readySteps
  rw [List.mem_filter]
  cases step.skipOnFailure <;> simp

theorem mem_skipOnFailureSteps {step : ModelWorkflowStep} :
    step ∈ st.skipOnFailureSteps ↔ step ∈ st.remainingSteps ∧
      dependenciesMet step st.completedStepIds = true ∧
      (step.skipOnFailure = true ∧ st.failedSteps ≠ []) := by
  unfold ParallelState.skipOnFailureSteps
  rw [List.mem_filter]
  simp

def ParallelState.waitingSteps (st : ParallelState) : List ModelWorkflowStep :=
  (st.remainingSteps.diff st.skipOnFailureSteps).filter fun s => s ∉ st.readySteps

/-- What remains is skipped, ready or waiting. -/
theorem remainingSteps_perm (hnodup : st.remainingSteps.Nodup) :
    st.remainingSteps.Perm
      (st.skipOnFailureSteps ++ (st.readySteps ++ st.waitingSteps)) := by
  have hdiff : st.remainingSteps.diff st.skipOnFailureSteps
      = st.remainingSteps.filter fun s => s ∉ st.skipOnFailureSteps := hnodup.sdiff_eq_filter
  have hready : (st.remainingSteps.diff st.skipOnFailureSteps).filter (fun s => s ∈ st.readySteps)
      = st.readySteps := by
    rw [hdiff, List.filter_filter]
    conv_rhs => unfold ParallelState.readySteps
    refine List.filter_congr fun s hs => ?_
    have hiff : s ∈ st.readySteps ↔ s ∈ st.remainingSteps ∧
        (dependenciesMet s st.completedStepIds &&
          !(s.skipOnFailure && st.failedSteps ≠ [])) = true := List.mem_filter
    have hexclusive : s ∈ st.readySteps → s ∉ st.skipOnFailureSteps := by
      rw [mem_readySteps, mem_skipOnFailureSteps]
      tauto
    rw [Bool.eq_iff_iff, Bool.and_eq_true, decide_eq_true_eq, decide_eq_true_eq,
      and_iff_left_of_imp hexclusive]
    exact hiff.trans (and_iff_right hs)
  have hskip : st.remainingSteps.filter (fun s => s ∈ st.skipOnFailureSteps)
      = st.skipOnFailureSteps := by
    conv_rhs => unfold ParallelState.skipOnFailureSteps
    refine List.filter_congr fun s hs => ?_
    rw [Bool.eq_iff_iff, decide_eq_true_eq, mem_skipOnFailureSteps]
    simp [hs]
  have houter := List.filter_append_perm (fun s => decide (s ∈ st.skipOnFailureSteps))
    st.remainingSteps
  have hinner := List.filter_append_perm (fun s => decide (s ∈ st.readySteps))
    (st.remainingSteps.diff st.skipOnFailureSteps)
  rw [hready] at hinner
  rw [hskip] at houter
  unfold ParallelState.waitingSteps
  refine houter.symm.trans (List.Perm.append_left _ ?_)
  rw [hdiff] at hinner ⊢
  simpa using hinner.symm

theorem Processed.waiting {done : List ModelWorkflowStep}
    (h : Processed x done (st.tick.skipSteps st.skipOnFailureSteps) st') :
    st'.remainingSteps.filter (fun s => s ∉ st.readySteps) = st.waitingSteps := by
  rw [h.remaining, (skipSteps_spec st.skipOnFailureSteps st.tick).remaining]
  rfl

theorem skipSteps_remaining (hready : st.readySteps = []) :
    (st.tick.skipSteps st.skipOnFailureSteps).remainingSteps = st.waitingSteps := by
  rw [(skipSteps_spec st.skipOnFailureSteps st.tick).remaining]
  unfold ParallelState.waitingSteps
  rw [hready]
  simp [ParallelState.tick]

end

/-! ## The results partition the steps -/

/-- The three lists hold each step of `done` once. The other steps remain, or were dropped from
the wave in which a stop was triggered. -/
structure ParallelPartition (steps done dropped : List ModelWorkflowStep)
    (st : ParallelState) : Prop where
  perm : (done ++ (st.remainingSteps ++ dropped)).Perm steps
  lists : (st.completedSteps ++ st.failedSteps ++ st.skippedSteps).Perm (stepTexts done)
  stopped : (st.shouldStop = false ∧ dropped = []) ∨ (st.shouldStop = true ∧
    ∃ step ∈ steps, step.errorAction = .stop ∧ step.stepId.str ∈ st.failedSteps)

theorem perm_append_three {c f s d c' f' s' d' : List String} (h : (c ++ f ++ s).Perm d)
    (h' : (c' ++ f' ++ s').Perm d') :
    ((c ++ c') ++ (f ++ f') ++ (s ++ s')).Perm (d ++ d') := by
  rw [List.perm_iff_count] at *
  intro t
  have := h t
  have := h' t
  simp only [List.count_append] at *
  omega

theorem perm_wave (x : Execution) (skips done : List ModelWorkflowStep) :
    (stepTexts (done.filter (x.Creates ·)) ++ stepTexts (done.filter (¬ x.Creates ·)) ++
      stepTexts skips).Perm (stepTexts (skips ++ done)) := by
  have hsplit := (List.filter_append_perm (fun s => decide (x.Creates s)) done).map
    fun s : ModelWorkflowStep => s.stepId.str
  rw [List.map_append] at hsplit
  rw [stepTexts_append]
  refine (List.perm_append_comm).trans (List.Perm.append_left _ ?_)
  simpa [stepTexts] using hsplit

section
variable {steps done dropped : List ModelWorkflowStep} {st st' : ParallelState}

theorem ParallelPartition.nodup (hwf : WellFormedSteps steps)
    (h : ParallelPartition steps done dropped st) : (done ++ (st.remainingSteps ++ dropped)).Nodup :=
  h.perm.nodup_iff.mpr hwf.nodup_steps

theorem ParallelPartition.nodup_remaining (hwf : WellFormedSteps steps)
    (h : ParallelPartition steps done dropped st) : st.remainingSteps.Nodup :=
  (List.nodup_append.mp (List.nodup_append.mp (h.nodup hwf)).2.1).1

theorem ParallelPartition.dropped_eq_nil (h : ParallelPartition steps done dropped st)
    (hstop : st.shouldStop = false) : dropped = [] := by
  rcases h.stopped with ⟨_, hnil⟩ | ⟨hstopped, _⟩
  · exact hnil
  · rw [hstop] at hstopped
    cases hstopped

variable {waveDone ignored : List ModelWorkflowStep}

theorem ParallelPartition.advance (hwf : WellFormedSteps steps)
    (h : ParallelPartition steps done [] st) (hsplit : st.readySteps = waveDone ++ ignored)
    (hdone : Processed x waveDone (st.tick.skipSteps st.skipOnFailureSteps) st')
    (hend : (st'.shouldStop = false ∧ ignored = []) ∨ (st'.shouldStop = true ∧
      ∃ step ∈ waveDone, ¬ x.Creates step ∧ step.errorAction = .stop)) :
    ParallelPartition steps (done ++ (st.skipOnFailureSteps ++ waveDone)) ignored
      { st' with remainingSteps := st'.remainingSteps.filter fun s => s ∉ st.readySteps } := by
  have hskip := skipSteps_spec st.skipOnFailureSteps st.tick
  have hremaining := remainingSteps_perm (h.nodup_remaining hwf)
  have hperm : ((done ++ (st.skipOnFailureSteps ++ waveDone)) ++
      (st.waitingSteps ++ ignored)).Perm steps := by
    refine List.Perm.trans ?_ h.perm
    rw [List.append_nil, List.append_assoc]
    apply List.Perm.append_left
    refine List.Perm.trans ?_ hremaining.symm
    rw [hsplit, List.append_assoc, List.append_assoc]
    exact List.Perm.append_left _ (List.Perm.append_left _ List.perm_append_comm)
  refine ⟨?_, ?_, ?_⟩
  · dsimp only
    rwa [hdone.waiting]
  · dsimp only
    rw [hdone.completed, hdone.failed, hdone.skipped, hskip.completed, hskip.failed,
      hskip.skipped, stepTexts_append]
    exact perm_append_three h.lists (perm_wave x _ _)
  · dsimp only
    rcases hend with hend | ⟨hstop, step, hstep, hcreates, hact⟩
    · exact Or.inl hend
    · refine Or.inr ⟨hstop, step, hperm.mem_iff.mp ?_, hact, ?_⟩
      · simp [hstep]
      · rw [hdone.failed, List.mem_append, mem_stepTexts]
        exact Or.inr ⟨step, by simp [hstep, hcreates], rfl⟩

theorem ParallelPartition.failRemaining (h : ParallelPartition steps done [] st)
    {skips waiting : List ModelWorkflowStep} (hremaining : st.remainingSteps.Perm (skips ++ waiting))
    (hst' : Skipped skips st.tick st') (hwaiting : st'.remainingSteps = waiting) :
    (done ++ (skips ++ waiting)).Perm steps ∧
      (st'.failRemaining.completedSteps ++ st'.failRemaining.failedSteps ++
        st'.failRemaining.skippedSteps).Perm (stepTexts (done ++ (skips ++ waiting))) := by
  constructor
  · refine List.Perm.trans ?_ h.perm
    rw [List.append_nil]
    exact hremaining.symm.append_left done
  · have hlists : ([] ++ stepTexts waiting ++ stepTexts skips).Perm
        (stepTexts (skips ++ waiting)) := by
      rw [stepTexts_append, List.nil_append]
      exact List.perm_append_comm
    rw [failRemaining_eq]
    dsimp only
    rw [hst'.completed, hst'.failed, hst'.skipped, hwaiting, stepTexts_append done]
    have hall := perm_append_three h.lists hlists
    rw [List.append_nil] at hall
    exact hall

theorem ParallelStart.partition (h : ParallelStart steps st) :
    ParallelPartition steps (steps.filter fun s => !s.enabled) [] st := by
  refine ⟨?_, ?_, Or.inl ⟨h.shouldStop, rfl⟩⟩
  · rw [h.remaining, List.append_nil]
    exact List.perm_append_comm.trans (List.filter_append_perm _ _)
  · rw [h.completed, h.failed, h.skipped]
    exact List.Perm.refl _

/-- Every step is in one list, unless a failure has stopped the run. -/
theorem parallelRun_partition (hwf : WellFormedSteps steps)
    (h : parallelRun x steps = .ok st) :
    ∃ done rest, (done ++ rest).Perm steps ∧
      (st.completedSteps ++ st.failedSteps ++ st.skippedSteps).Perm (stepTexts done) ∧
      (rest = [] ∨ ∃ step ∈ steps, step.errorAction = .stop ∧
        step.stepId.str ∈ st.failedSteps) := by
  have hturn : ∀ st st', (∃ done dropped, ParallelPartition steps done dropped st) →
      st.shouldStop = false → Wave x st st' false →
      ∃ done dropped, ParallelPartition steps done dropped st' := by
    intro st st' hI hstop hwave
    rcases hI with ⟨done, dropped, hI⟩
    have hnil := hI.dropped_eq_nil hstop
    subst hnil
    cases hwave with
    | advanced _ _ hsplit hdone hwaveEnd => exact ⟨_, _, hI.advance hwf hsplit hdone hwaveEnd⟩
  rcases parallelRun_rule _ ⟨_, _, (parallelStart steps).partition⟩ hturn h with
    ⟨last, ⟨done, dropped, hlast⟩, hend⟩
  rcases hend with ⟨heq, hend⟩ | ⟨hstop, hwave⟩
  · subst heq
    refine ⟨done, st.remainingSteps ++ dropped, hlast.perm, hlast.lists, ?_⟩
    rcases hlast.stopped with ⟨hstop, hnil⟩ | ⟨_, hstopped⟩
    · rcases hend with hend | hend
      · exact Or.inl (by rw [hend, hnil]; rfl)
      · rw [hstop] at hend
        cases hend
    · exact Or.inr hstopped
  · have hnil := hlast.dropped_eq_nil hstop
    subst hnil
    cases hwave with
    | timedOut =>
      have hremaining : last.remainingSteps.Perm ([] ++ last.remainingSteps) := List.Perm.refl _
      have hfinal := hlast.failRemaining hremaining (skipSteps_spec [] last.tick) rfl
      exact ⟨_, [], by rw [List.append_nil]; exact hfinal.1, hfinal.2, Or.inl rfl⟩
    | stalled _ hready =>
      have hremaining := remainingSteps_perm (hlast.nodup_remaining hwf)
      rw [hready, List.nil_append] at hremaining
      have hfinal := hlast.failRemaining hremaining (skipSteps_spec _ last.tick)
        (skipSteps_remaining hready)
      exact ⟨_, [], by rw [List.append_nil]; exact hfinal.1, hfinal.2, Or.inl rfl⟩

/-! ## The actions that are emitted -/

structure ParallelEmission (x : Execution) (st : ParallelState) : Prop where
  in_order : st.allActions.map ModelAction.stepId = st.completedSteps
  total : st.totalPayloadSize = (st.allActions.map (payloadSize x.env)).sum
  fits : st.totalPayloadSize ≤ x.limits.maxTotalPayloadSizeBytes

theorem createdActions_map_stepId (x : Execution) (l : List ModelWorkflowStep) :
    (createdActions x l).map ModelAction.stepId = stepTexts (l.filter (x.Creates ·)) := by
  unfold createdActions
  induction l with
  | nil => rfl
  | cons step l ih =>
    cases haction : x.createAction step with
    | error e =>
      have hcreates : ¬ x.Creates step := Execution.not_creates_iff.mpr ⟨e, haction⟩
      rw [List.filterMap_cons_none (by rw [haction]; rfl), ih,
        List.filter_cons_of_neg (by simpa using hcreates)]
    | ok created =>
      rcases created with ⟨action, size⟩
      have hcreates : x.Creates step := ⟨_, haction⟩
      rw [List.filterMap_cons_some (by rw [haction]; rfl), List.map_cons, ih,
        List.filter_cons_of_pos (by simpa using hcreates)]
      have hid : action.stepId = step.stepId.str := (createActionForStep_ok haction).1
      rw [show stepTexts (step :: l.filter (x.Creates ·))
        = step.stepId.str :: stepTexts (l.filter (x.Creates ·)) from rfl, ← hid]

theorem createdSize_eq (x : Execution) (l : List ModelWorkflowStep) :
    createdSize x l = ((createdActions x l).map (payloadSize x.env)).sum := by
  unfold createdSize createdActions
  induction l with
  | nil => rfl
  | cons step l ih =>
    rw [List.map_cons, List.sum_cons, ih]
    cases haction : x.createAction step with
    | error e =>
      rw [List.filterMap_cons_none (by rw [haction]; rfl)]
      exact Nat.zero_add _
    | ok created =>
      rcases created with ⟨action, size⟩
      rw [List.filterMap_cons_some (by rw [haction]; rfl), List.map_cons, List.sum_cons]
      have hsize : size = payloadSize x.env action := (createActionForStep_ok haction).2.1
      rw [← hsize]
      rfl

theorem ParallelEmission.advance (h : ParallelEmission x st) {skips waveDone : List ModelWorkflowStep}
    {st₁ : ParallelState} (hskip : Skipped skips st.tick st₁)
    (hdone : Processed x waveDone st₁ st') : ParallelEmission x st' := by
  refine ⟨?_, ?_, ?_⟩
  · rw [hdone.actions, hskip.actions, List.map_append, createdActions_map_stepId,
      hdone.completed, hskip.completed]
    exact congrArg (· ++ _) h.in_order
  · rw [hdone.actions, hskip.actions, List.map_append, List.sum_append, hdone.total,
      hskip.total, createdSize_eq]
    exact congrArg (· + _) h.total
  · refine hdone.fits ?_
    rw [hskip.total]
    exact h.fits

theorem parallelRun_emission (h : parallelRun x steps = .ok st) : ParallelEmission x st := by
  have hstart := parallelStart steps
  have hinit : ParallelEmission x (.init steps) := by
    refine ⟨?_, ?_, ?_⟩
    · rw [hstart.actions, hstart.completed]
      rfl
    · rw [hstart.actions, hstart.total]
      rfl
    · rw [hstart.total]
      exact Nat.zero_le _
  have hturn : ∀ st st', ParallelEmission x st → st.shouldStop = false → Wave x st st' false →
      ParallelEmission x st' := by
    intro st st' hI _ hwave
    cases hwave with
    | advanced _ _ _ hdone _ =>
      have hnext := hI.advance (skipSteps_spec st.skipOnFailureSteps st.tick) hdone
      exact ⟨hnext.in_order, hnext.total, hnext.fits⟩
  rcases parallelRun_rule _ hinit hturn h with ⟨last, hlast, hend⟩
  rcases hend with ⟨heq, _⟩ | ⟨_, hwave⟩
  · exact heq ▸ hlast
  · cases hwave with
    | timedOut =>
      rw [failRemaining_eq]
      exact ⟨hlast.in_order, hlast.total, hlast.fits⟩
    | stalled =>
      have hskip := skipSteps_spec last.skipOnFailureSteps last.tick
      have hnone := hlast.advance hskip (Processed.nil x _)
      rw [failRemaining_eq]
      exact ⟨hnone.in_order, hnone.total, hnone.fits⟩

/-! ## The outcome without skips on failure -/

/-- The lists and the satisfied ids are those of `Satisfied`, for the steps done so far. -/
structure ParallelOutcome (x : Execution) (steps done : List ModelWorkflowStep)
    (st : ParallelState) : Prop where
  partition : ParallelPartition steps done [] st
  lists : OutcomeLists x steps done st.completedSteps st.failedSteps st.skippedSteps
  ids : ∀ id, id ∈ st.completedStepIds ↔
    Satisfied x steps id ∧ ∃ step ∈ done, step.stepId = id
  remaining : ∀ step ∈ st.remainingSteps, step ∈ steps ∧ step.enabled = true
  shouldStop : st.shouldStop = false

theorem ParallelStart.outcome (h : ParallelStart steps st) :
    ParallelOutcome x steps (steps.filter fun s => !s.enabled) st := by
  refine ⟨h.partition, ⟨fun t => ?_, fun t => ?_, fun t => ?_⟩, fun id => ?_, fun step hstep => ?_,
    h.shouldStop⟩
  · rw [h.completed]
    simp +contextual
  · rw [h.failed]
    simp +contextual
  · rw [h.skipped, mem_stepTexts]
    refine exists_congr fun s => ?_
    rw [List.mem_filter, Bool.not_eq_true']
    tauto
  · rw [h.ids]
    constructor
    · intro hid
      rcases hid with ⟨s, hs, henabled, rfl⟩
      exact ⟨.disabled hs henabled, s, by simp [hs, henabled], rfl⟩
    · intro hid
      rcases hid with ⟨_, s, hs, rfl⟩
      rw [List.mem_filter] at hs
      exact ⟨s, hs.1, by simpa using hs.2, rfl⟩
  · rw [h.remaining, List.mem_filter] at hstep
    exact hstep

theorem ParallelOutcome.skipOnFailureSteps_eq_nil (h : ParallelOutcome x steps done st)
    (hskip : ∀ s ∈ steps, s.skipOnFailure = false) : st.skipOnFailureSteps = [] := by
  rw [List.eq_nil_iff_forall_not_mem]
  intro s hs
  rw [mem_skipOnFailureSteps, hskip s (h.remaining s hs.1 |>.1)] at hs
  exact Bool.false_ne_true hs.2.2.1

theorem ParallelOutcome.satisfied_iff_of_ready (hwf : WellFormedSteps steps)
    (h : ParallelOutcome x steps done st) {step : ModelWorkflowStep}
    (hready : step ∈ st.readySteps) : Satisfied x steps step.stepId ↔ x.Creates step := by
  rw [mem_readySteps, dependenciesMet_iff] at hready
  have hmem := h.remaining step hready.1
  have hdeps : ∀ depId ∈ step.dependsOn, Satisfied x steps depId :=
    fun depId hdep => ((h.ids depId).mp (hready.2.1 depId hdep)).1
  rw [hwf.satisfied_iff hmem.1, hmem.2]
  simp only [Bool.true_eq_false, false_or, true_and]
  exact and_iff_left hdeps

theorem ParallelOutcome.advance (hwf : WellFormedSteps steps)
    (hskip : ∀ s ∈ steps, s.skipOnFailure = false)
    (hstop : ∀ s ∈ steps, ¬ x.Creates s → s.errorAction ≠ .stop)
    (h : ParallelOutcome x steps done st)
    (hsplit : st.readySteps = waveDone ++ ignored)
    (hdone : Processed x waveDone (st.tick.skipSteps st.skipOnFailureSteps) st')
    (hend : (st'.shouldStop = false ∧ ignored = []) ∨ (st'.shouldStop = true ∧
      ∃ step ∈ waveDone, ¬ x.Creates step ∧ step.errorAction = .stop)) :
    ParallelOutcome x steps (done ++ waveDone)
      { st' with remainingSteps := st'.remainingSteps.filter fun s => s ∉ st.readySteps } := by
  have hready : ∀ s ∈ waveDone, s ∈ st.readySteps := fun s hs => by
    rw [hsplit]
    exact List.mem_append_left ignored hs
  have hsteps : ∀ s ∈ waveDone, s ∈ steps ∧ s.enabled = true := fun s hs =>
    h.remaining s (mem_readySteps.mp (hready s hs)).1
  have hnostop : st'.shouldStop = false ∧ ignored = [] := by
    rcases hend with hend | ⟨_, step, hstep, hcreates, hact⟩
    · exact hend
    · exact absurd hact (hstop step (hsteps step hstep).1 hcreates)
  have hnil := h.skipOnFailureSteps_eq_nil hskip
  have hpart := h.partition.advance hwf hsplit hdone hend
  rw [hnil, List.nil_append, hnostop.2] at hpart
  have hskipped := skipSteps_spec st.skipOnFailureSteps st.tick
  have hsat : ∀ s ∈ waveDone, (Satisfied x steps s.stepId ↔ x.Creates s) :=
    fun s hs => h.satisfied_iff_of_ready hwf (hready s hs)
  refine ⟨hpart, ?_, fun id => ?_, fun s hs => ?_, hnostop.1⟩
  · dsimp only
    rw [hdone.completed, hdone.failed, hdone.skipped, hskipped.completed, hskipped.failed,
      hskipped.skipped, hnil, stepTexts_nil, List.append_nil]
    exact h.lists.append (fun s hs => (hsteps s hs).2) hsat
  · dsimp only
    rw [hdone.ids, hskipped.ids, hnil]
    simp only [List.not_mem_nil, false_and, exists_false, or_false]
    constructor
    · intro hid
      rcases hid with hid | ⟨s, hs, hcreates, rfl⟩
      · rcases (h.ids id).mp hid with ⟨hid, s, hs, heq⟩
        exact ⟨hid, s, List.mem_append_left _ hs, heq⟩
      · exact ⟨(hsat s hs).mpr hcreates, s, List.mem_append_right _ hs, rfl⟩
    · intro hid
      rcases hid with ⟨hid, s, hs, rfl⟩
      rcases List.mem_append.mp hs with hs | hs
      · exact Or.inl ((h.ids _).mpr ⟨hid, s, hs, rfl⟩)
      · exact Or.inr ⟨s, hs, (hsat s hs).mp hid, rfl⟩
  · have hmem : s ∈ st'.remainingSteps := List.mem_of_mem_filter hs
    rw [hdone.remaining, hskipped.remaining] at hmem
    exact h.remaining s ((List.diff_sublist _ _).subset hmem)

theorem ParallelOutcome.mem_ids_of_satisfied (h : ParallelOutcome x steps done st)
    (hskip : ∀ s ∈ steps, s.skipOnFailure = false) (hready : st.readySteps = [])
    (hdisabled : ∀ s ∈ steps, s.enabled = false → s ∈ done) {id : UUID}
    (hsat : Satisfied x steps id) : id ∈ st.completedStepIds := by
  induction hsat with
  | @disabled s hs henabled =>
    exact (h.ids _).mpr ⟨.disabled hs henabled, s, hdisabled s hs henabled, rfl⟩
  | @completed s hs henabled hcreates hdeps ih =>
    rw [h.ids]
    refine ⟨.completed hs henabled hcreates hdeps, s, ?_, rfl⟩
    have hmem : s ∈ done ++ (st.remainingSteps ++ []) := h.partition.perm.mem_iff.mpr hs
    rw [List.append_nil] at hmem
    rcases List.mem_append.mp hmem with hdone | hremaining
    · exact hdone
    · -- a remaining step with satisfied dependencies would be ready
      have hs' : s ∈ st.readySteps := by
        rw [mem_readySteps, dependenciesMet_iff, hskip s hs]
        exact ⟨hremaining, ih, by simp⟩
      rw [hready] at hs'
      cases hs'

/-- A run without stops and skips completes the steps that are satisfied. -/
theorem parallelRun_outcome (hwf : WellFormedSteps steps) (htime : ∀ n, x.timedOut n = false)
    (hskip : ∀ s ∈ steps, s.skipOnFailure = false)
    (hstop : ∀ s ∈ steps, ¬ x.Creates s → s.errorAction ≠ .stop)
    (h : parallelRun x steps = .ok st) :
    OutcomeLists x steps steps st.completedSteps st.failedSteps st.skippedSteps := by
  have hturn : ∀ st st', (∃ done, ParallelOutcome x steps done st) → st.shouldStop = false →
      Wave x st st' false → ∃ done, ParallelOutcome x steps done st' := by
    intro st st' hI _ hwave
    rcases hI with ⟨done, hI⟩
    cases hwave with
    | advanced _ _ hsplit hdone hend => exact ⟨_, hI.advance hwf hskip hstop hsplit hdone hend⟩
  rcases parallelRun_rule _ ⟨_, (parallelStart steps).outcome⟩ hturn h with
    ⟨last, ⟨done, hlast⟩, hend⟩
  have hperm := hlast.partition.perm
  rw [List.append_nil] at hperm
  rcases hend with ⟨heq, hend⟩ | ⟨_, hwave⟩
  · subst heq
    have hnil : st.remainingSteps = [] := by
      rcases hend with hend | hend
      · exact hend
      · rw [hlast.shouldStop] at hend
        cases hend
    rw [hnil, List.append_nil] at hperm
    exact hlast.lists.of_perm hperm
  · cases hwave with
    | timedOut hlate =>
      rw [htime] at hlate
      cases hlate
    | stalled _ hready =>
      have hskipped := skipSteps_spec last.skipOnFailureSteps last.tick
      have hnil := hlast.skipOnFailureSteps_eq_nil hskip
      have hdisabled : ∀ s ∈ steps, s.enabled = false → s ∈ done := by
        intro s hs henabled
        rcases List.mem_append.mp (hperm.mem_iff.mpr hs) with hdone | hremaining
        · exact hdone
        · rw [(hlast.remaining s hremaining).2] at henabled
          cases henabled
      have hblocked : ∀ s ∈ last.remainingSteps, ¬ Satisfied x steps s.stepId := by
        intro s hs hsat
        have hid := hlast.mem_ids_of_satisfied hskip hready hdisabled hsat
        rcases (hlast.ids _).mp hid with ⟨_, t, ht, heq⟩
        have htsteps : t ∈ steps := hperm.mem_iff.mp (List.mem_append_left _ ht)
        have hts := hwf.eq_of_stepId_eq htsteps (hlast.remaining s hs).1 heq
        have hnodup := hperm.nodup_iff.mpr hwf.nodup_steps
        exact (List.nodup_append.mp hnodup).2.2 t ht s hs hts
      rw [failRemaining_eq]
      dsimp only
      rw [hskipped.completed, hskipped.failed, hskipped.skipped, hskipped.remaining, hnil,
        stepTexts_nil, List.append_nil, List.diff_nil]
      exact (hlast.lists.append_failed (fun s hs => (hlast.remaining s hs).2) hblocked).of_perm
        hperm

end

end OmnibaseCore.Workflow
