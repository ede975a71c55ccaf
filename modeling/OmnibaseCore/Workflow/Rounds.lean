import OmnibaseCore.Workflow.ModeTheorems

/-!
# The rounds of a parallel run

An abstract account of what `_execute_parallel` does when nothing times out and no failing
step stops it: in each round the steps that are due are skipped, completed or failed, all at
once. `Progress` records only which ids have been settled (completed or skipped) and handled;
the loop follows it round by round (`FollowsRounds`).

The loop ends with the first round in which every due step is skipped. The steps that are
skipped then still settle their ids, but what becomes due by that is not run any more: it
fails. `failuresJustified_iff` says exactly when a run does not fail a step in this way.
-/

namespace OmnibaseCore.Workflow

/-! ## Rounds -/

/-- How far the rounds have come. -/
structure Progress where
  /-- the ids of the completed and the skipped steps -/
  settled : Finset UUID
  /-- the settled ids and those of the failed steps -/
  handled : Finset UUID
  anyFailed : Bool

/-- A step is due when it has not been handled and its dependencies are settled. -/
def Progress.Due (p : Progress) (step : ModelWorkflowStep) : Prop :=
  step.enabled = true ∧ step.stepId ∉ p.handled ∧ ∀ depId ∈ step.dependsOn, depId ∈ p.settled

/-- A step with `skip_on_failure` is skipped once a step has failed. -/
def Progress.Skips (p : Progress) (step : ModelWorkflowStep) : Prop :=
  step.skipOnFailure = true ∧ p.anyFailed = true

instance (p : Progress) (step : ModelWorkflowStep) : Decidable (p.Due step) :=
  inferInstanceAs (Decidable (_ ∧ _))

instance (p : Progress) (step : ModelWorkflowStep) : Decidable (p.Skips step) :=
  inferInstanceAs (Decidable (_ ∧ _))

section
variable (fails : ModelWorkflowStep → Prop) [DecidablePred fails]
  (steps : List ModelWorkflowStep)

/-- One round. -/
def Progress.next (p : Progress) : Progress where
  settled := p.settled ∪ stepIds (steps.filter fun s => p.Due s ∧ (p.Skips s ∨ ¬ fails s))
  handled := p.handled ∪ stepIds (steps.filter fun s => p.Due s)
  anyFailed := p.anyFailed || steps.any fun s => p.Due s ∧ ¬ p.Skips s ∧ fails s

def progress : ℕ → Progress
  | 0 => {
      settled := stepIds (steps.filter fun s => !s.enabled)
      handled := stepIds (steps.filter fun s => !s.enabled)
      anyFailed := false }
  | k + 1 => (progress k).next fails steps

/-- No due step is run in this round: all are skipped, or there are none. -/
def Stalls (k : ℕ) : Prop :=
  ∀ s ∈ steps, (progress fails steps k).Due s → (progress fails steps k).Skips s

/-- Of the steps that are due only after the first round that runs no step, none could have
been completed. -/
def StallsCleanly : Prop :=
  ∀ k, (∀ j < k, ¬ Stalls fails steps j) → Stalls fails steps k →
    ∀ s ∈ steps, (progress fails steps (k + 1)).Due s → fails s

instance (k : ℕ) : Decidable (Stalls fails steps k) :=
  inferInstanceAs (Decidable (∀ s ∈ steps, _))

end

section
variable {fails : ModelWorkflowStep → Prop} [DecidablePred fails]
  {steps : List ModelWorkflowStep}

variable {s : ModelWorkflowStep}

theorem mem_stepIds_filter (hwf : WellFormedSteps steps) {p : ModelWorkflowStep → Prop}
    [DecidablePred p] (hs : s ∈ steps) : s.stepId ∈ stepIds (steps.filter fun s => p s) ↔ p s := by
  rw [mem_stepIds]
  constructor
  · intro hmem
    rcases hmem with ⟨t, ht, heq⟩
    rw [List.mem_filter, decide_eq_true_eq] at ht
    rw [← hwf.eq_of_stepId_eq ht.1 hs heq]
    exact ht.2
  · exact fun h => ⟨s, List.mem_filter.mpr ⟨hs, decide_eq_true h⟩, rfl⟩

variable {k : ℕ}

theorem mem_settled_succ (hwf : WellFormedSteps steps) (hs : s ∈ steps) :
    s.stepId ∈ (progress fails steps (k + 1)).settled ↔
      s.stepId ∈ (progress fails steps k).settled ∨ ((progress fails steps k).Due s ∧
        ((progress fails steps k).Skips s ∨ ¬ fails s)) := by
  rw [progress, Progress.next]
  dsimp only
  rw [Finset.mem_union, mem_stepIds_filter hwf hs]

theorem mem_handled_succ (hwf : WellFormedSteps steps) (hs : s ∈ steps) :
    s.stepId ∈ (progress fails steps (k + 1)).handled ↔
      s.stepId ∈ (progress fails steps k).handled ∨ (progress fails steps k).Due s := by
  rw [progress, Progress.next]
  dsimp only
  rw [Finset.mem_union, mem_stepIds_filter hwf hs]

theorem anyFailed_succ : (progress fails steps (k + 1)).anyFailed = true ↔
    (progress fails steps k).anyFailed = true ∨ ∃ s ∈ steps, (progress fails steps k).Due s ∧
      ¬ (progress fails steps k).Skips s ∧ fails s := by
  rw [progress, Progress.next]
  simp

theorem settled_subset {id : UUID} (h : id ∈ (progress fails steps k).settled) :
    ∃ s ∈ steps, s.stepId = id := by
  induction k with
  | zero =>
    rcases mem_stepIds.mp h with ⟨s, hs, heq⟩
    exact ⟨s, List.mem_of_mem_filter hs, heq⟩
  | succ k ih =>
    rw [progress, Progress.next] at h
    dsimp only at h
    rcases Finset.mem_union.mp h with h | h
    · exact ih h
    · rcases mem_stepIds.mp h with ⟨s, hs, heq⟩
      exact ⟨s, List.mem_of_mem_filter hs, heq⟩

theorem settled_mono {j k : ℕ} (hjk : j ≤ k) :
    (progress fails steps j).settled ⊆ (progress fails steps k).settled := by
  induction hjk with
  | refl => exact Finset.Subset.refl _
  | step _ ih =>
    rw [progress, Progress.next]
    exact ih.trans Finset.subset_union_left

theorem mem_settled_zero (hwf : WellFormedSteps steps) (hs : s ∈ steps) :
    s.stepId ∈ (progress fails steps 0).settled ↔ s.enabled = false := by
  have hmem := mem_stepIds_filter hwf (p := fun s => (!s.enabled) = true) hs
  simpa [progress] using hmem

theorem settled_of_disabled (hwf : WellFormedSteps steps) (hs : s ∈ steps)
    (hdisabled : s.enabled = false) : s.stepId ∈ (progress fails steps k).settled :=
  settled_mono (Nat.zero_le k) ((mem_settled_zero hwf hs).mpr hdisabled)

theorem fails_of_handled (hwf : WellFormedSteps steps) (hs : s ∈ steps)
    (hhandled : s.stepId ∈ (progress fails steps k).handled)
    (hsettled : s.stepId ∉ (progress fails steps k).settled) : fails s := by
  induction k with
  | zero => exact absurd hhandled hsettled
  | succ k ih =>
    rw [mem_settled_succ hwf hs, not_or] at hsettled
    rcases (mem_handled_succ hwf hs).mp hhandled with h | h
    · exact ih h hsettled.1
    · by_contra hfails
      exact hsettled.2 ⟨h, Or.inr hfails⟩

theorem settled_subset_handled :
    (progress fails steps k).settled ⊆ (progress fails steps k).handled := by
  induction k with
  | zero => exact Finset.Subset.refl _
  | succ k ih =>
    rw [progress, Progress.next]
    dsimp only
    apply Finset.union_subset_union ih
    intro id hid
    rcases mem_stepIds.mp hid with ⟨s, hs, heq⟩
    rw [List.mem_filter, decide_eq_true_eq] at hs
    exact mem_stepIds.mpr ⟨s, List.mem_filter.mpr ⟨hs.1, decide_eq_true hs.2.1⟩, heq⟩

end

/-! ## The loop follows the rounds -/

def Execution.Fails (x : Execution) (step : ModelWorkflowStep) : Prop := ¬ x.Creates step

instance (x : Execution) : DecidablePred x.Fails :=
  fun step => inferInstanceAs (Decidable (¬ x.Creates step))

/-- The progress before a round of a run. -/
def Execution.progress (x : Execution) (steps : List ModelWorkflowStep) (k : ℕ) : Progress :=
  Workflow.progress x.Fails steps k

/-- The state of the loop after `k` waves agrees with the progress after `k` rounds. -/
structure FollowsRounds (x : Execution) (steps : List ModelWorkflowStep) (k : ℕ)
    (st : ParallelState) : Prop where
  partition : ∃ done, ParallelPartition steps done [] st
  running : ∀ j < k, ¬ Stalls x.Fails steps j
  ids : ∀ id, id ∈ st.completedStepIds ↔ id ∈ (x.progress steps k).settled
  failed : st.failedSteps ≠ [] ↔ (x.progress steps k).anyFailed = true
  remaining : ∀ s, s ∈ st.remainingSteps ↔
    s ∈ steps ∧ s.enabled = true ∧ s.stepId ∉ (x.progress steps k).handled
  results : ∀ s ∈ steps, (s.stepId.str ∈ st.completedSteps ∨ s.stepId.str ∈ st.skippedSteps) ↔
    s.stepId ∈ (x.progress steps k).settled
  shouldStop : st.shouldStop = false

section
variable {x : Execution} {steps : List ModelWorkflowStep} {k : ℕ} {st st' : ParallelState}

theorem ParallelStart.followsRounds (hwf : WellFormedSteps steps) (h : ParallelStart steps st) :
    FollowsRounds x steps 0 st := by
  have hids : ∀ s ∈ steps, s.stepId ∈ (x.progress steps 0).settled ↔ s.enabled = false :=
    fun s hs => mem_settled_zero hwf hs
  refine ⟨⟨_, h.partition⟩, by simp, fun id => ?_, ?_, fun s => ?_, fun s hs => ?_, h.shouldStop⟩
  · rw [h.ids]
    unfold Execution.progress progress
    dsimp only
    rw [mem_stepIds]
    simp only [List.mem_filter, Bool.not_eq_true', and_assoc]
  · rw [h.failed]
    simp [Execution.progress, progress]
  · rw [h.remaining, List.mem_filter]
    refine and_congr_right fun hs => ?_
    have hhandled : s.stepId ∈ (x.progress steps 0).handled ↔ s.enabled = false := hids s hs
    rw [hhandled]
    simp
  · have hsubset : steps.filter (fun s => !s.enabled) ⊆ steps :=
      fun t ht => List.mem_of_mem_filter ht
    rw [h.completed, h.skipped, hids s hs, hwf.str_mem_iff hsubset hs, List.mem_filter]
    simp [hs]

variable {s : ModelWorkflowStep}

section
variable (h : FollowsRounds x steps k st)
include h

theorem FollowsRounds.due_iff :
    s ∈ st.remainingSteps ∧ dependenciesMet s st.completedStepIds = true ↔
      s ∈ steps ∧ (x.progress steps k).Due s := by
  rw [h.remaining, dependenciesMet_iff]
  simp only [h.ids]
  unfold Progress.Due
  tauto

theorem FollowsRounds.mem_readySteps_iff : s ∈ st.readySteps ↔
      s ∈ steps ∧ (x.progress steps k).Due s ∧ ¬ (x.progress steps k).Skips s := by
  rw [mem_readySteps, ← and_assoc, h.due_iff, h.failed, and_assoc]
  rfl

theorem FollowsRounds.mem_skipOnFailureSteps_iff :
    s ∈ st.skipOnFailureSteps ↔
      s ∈ steps ∧ (x.progress steps k).Due s ∧ (x.progress steps k).Skips s := by
  rw [mem_skipOnFailureSteps, ← and_assoc, h.due_iff, h.failed, and_assoc]
  rfl

end

theorem FollowsRounds.mem_settled_succ_iff (hwf : WellFormedSteps steps)
    (h : FollowsRounds x steps k st) (hs : s ∈ steps) :
    s.stepId ∈ (x.progress steps (k + 1)).settled ↔ s.stepId ∈ (x.progress steps k).settled ∨
      (s ∈ st.skipOnFailureSteps ∨ (s ∈ st.readySteps ∧ x.Creates s)) := by
  unfold Execution.progress
  rw [mem_settled_succ hwf hs]
  apply or_congr_right
  rw [h.mem_skipOnFailureSteps_iff, h.mem_readySteps_iff]
  unfold Execution.progress Execution.Fails
  tauto

/-- A wave that goes on is a round that does not stall. -/
theorem FollowsRounds.advance (hwf : WellFormedSteps steps)
    (h : FollowsRounds x steps k st) (hready : st.readySteps ≠ []) (hgo : st'.shouldStop = false)
    {waveDone ignored : List ModelWorkflowStep} (hsplit : st.readySteps = waveDone ++ ignored)
    (hdone : Processed x waveDone (st.tick.skipSteps st.skipOnFailureSteps) st')
    (hend : (st'.shouldStop = false ∧ ignored = []) ∨ (st'.shouldStop = true ∧
      ∃ step ∈ waveDone, ¬ x.Creates step ∧ step.errorAction = .stop)) :
    FollowsRounds x steps (k + 1)
      { st' with remainingSteps := st'.remainingSteps.filter fun s => s ∉ st.readySteps } := by
  have hsteps : ∀ s ∈ st.readySteps, s ∈ steps := fun s hs => (h.mem_readySteps_iff.mp hs).1
  have hskipSteps : ∀ s ∈ st.skipOnFailureSteps, s ∈ steps :=
    fun s hs => (h.mem_skipOnFailureSteps_iff.mp hs).1
  have hignored : ignored = [] := by
    rcases hend with hend | ⟨hstop, _⟩
    · exact hend.2
    · rw [hgo] at hstop
      cases hstop
  rcases h.partition with ⟨done, hpart⟩
  have hnext := hpart.advance hwf hsplit hdone hend
  rw [hignored] at hnext
  rw [hignored, List.append_nil] at hsplit
  subst hsplit
  have hskipped := skipSteps_spec st.skipOnFailureSteps st.tick
  refine ⟨⟨_, hnext⟩, fun j hj => ?_, fun id => ?_, ?_, fun s => ?_, fun s hs => ?_, hgo⟩
  · rcases Nat.lt_succ_iff_lt_or_eq.mp hj with hj | rfl
    · exact h.running j hj
    · intro hstalls
      rcases List.exists_mem_of_ne_nil _ hready with ⟨s, hs⟩
      rcases h.mem_readySteps_iff.mp hs with ⟨hmem, hdue, hnot⟩
      exact hnot (hstalls s hmem hdue)
  · dsimp only
    rw [hdone.ids, hskipped.ids]
    constructor
    · intro hid
      rcases hid with (hid | ⟨s, hs, rfl⟩) | ⟨s, hs, hcreates, rfl⟩
      · rcases settled_subset ((h.ids id).mp hid) with ⟨s, hs, rfl⟩
        exact (h.mem_settled_succ_iff hwf hs).mpr (Or.inl ((h.ids _).mp hid))
      · exact (h.mem_settled_succ_iff hwf (hskipSteps s hs)).mpr (Or.inr (Or.inl hs))
      · exact (h.mem_settled_succ_iff hwf (hsteps s hs)).mpr (Or.inr (Or.inr ⟨hs, hcreates⟩))
    · intro hid
      rcases settled_subset hid with ⟨s, hs, rfl⟩
      rcases (h.mem_settled_succ_iff hwf hs).mp hid with hid | hid | hid
      · exact Or.inl (Or.inl ((h.ids _).mpr hid))
      · exact Or.inl (Or.inr ⟨s, hid, rfl⟩)
      · exact Or.inr ⟨s, hid.1, hid.2, rfl⟩
  · dsimp only
    rw [hdone.failed, hskipped.failed]
    unfold Execution.progress
    rw [anyFailed_succ]
    have hlist : stepTexts (st.readySteps.filter (¬ x.Creates ·)) ≠ [] ↔
        ∃ s ∈ steps, (Workflow.progress x.Fails steps k).Due s ∧
          ¬ (Workflow.progress x.Fails steps k).Skips s ∧ x.Fails s := by
      unfold stepTexts
      rw [ne_eq, List.map_eq_nil_iff, List.eq_nil_iff_forall_not_mem, not_forall]
      refine exists_congr fun s => ?_
      rw [not_not]
      rw [List.mem_filter, decide_eq_true_eq, h.mem_readySteps_iff]
      unfold Execution.progress Execution.Fails
      tauto
    have hold : st.tick.failedSteps ≠ [] ↔
        (Workflow.progress x.Fails steps k).anyFailed = true := h.failed
    rw [← hlist, ← hold, ne_eq, List.append_eq_nil_iff]
    tauto
  · dsimp only
    rw [hdone.waiting]
    unfold ParallelState.waitingSteps
    rw [(hpart.nodup_remaining hwf).sdiff_eq_filter, List.mem_filter, List.mem_filter,
      decide_eq_true_eq, decide_eq_true_eq, h.remaining, h.mem_readySteps_iff,
      h.mem_skipOnFailureSteps_iff]
    have hhandled : s ∈ steps → (s.stepId ∈ (x.progress steps (k + 1)).handled ↔
        s.stepId ∈ (x.progress steps k).handled ∨ (x.progress steps k).Due s) :=
      mem_handled_succ hwf
    tauto
  · dsimp only
    rw [hdone.completed, hdone.skipped, hskipped.completed, hskipped.skipped, List.mem_append,
      List.mem_append, h.mem_settled_succ_iff hwf hs, ← h.results s hs,
      hwf.str_mem_iff (fun t ht => hskipSteps t ht) hs,
      hwf.str_mem_iff (fun t ht => hsteps t (List.mem_of_mem_filter ht)) hs, List.mem_filter,
      decide_eq_true_eq]
    have hc : s.stepId.str ∈ st.tick.completedSteps ↔ s.stepId.str ∈ st.completedSteps := Iff.rfl
    have hs' : s.stepId.str ∈ st.tick.skippedSteps ↔ s.stepId.str ∈ st.skippedSteps := Iff.rfl
    rw [hc, hs']
    tauto

/-- A run ends with the first round that runs no step. -/
theorem parallelRun_rounds (hwf : WellFormedSteps steps) (htime : ∀ n, x.timedOut n = false)
    (hstop : ∀ s ∈ steps, ¬ x.Creates s → s.errorAction ≠ .stop)
    (h : parallelRun x steps = .ok st) :
    ∃ k, (∀ j < k, ¬ Stalls x.Fails steps j) ∧ Stalls x.Fails steps k ∧
      (st.completedSteps ++ st.failedSteps ++ st.skippedSteps).Perm (stepTexts steps) ∧
      ∀ s ∈ steps, (s.stepId.str ∈ st.completedSteps ∨ s.stepId.str ∈ st.skippedSteps) ↔
        s.stepId ∈ (x.progress steps (k + 1)).settled := by
  have hturn : ∀ st st', (∃ k, FollowsRounds x steps k st) → st.shouldStop = false →
      Wave x st st' false → ∃ k, FollowsRounds x steps k st' := by
    intro st st' hI _ hwave
    rcases hI with ⟨k, hI⟩
    cases hwave with
    | advanced _ hready hsplit hdone hend =>
      rcases hend with hend | ⟨_, step, hstep, hno, hact⟩
      · exact ⟨k + 1, hI.advance hwf hready hend.1 hsplit hdone (Or.inl hend)⟩
      · have hmem : step ∈ st.readySteps := by
          rw [hsplit]
          exact List.mem_append_left _ hstep
        exact absurd hact (hstop step (hI.mem_readySteps_iff.mp hmem).1 hno)
  rcases parallelRun_rule _ ⟨0, (parallelStart steps).followsRounds hwf⟩ hturn h with
    ⟨last, ⟨k, hlast⟩, hend⟩
  rcases hlast.partition with ⟨done, hpart⟩
  refine ⟨k, hlast.running, ?_⟩
  rcases hend with ⟨heq, hend⟩ | ⟨_, hwave⟩
  · subst heq
    have hnil : st.remainingSteps = [] := by
      rcases hend with hend | hend
      · exact hend
      · rw [hlast.shouldStop] at hend
        cases hend
    -- with no step left the last round changes nothing
    have hnone : ∀ s ∈ steps, ¬ (x.progress steps k).Due s := by
      intro s hs hdue
      have hmem := (hlast.due_iff.mpr ⟨hs, hdue⟩).1
      rw [hnil] at hmem
      cases hmem
    refine ⟨fun s hs hdue => absurd hdue (hnone s hs), ?_, fun s hs => ?_⟩
    · have hdone : done.Perm steps := by
        have hperm := hpart.perm
        rwa [hnil, List.append_nil, List.append_nil] at hperm
      exact hpart.lists.trans (hdone.map _)
    · rw [hlast.results s hs]
      unfold Execution.progress
      rw [mem_settled_succ hwf hs]
      exact (or_iff_left fun h => hnone s hs h.1).symm
  · cases hwave with
    | timedOut hlate =>
      rw [htime] at hlate
      cases hlate
    | stalled _ hready =>
      have hskipped := skipSteps_spec last.skipOnFailureSteps last.tick
      have hremaining := remainingSteps_perm (hpart.nodup_remaining hwf)
      rw [hready, List.nil_append] at hremaining
      have hfinal := hpart.failRemaining hremaining hskipped (skipSteps_remaining hready)
      refine ⟨fun s hs hdue => ?_, hfinal.2.trans (hfinal.1.map _), fun s hs => ?_⟩
      · by_contra hnot
        have hmem := hlast.mem_readySteps_iff.mpr ⟨hs, hdue, hnot⟩
        rw [hready] at hmem
        cases hmem
      · have hskipSteps : ∀ s ∈ last.skipOnFailureSteps, s ∈ steps :=
          fun s hs => (hlast.mem_skipOnFailureSteps_iff.mp hs).1
        rw [failRemaining_eq]
        dsimp only
        rw [hskipped.completed, hskipped.skipped, List.mem_append,
          hlast.mem_settled_succ_iff hwf hs, ← hlast.results s hs, hready,
          hwf.str_mem_iff (fun t ht => hskipSteps t ht) hs]
        have hc : s.stepId.str ∈ last.tick.completedSteps ↔
          s.stepId.str ∈ last.completedSteps := Iff.rfl
        have hs' : s.stepId.str ∈ last.tick.skippedSteps ↔
          s.stepId.str ∈ last.skippedSteps := Iff.rfl
        rw [hc, hs']
        simp only [List.not_mem_nil, false_and, or_false]
        tauto

/-! ## Which steps fail -/

/-- A step that fails has a reason: its own action, or a dependency that failed. -/
structure FailuresJustified (x : Execution) (steps : List ModelWorkflowStep)
    (result : ModelDeclarativeWorkflowResult) : Prop where
  failed : ∀ s ∈ steps, s.enabled = true → s.stepId.str ∈ result.failedSteps →
    ¬ x.Creates s ∨ ∃ depId ∈ s.dependsOn, depId.str ∈ result.failedSteps
  satisfied : ∀ s ∈ steps, (∀ depId ∈ s.dependsOn, depId.str ∈ result.completedSteps ∨
      depId.str ∈ result.skippedSteps) →
    s.stepId.str ∈ result.completedSteps ∨ s.stepId.str ∈ result.skippedSteps ∨
      (¬ x.Creates s ∧ s.stepId.str ∈ result.failedSteps)

/-- The first round that runs no step is unique. -/
theorem Stalls.unique {j : ℕ} (hk : ∀ i < k, ¬ Stalls x.Fails steps i)
    (hkstalls : Stalls x.Fails steps k) (hj : ∀ i < j, ¬ Stalls x.Fails steps i)
    (hjstalls : Stalls x.Fails steps j) : j = k := by
  rcases Nat.lt_trichotomy j k with hlt | heq | hgt
  · exact absurd hjstalls (hk j hlt)
  · exact heq
  · exact absurd hkstalls (hj k hgt)

/-- With no failing step that stops the workflow and enough time, no step fails without a
reason, exactly if no step becomes due only by the skips of the first round that runs no
step, except one whose own action cannot be created. -/
theorem failuresJustified_iff {σ : SetOrder UUID} {result : ModelDeclarativeWorkflowResult}
    (hacc : Accepted σ x.limits x.definition steps) (htime : ∀ n, x.timedOut n = false)
    (hstop : ∀ s ∈ steps, ¬ x.Creates s → s.errorAction ≠ .stop)
    (h : executeParallel x steps = .ok result) :
    FailuresJustified x steps result ↔ StallsCleanly x.Fails steps := by
  have hwf := hacc.wellFormed
  have hpart := executeParallel_partition hwf h
  rcases exists_parallelRun h with ⟨st, hrun, hc, hf, hs, _, _⟩
  rcases parallelRun_rounds hwf htime hstop hrun with ⟨k, hrunning, hstalls, hperm, hsettled⟩
  rw [← hc, ← hf, ← hs] at hperm
  rw [← hc, ← hs] at hsettled
  have hfailed : ∀ s ∈ steps, s.stepId.str ∈ result.failedSteps ↔
      s.stepId ∉ (x.progress steps (k + 1)).settled := by
    intro s hmem
    rw [← hsettled s hmem, not_or]
    constructor
    · exact fun hmem => ⟨fun hc => hpart.completed_failed hc hmem,
        fun hs => hpart.failed_skipped hmem hs⟩
    · intro hnot
      have hall := hperm.mem_iff.mpr (mem_stepTexts.mpr ⟨s, hmem, rfl⟩)
      rw [List.mem_append, List.mem_append] at hall
      tauto
  have hdep : ∀ s ∈ steps, ∀ depId ∈ s.dependsOn, ∃ t ∈ steps, t.stepId = depId :=
    fun s hmem depId hdepId => mem_stepIds.mp (hwf.dependsOn_mem s hmem depId hdepId)
  constructor
  · intro hjust k' hrunning' hstalls' s hmem hdue
    rw [Stalls.unique hrunning hstalls hrunning' hstalls'] at hdue
    have hnot : s.stepId ∉ (x.progress steps (k + 1)).settled :=
      fun hid => hdue.2.1 (settled_subset_handled hid)
    rcases hjust.failed s hmem hdue.1 ((hfailed s hmem).mpr hnot) with hown | hother
    · exact hown
    · rcases hother with ⟨depId, hdepId, hdepFailed⟩
      rcases hdep s hmem depId hdepId with ⟨t, ht, rfl⟩
      exact absurd (hdue.2.2 _ hdepId) ((hfailed t ht).mp hdepFailed)
  · intro hclean
    -- a step that is not settled has failed by itself, or was due too late, or not at all
    have hreason : ∀ s ∈ steps, s.enabled = true → s.stepId.str ∈ result.failedSteps →
        ¬ x.Creates s ∨ ∃ depId ∈ s.dependsOn, depId.str ∈ result.failedSteps := by
      intro s hmem henabled hmemFailed
      rw [hfailed s hmem] at hmemFailed
      by_cases hhandled : s.stepId ∈ (x.progress steps (k + 1)).handled
      · exact Or.inl (fails_of_handled hwf hmem hhandled hmemFailed)
      · by_cases hdeps : ∀ depId ∈ s.dependsOn, depId ∈ (x.progress steps (k + 1)).settled
        · exact Or.inl (hclean k hrunning hstalls s hmem ⟨henabled, hhandled, hdeps⟩)
        · rw [not_forall₂] at hdeps
          rcases hdeps with ⟨depId, hdepId, hnot⟩
          rcases hdep s hmem depId hdepId with ⟨t, ht, rfl⟩
          exact Or.inr ⟨t.stepId, hdepId, (hfailed t ht).mpr hnot⟩
    refine ⟨hreason, fun s hmem hdeps => ?_⟩
    by_cases hid : s.stepId ∈ (x.progress steps (k + 1)).settled
    · rcases (hsettled s hmem).mpr hid with hcompleted | hskipped
      · exact Or.inl hcompleted
      · exact Or.inr (Or.inl hskipped)
    · have hmemFailed := (hfailed s hmem).mpr hid
      have henabled : s.enabled = true := by
        by_contra hdisabled
        rw [Bool.not_eq_true] at hdisabled
        exact hid (settled_of_disabled hwf hmem hdisabled)
      rcases hreason s hmem henabled hmemFailed with hown | ⟨depId, hdepId, hdepFailed⟩
      · exact Or.inr (Or.inr ⟨hown, hmemFailed⟩)
      · rcases hdeps depId hdepId with hcompleted | hskipped
        · exact absurd hdepFailed (fun h => hpart.completed_failed hcompleted h)
        · exact absurd hskipped (fun h => hpart.failed_skipped hdepFailed h)

end

/-- The first step fails, so the third is skipped in the second round, the first in which no
step is run. The fourth then waits for nothing, and fails. -/
def lateSteps : List ModelWorkflowStep := [
  computeStep 1 longName [],
  computeStep 2 "second" [],
  { computeStep 3 "third" [⟨2⟩] with skipOnFailure := true },
  computeStep 4 "fourth" [⟨3⟩]]

theorem lateSteps_result : Accepted (.ascending UUID) smallPayloadLimits
      (computeExecution smallPayloadLimits).definition lateSteps ∧
    (∀ s ∈ lateSteps, s.errorAction ≠ .stop) ∧
    ∃ result, executeParallel (computeExecution smallPayloadLimits) lateSteps = .ok result ∧
      (UUID.mk 4).str ∈ result.failedSteps ∧ (UUID.mk 3).str ∉ result.failedSteps := by
  refine ⟨by decide +kernel, by decide +kernel, ?_⟩
  have hfailed : (executeParallel (computeExecution smallPayloadLimits) lateSteps).map
      (fun r => r.failedSteps) = .ok [(UUID.mk 1).str, (UUID.mk 4).str] := by
    decide +kernel
  cases hresult : executeParallel (computeExecution smallPayloadLimits) lateSteps with
  | error e =>
    rw [hresult] at hfailed
    cases hfailed
  | ok result =>
    rw [hresult] at hfailed
    have hlist : result.failedSteps = [(UUID.mk 1).str, (UUID.mk 4).str] := Except.ok.inj hfailed
    refine ⟨result, rfl, ?_, ?_⟩
    · rw [hlist]
      decide +kernel
    · rw [hlist]
      decide +kernel

theorem failuresJustified_iff_lateSteps :
    ∃ result, executeParallel (computeExecution smallPayloadLimits) lateSteps = .ok result ∧
      (FailuresJustified (computeExecution smallPayloadLimits) lateSteps result ↔
        StallsCleanly (computeExecution smallPayloadLimits).Fails lateSteps) := by
  rcases lateSteps_result with ⟨hacc, hstop, result, hresult, _, _⟩
  exact ⟨result, hresult, failuresJustified_iff hacc (computeExecution_timedOut _)
    (fun s hs _ => hstop s hs) hresult⟩

theorem lateSteps_not_failuresJustified :
    Accepted (.ascending UUID) smallPayloadLimits
        (computeExecution smallPayloadLimits).definition lateSteps ∧
      (∀ n, (computeExecution smallPayloadLimits).timedOut n = false) ∧
      (∀ s ∈ lateSteps, s.errorAction ≠ .stop) ∧
      ∃ result, executeParallel (computeExecution smallPayloadLimits) lateSteps = .ok result ∧
        ¬ FailuresJustified (computeExecution smallPayloadLimits) lateSteps result := by
  rcases lateSteps_result with ⟨hacc, hstop, result, hresult, hfourth, hthird⟩
  refine ⟨hacc, computeExecution_timedOut _, hstop, result, hresult, fun hjust => ?_⟩
  rcases hjust.failed (computeStep 4 "fourth" [⟨3⟩]) (by simp [lateSteps]) rfl hfourth with
    hown | ⟨depId, hdepId, hdepFailed⟩
  · have hcreates : (computeExecution smallPayloadLimits).Creates
        (computeStep 4 "fourth" [⟨3⟩]) := by
      decide +kernel
    exact hown hcreates
  · rw [List.mem_singleton.mp hdepId] at hdepFailed
    exact hthird hdepFailed

end OmnibaseCore.Workflow
