import OmnibaseCore.Fsm.Executor

/-!
# Theorems about the selection of transitions

`SelectionLaw` is the documented priority resolution, `ExecuteLaw` what it means for the result
of `execute_transition`. The selection evaluates guards one after the other, so that the law
can only fail when a guard raises (`transitionLaw_iff`).
-/

namespace OmnibaseCore.Fsm

/-! ## Priority resolution -/

def Matches (state trigger : String) (t : ModelFSMStateTransition) : Prop :=
  t.fromState = state ∧ t.trigger = trigger

instance (state trigger : String) (t : ModelFSMStateTransition) :
    Decidable (Matches state trigger t) :=
  inferInstanceAs (Decidable (_ ∧ _))

/-- The transition is among those that may be selected: a wildcard is, if no transition of the
state itself has the trigger. -/
def Candidate (fsm : ModelFSMSubcontract) (state trigger : String)
    (t : ModelFSMStateTransition) : Prop :=
  Matches state trigger t ∨
    (∀ u ∈ fsm.transitions, ¬ Matches state trigger u) ∧ Matches "*" trigger t

instance (fsm : ModelFSMSubcontract) (state trigger : String) (t : ModelFSMStateTransition) :
    Decidable (Candidate fsm state trigger t) :=
  inferInstanceAs (Decidable (_ ∨ _))

def Eligible (i : Interpreter) (context : Context) (t : ModelFSMStateTransition) : Prop :=
  ∀ c ∈ t.conditions, c.required = true → evaluateSingleCondition i c context = .ok true

def GuardRaises (i : Interpreter) (context : Context) (t : ModelFSMStateTransition) : Prop :=
  ∃ c ∈ t.conditions, c.required = true ∧ ∃ e, evaluateSingleCondition i c context = .error e

/-- A candidate that no eligible one goes before: those of a higher priority are not eligible,
nor are those of the same priority that are declared earlier. -/
def Foremost (i : Interpreter) (fsm : ModelFSMSubcontract) (state trigger : String)
    (context : Context) (t : ModelFSMStateTransition) : Prop :=
  Candidate fsm state trigger t ∧ Leading ModelFSMStateTransition.priority
    (fun u => Candidate fsm state trigger u ∧ Eligible i context u) fsm.transitions t

/-- The priority resolution of `ModelFSMStateTransition`. -/
structure SelectionLaw (i : Interpreter) (fsm : ModelFSMSubcontract) (state trigger : String)
    (context : Context) : Prop where
  none_iff : selectTransition i fsm state trigger context = .ok none ↔
    (∀ t ∈ fsm.transitions, ¬ Matches state trigger t) ∧
      ∀ t ∈ fsm.transitions, ¬ Matches "*" trigger t
  eligible_iff :
    (∃ t failed, selectTransition i fsm state trigger context = .ok (some ⟨t, true, failed⟩)) ↔
      ∃ t ∈ fsm.transitions, Candidate fsm state trigger t ∧ Eligible i context t
  eligible_first : ∀ t failed,
    selectTransition i fsm state trigger context = .ok (some ⟨t, true, failed⟩) →
      Eligible i context t ∧ Foremost i fsm state trigger context t
  rejected_first : (∃ t ∈ fsm.transitions, Candidate fsm state trigger t) →
    (∀ t ∈ fsm.transitions, Candidate fsm state trigger t → ¬ Eligible i context t) →
      ∃ t failed, selectTransition i fsm state trigger context = .ok (some ⟨t, false, failed⟩) ∧
        Candidate fsm state trigger t ∧
          Leading ModelFSMStateTransition.priority (Candidate fsm state trigger)
            fsm.transitions t

/-- What the result of `execute_transition` says about the guards. -/
structure ExecuteLaw (i : Interpreter) (fsm : ModelFSMSubcontract) (state trigger : String)
    (context : Context) : Prop where
  success : ∀ r, executeTransition i fsm state trigger context = .ok r → r.success = true →
    ∃ t ∈ fsm.transitions, Candidate fsm state trigger t ∧ Eligible i context t ∧
      r.transitionName = some t.transitionName ∧ r.newState = t.toState
  failure : ∀ r, executeTransition i fsm state trigger context = .ok r → r.success = false →
    r.newState = state ∧ ∀ intent ∈ r.intents, intent.intentType ≠ "persist_state"

/-- A guard raises only behind an eligible candidate, where no guard is evaluated any more. -/
def GuardsDoNotRaise (i : Interpreter) (fsm : ModelFSMSubcontract) (state trigger : String)
    (context : Context) : Prop :=
  ∀ t, Foremost i fsm state trigger context t → ¬ GuardRaises i context t

/-! ## One transition -/

section
variable {i : Interpreter} {fsm : ModelFSMSubcontract} {state trigger : String}
  {context : Context} {t : ModelFSMStateTransition}

theorem failedConditions_cases (i : Interpreter) (context : Context)
    (l : List ModelFSMTransitionCondition) :
    ((∃ e, failedConditions i context l = .error e) ∧
      ∃ c ∈ l, c.required = true ∧ ∃ e, evaluateSingleCondition i c context = .error e) ∨
    ∃ failed, failedConditions i context l = .ok failed ∧
      (failed = [] ↔ ∀ c ∈ l, c.required = true →
        evaluateSingleCondition i c context = .ok true) ∧
      ∀ c ∈ l, c.required = true → ∃ b, evaluateSingleCondition i c context = .ok b := by
  induction l with
  | nil => exact Or.inr ⟨[], rfl, by simp, by simp⟩
  | cons c l ih =>
    rw [failedConditions]
    by_cases hrequired : c.required = true
    · rw [if_neg (not_not.mpr hrequired)]
      cases hmet : evaluateSingleCondition i c context with
      | error e => exact Or.inl ⟨⟨e, rfl⟩, c, List.mem_cons_self, hrequired, e, hmet⟩
      | ok met =>
        rcases ih with ⟨⟨e, he⟩, d, hd, hraises⟩ | ⟨failed, hfailed, hnil, hall⟩
        · refine Or.inl ⟨⟨e, ?_⟩, d, List.mem_cons_of_mem c hd, hraises⟩
          rw [he]
          rfl
        · refine Or.inr ⟨if met then failed else c.conditionName :: failed, ?_, ?_, ?_⟩
          · rw [hfailed]
            rfl
          · rw [List.forall_mem_cons, ← hnil]
            cases met with
            | true => simp [hmet]
            | false => simp [hmet, hrequired]
          · rw [List.forall_mem_cons]
            exact ⟨fun _ => ⟨met, hmet⟩, hall⟩
    · rw [if_pos hrequired]
      simpa [hrequired] using ih

theorem evaluateFailedConditions_cases (i : Interpreter) (context : Context)
    (t : ModelFSMStateTransition) :
    (Eligible i context t ∧ ¬ GuardRaises i context t ∧
      evaluateFailedConditions i t context = .ok []) ∨
    (GuardRaises i context t ∧ ∃ e, evaluateFailedConditions i t context = .error e) ∨
    (¬ Eligible i context t ∧ ¬ GuardRaises i context t ∧
      ∃ failed, failed ≠ [] ∧ evaluateFailedConditions i t context = .ok failed) := by
  rcases failedConditions_cases i context t.conditions with
    ⟨herror, hraises⟩ | ⟨failed, hfailed, hnil, hall⟩
  · exact Or.inr (Or.inl ⟨hraises, herror⟩)
  · have hnot : ¬ GuardRaises i context t := by
      rintro ⟨c, hc, hrequired, e, he⟩
      rcases hall c hc hrequired with ⟨b, hb⟩
      rw [hb] at he
      cases he
    by_cases hempty : failed = []
    · exact Or.inl ⟨hnil.mp hempty, hnot, by rw [← hempty]; exact hfailed⟩
    · exact Or.inr (Or.inr ⟨fun h => hempty (hnil.mpr h), hnot, failed, hempty, hfailed⟩)

theorem not_eligible_of_guardRaises (h : GuardRaises i context t) : ¬ Eligible i context t := by
  rcases h with ⟨c, hc, hrequired, e, he⟩
  intro heligible
  rw [heligible c hc hrequired] at he
  cases he

/-! ## The loop -/

variable {first : Option TransitionSelection} {rest : List ModelFSMStateTransition}

theorem selectLoop_of_eligible (h : evaluateFailedConditions i t context = .ok []) :
    selectLoop i context first (t :: rest) = .ok (some ⟨t, true, []⟩) := by
  rw [selectLoop, h]
  rfl

theorem selectLoop_of_error {e : PyException} (h : evaluateFailedConditions i t context = .error e) :
    selectLoop i context first (t :: rest) = .error e := by
  rw [selectLoop, h]
  rfl

theorem selectLoop_of_rejected {failed : List String} (hne : failed ≠ [])
    (h : evaluateFailedConditions i t context = .ok failed) : selectLoop i context first (t :: rest)
      = selectLoop i context (first.or (some ⟨t, false, failed⟩)) rest := by
  rw [selectLoop, h]
  change (if failed = [] then _ else _) = _
  rw [if_neg hne]
  cases first with
  | none => rfl
  | some first => rfl

theorem selectLoop_cases (i : Interpreter) (context : Context)
    (first : Option TransitionSelection) (l : List ModelFSMStateTransition) :
    (∃ front u back, l = front ++ u :: back ∧
      (∀ v ∈ front, ¬ Eligible i context v ∧ ¬ GuardRaises i context v) ∧
      ((Eligible i context u ∧ selectLoop i context first l = .ok (some ⟨u, true, []⟩)) ∨
        (GuardRaises i context u ∧ ∃ e, selectLoop i context first l = .error e))) ∨
    ((∀ v ∈ l, ¬ Eligible i context v ∧ ¬ GuardRaises i context v) ∧
      ∃ rejection, selectLoop i context first l = .ok (first.or rejection) ∧
        ∀ u back, l = u :: back → ∃ failed, rejection = some ⟨u, false, failed⟩) := by
  induction l generalizing first with
  | nil =>
    refine Or.inr ⟨by simp, none, ?_, by simp⟩
    rw [selectLoop, Option.or_none]
  | cons v l ih =>
    rcases evaluateFailedConditions_cases i context v with
      ⟨heligible, -, heval⟩ | ⟨hraises, e, heval⟩ | ⟨hnot, hquiet, failed, hne, heval⟩
    · exact Or.inl ⟨[], v, l, rfl, by simp, Or.inl ⟨heligible, selectLoop_of_eligible heval⟩⟩
    · exact Or.inl ⟨[], v, l, rfl, by simp, Or.inr ⟨hraises, e, selectLoop_of_error heval⟩⟩
    · rw [selectLoop_of_rejected hne heval]
      rcases ih (first.or (some ⟨v, false, failed⟩)) with
        ⟨front, u, back, hl, hfront, hend⟩ | ⟨hall, rejection, hend, -⟩
      · exact Or.inl ⟨v :: front, u, back, by rw [hl]; rfl,
          List.forall_mem_cons.mpr ⟨⟨hnot, hquiet⟩, hfront⟩, hend⟩
      · refine Or.inr ⟨List.forall_mem_cons.mpr ⟨⟨hnot, hquiet⟩, hall⟩,
          some ⟨v, false, failed⟩, ?_, fun u back hl => ?_⟩
        · rw [hend, Option.or_assoc]
          rfl
        · rw [List.cons.injEq] at hl
          exact ⟨failed, by rw [hl.1]⟩

/-! ## The candidates -/

theorem candidates_eq_filter (fsm : ModelFSMSubcontract) (state trigger : String) :
    candidates fsm state trigger
      = fsm.transitions.filter fun t => Candidate fsm state trigger t := by
  unfold candidates
  by_cases hexact : ∀ u ∈ fsm.transitions, ¬ Matches state trigger u
  · have hnil : (fsm.transitions.filter fun t => t.fromState = state ∧ t.trigger = trigger)
        = [] := by
      rw [List.filter_eq_nil_iff]
      intro u hu h
      exact hexact u hu (of_decide_eq_true h)
    rw [hnil, if_neg (not_not.mpr rfl)]
    apply List.filter_congr
    intro t ht
    rw [decide_eq_decide]
    exact ⟨fun h => Or.inr ⟨hexact, h⟩, fun h => h.elim (fun h => absurd h (hexact t ht)) And.right⟩
  · have hne : (fsm.transitions.filter fun t => t.fromState = state ∧ t.trigger = trigger)
        ≠ [] := by
      intro hnil
      rw [List.filter_eq_nil_iff] at hnil
      exact hexact fun u hu h => hnil u hu (decide_eq_true h)
    rw [if_pos hne]
    apply List.filter_congr
    intro t _
    rw [decide_eq_decide]
    exact ⟨Or.inl, fun h => h.elim id fun h => absurd h.1 hexact⟩

theorem mem_candidates : t ∈ candidates fsm state trigger ↔
    t ∈ fsm.transitions ∧ Candidate fsm state trigger t := by
  rw [candidates_eq_filter, List.mem_filter, decide_eq_true_eq]

theorem leading_candidates {P : ModelFSMStateTransition → Prop} :
    Leading ModelFSMStateTransition.priority P (candidates fsm state trigger) t ↔
      Candidate fsm state trigger t ∧ Leading ModelFSMStateTransition.priority
        (fun u => Candidate fsm state trigger u ∧ P u) fsm.transitions t := by
  rw [candidates_eq_filter, leading_filter]
  simp only [decide_eq_true_eq]

theorem candidates_eq_nil_iff : candidates fsm state trigger = [] ↔
    (∀ t ∈ fsm.transitions, ¬ Matches state trigger t) ∧
      ∀ t ∈ fsm.transitions, ¬ Matches "*" trigger t := by
  rw [candidates_eq_filter, List.filter_eq_nil_iff]
  simp only [decide_eq_true_eq]
  constructor
  · intro h
    have hexact : ∀ t ∈ fsm.transitions, ¬ Matches state trigger t :=
      fun t ht hmatch => h t ht (Or.inl hmatch)
    exact ⟨hexact, fun t ht hmatch => h t ht (Or.inr ⟨hexact, hmatch⟩)⟩
  · rintro ⟨hexact, hwildcard⟩ t ht (hmatch | ⟨-, hmatch⟩)
    · exact hexact t ht hmatch
    · exact hwildcard t ht hmatch

/-! ## The selection -/

theorem selectTransition_of_candidates (h : candidates fsm state trigger ≠ []) :
    selectTransition i fsm state trigger context = selectLoop i context none
      (sortedDesc ModelFSMStateTransition.priority (candidates fsm state trigger)) := by
  unfold selectTransition
  dsimp only
  rw [if_neg h]

/-- An outcome of the selection when no guard raises that it comes to. -/
inductive Selected (i : Interpreter) (fsm : ModelFSMSubcontract) (state trigger : String)
    (context : Context) : Option TransitionSelection → Prop
  | none (h : candidates fsm state trigger = []) : Selected i fsm state trigger context none
  | eligible {t : ModelFSMStateTransition} (heligible : Eligible i context t)
    (hforemost : Foremost i fsm state trigger context t) :
    Selected i fsm state trigger context (some ⟨t, true, []⟩)
  | rejected {t : ModelFSMStateTransition} {failed : List String}
    (hcandidate : Candidate fsm state trigger t)
    (hleading : Leading ModelFSMStateTransition.priority (Candidate fsm state trigger)
      fsm.transitions t)
    (hnone : ∀ u ∈ fsm.transitions, Candidate fsm state trigger u → ¬ Eligible i context u) :
    Selected i fsm state trigger context (some ⟨t, false, failed⟩)

/-- The selection raises at a guard that it comes to, or it ends in one of these outcomes. -/
theorem selectTransition_cases (i : Interpreter) (fsm : ModelFSMSubcontract)
    (state trigger : String) (context : Context) :
    ((∃ t, Foremost i fsm state trigger context t ∧ GuardRaises i context t) ∧
      ∃ e, selectTransition i fsm state trigger context = .error e) ∨
    (GuardsDoNotRaise i fsm state trigger context ∧
      ∃ s, Selected i fsm state trigger context s ∧
        selectTransition i fsm state trigger context = .ok s) := by
  by_cases hempty : candidates fsm state trigger = []
  · refine Or.inr ⟨fun t hforemost => ?_, none, Selected.none hempty, ?_⟩
    · have hmem := mem_candidates.mpr ⟨mem_of_leading hforemost.2, hforemost.1⟩
      rw [hempty] at hmem
      cases hmem
    · unfold selectTransition
      dsimp only
      rw [if_pos hempty]
  rw [selectTransition_of_candidates hempty]
  rcases selectLoop_cases i context none
      (sortedDesc ModelFSMStateTransition.priority (candidates fsm state trigger)) with
    ⟨front, t, back, hsplit, hfront, hend⟩ | ⟨hall, rejection, hend, hrejection⟩
  · have hforemost : Foremost i fsm state trigger context t :=
      leading_candidates.mp (leading_iff.mpr ⟨front, back, hsplit, fun v hv => (hfront v hv).1⟩)
    rcases hend with ⟨heligible, hselect⟩ | ⟨hraises, e, hselect⟩
    · refine Or.inr ⟨fun u hu hraises => ?_, _, Selected.eligible heligible hforemost, hselect⟩
      rcases leading_iff.mp (leading_candidates.mpr hu) with ⟨front', back', hsplit', hfront'⟩
      rw [hsplit] at hsplit'
      -- `u` is not behind `t`, and what is before `t` has been rejected
      rcases append_cons_eq_append_cons hsplit' with
        ⟨-, rfl, -⟩ | ⟨middle, rfl, -⟩ | ⟨middle, rfl, -⟩
      · exact not_eligible_of_guardRaises hraises heligible
      · exact hfront' t (by simp) heligible
      · exact (hfront u (by simp)).2 hraises
    · exact Or.inl ⟨⟨t, hforemost, hraises⟩, e, hselect⟩
  · have hmem : ∀ u ∈ fsm.transitions, Candidate fsm state trigger u →
        ¬ Eligible i context u ∧ ¬ GuardRaises i context u := fun u hu hcandidate =>
      hall u ((mem_sortedDesc _).mpr (mem_candidates.mpr ⟨hu, hcandidate⟩))
    refine Or.inr ⟨fun u hu => (hmem u (mem_of_leading hu.2) hu.1).2, ?_⟩
    cases hsorted : sortedDesc ModelFSMStateTransition.priority (candidates fsm state trigger) with
    | nil =>
      apply absurd _ hempty
      rw [List.eq_nil_iff_forall_not_mem]
      intro u hu
      rw [← mem_sortedDesc ModelFSMStateTransition.priority, hsorted] at hu
      cases hu
    | cons t back =>
      rcases hrejection t back hsorted with ⟨failed, hfirst⟩
      have hlead : Leading ModelFSMStateTransition.priority (fun _ => True)
          (candidates fsm state trigger) t := leading_iff.mpr ⟨[], back, hsorted, by simp⟩
      rw [leading_candidates] at hlead
      simp only [and_true] at hlead
      refine ⟨some ⟨t, false, failed⟩,
        Selected.rejected hlead.1 hlead.2 fun u hu hc => (hmem u hu hc).1, ?_⟩
      rw [← hsorted, hend, hfirst]
      rfl

/-- A selection that obeys the priority resolution does not raise. -/
theorem SelectionLaw.ok (h : SelectionLaw i fsm state trigger context) :
    ∃ s, selectTransition i fsm state trigger context = .ok s := by
  by_cases hnone : ∃ t ∈ fsm.transitions, Candidate fsm state trigger t
  · by_cases heligible :
      ∃ t ∈ fsm.transitions, Candidate fsm state trigger t ∧ Eligible i context t
    · rcases h.eligible_iff.mpr heligible with ⟨t, failed, hselect⟩
      exact ⟨_, hselect⟩
    · rcases h.rejected_first hnone fun t ht hc he => heligible ⟨t, ht, hc, he⟩ with
        ⟨t, failed, hselect, -⟩
      exact ⟨_, hselect⟩
  · refine ⟨none, h.none_iff.mpr (candidates_eq_nil_iff.mp ?_)⟩
    rw [List.eq_nil_iff_forall_not_mem]
    exact fun t ht => hnone ⟨t, mem_candidates.mp ht⟩

theorem Foremost.mem (h : Foremost i fsm state trigger context t) : t ∈ fsm.transitions :=
  mem_of_leading h.2

/-- Each outcome is what the priority resolution asks for. -/
theorem Selected.law {s : Option TransitionSelection}
    (h : Selected i fsm state trigger context s)
    (hselect : selectTransition i fsm state trigger context = .ok s) :
    SelectionLaw i fsm state trigger context := by
  have hcandidates : ∀ u ∈ fsm.transitions, Candidate fsm state trigger u →
      candidates fsm state trigger ≠ [] := fun u hu hc =>
    List.ne_nil_of_mem (mem_candidates.mpr ⟨hu, hc⟩)
  cases h with
  | none hempty =>
    have hnone : ∀ u ∈ fsm.transitions, ¬ Candidate fsm state trigger u :=
      fun u hu hc => hcandidates u hu hc hempty
    constructor
    · exact iff_of_true hselect (candidates_eq_nil_iff.mp hempty)
    · rw [hselect]
      exact iff_of_false nofun fun ⟨u, hu, hc, _⟩ => hnone u hu hc
    · rw [hselect]
      exact nofun
    · exact fun ⟨u, hu, hc⟩ => absurd hc (hnone u hu)
  | @eligible t heligible hforemost =>
    constructor
    · rw [hselect, ← candidates_eq_nil_iff]
      exact iff_of_false nofun (hcandidates t hforemost.mem hforemost.1)
    · exact iff_of_true ⟨t, [], hselect⟩ ⟨t, hforemost.mem, hforemost.1, heligible⟩
    · intro u failed hu
      rw [hselect] at hu
      cases hu
      exact ⟨heligible, hforemost⟩
    · exact fun _ hnone => absurd heligible (hnone t hforemost.mem hforemost.1)
  | @rejected t failed hcandidate hleading hnone =>
    constructor
    · rw [hselect, ← candidates_eq_nil_iff]
      exact iff_of_false nofun (hcandidates t (mem_of_leading hleading) hcandidate)
    · rw [hselect]
      exact iff_of_false nofun fun ⟨u, hu, hc, he⟩ => hnone u hu hc he
    · rw [hselect]
      exact nofun
    · exact fun _ _ => ⟨t, failed, hselect, hcandidate, hleading⟩

theorem selectionLaw_iff : SelectionLaw i fsm state trigger context ↔
    GuardsDoNotRaise i fsm state trigger context := by
  rcases selectTransition_cases i fsm state trigger context with
    ⟨⟨t, hforemost, hraises⟩, e, hselect⟩ | ⟨hquiet, s, hs, hselect⟩
  · refine iff_of_false (fun hlaw => ?_) fun hquiet => hquiet t hforemost hraises
    rcases hlaw.ok with ⟨s, hs⟩
    rw [hselect] at hs
    cases hs
  · exact iff_of_true (hs.law hselect) hquiet

/-! ## The result -/

theorem executeStateActions_intentType {stateDef : ModelFSMStateDefinition}
    {actionType : StateActionType} {intents : List ModelIntent}
    (h : executeStateActions i fsm stateDef actionType context = .ok intents) :
    ∀ intent ∈ intents, intent.intentType = "fsm_state_action" := by
  unfold executeStateActions at h
  refine forall_of_mapM_ok (P := fun intent => intent.intentType = "fsm_state_action") ?_ h
  intro actionName intent hintent
  rcases bind_eq_ok hintent with ⟨payload, -, hintent⟩
  cases hintent
  rfl

theorem executeTransitionActions_intentType {correlationId : UUID} {intents : List ModelIntent}
    (h : executeTransitionActions i t context correlationId = .ok intents) :
    ∀ intent ∈ intents, intent.intentType = "fsm_transition_action" := by
  unfold executeTransitionActions at h
  refine forall_of_mapM_ok (P := fun intent => intent.intentType = "fsm_transition_action") ?_ h
  intro action intent hintent
  rcases bind_eq_ok hintent with ⟨payload, -, hintent⟩
  cases hintent
  rfl

/-- The intents of the actions say of which kind of action they are. -/
theorem executeActions_intentType (i : Interpreter) (fsm : ModelFSMSubcontract)
    (stateDef : ModelFSMStateDefinition) (t : ModelFSMStateTransition) (context : Context) :
    ∀ intent ∈ (executeActions i fsm stateDef t context).1,
      intent.intentType ∈ ["fsm_state_action", "fsm_transition_action"] := by
  have hstate : ∀ {s : String}, s = "fsm_state_action" →
      s ∈ ["fsm_state_action", "fsm_transition_action"] := fun h => by simp [h]
  unfold executeActions
  split
  · simp
  rename_i exitIntents hexit
  have hexit := executeStateActions_intentType hexit
  split
  · exact fun intent h => hstate (hexit intent h)
  rename_i transitionIntents hactions
  have hactions := executeTransitionActions_intentType hactions
  have hboth : ∀ intent ∈ exitIntents ++ transitionIntents,
      intent.intentType ∈ ["fsm_state_action", "fsm_transition_action"] := by
    intro intent h
    rcases List.mem_append.mp h with h | h
    · exact hstate (hexit intent h)
    · simp [hactions intent h]
  dsimp only
  split
  · exact hboth
  split
  · exact hboth
  · rename_i entryIntents hentry
    intro intent h
    rcases List.mem_append.mp h with h | h
    · exact hboth intent h
    · exact hstate (executeStateActions_intentType hentry intent h)

def KeepsState (state : String) (r : ModelFSMTransitionResult) : Prop :=
  r.success = false ∧ r.newState = state ∧ r.oldState = state ∧
    ∀ intent ∈ r.intents, intent.intentType ≠ "persist_state"

theorem guardRejection_keepsState {selection : TransitionSelection}
    {r : ModelFSMTransitionResult} (h : guardRejection i fsm state selection = .ok r) :
    KeepsState state r := by
  unfold guardRejection at h
  rcases bind_eq_ok h with ⟨payload, -, h⟩
  cases h
  refine ⟨rfl, rfl, rfl, fun intent hintent => ?_⟩
  rw [List.mem_singleton.mp hintent]
  show "log_event" ≠ "persist_state"
  decide

/-- The transition is made: it is the eligible one, and its intents can be built. -/
structure Makes (i : Interpreter) (fsm : ModelFSMSubcontract) (state trigger : String)
    (context : Context) (t : ModelFSMStateTransition) : Prop where
  quiet : GuardsDoNotRaise i fsm state trigger context
  eligible : Eligible i context t
  foremost : Foremost i fsm state trigger context t
  emits : ∃ stateDef intents, getStateDefinition fsm state = some stateDef ∧
    executeActions i fsm stateDef t context = (intents, none)
  persists : ∃ intents, persistenceIntents i fsm state t context = .ok intents

theorem eq_of_guardPassed {selection : TransitionSelection}
    (h : selectTransition i fsm state trigger context = .ok (some selection))
    (hpassed : selection.guardPassed = true) :
    GuardsDoNotRaise i fsm state trigger context ∧ Eligible i context selection.transition ∧
      Foremost i fsm state trigger context selection.transition := by
  rcases selectTransition_cases i fsm state trigger context with
    ⟨-, e, he⟩ | ⟨hquiet, s, hs, hselect⟩
  · rw [h] at he
    cases he
  · rw [h] at hselect
    cases hselect
    cases hs with
    | eligible heligible hforemost => exact ⟨hquiet, heligible, hforemost⟩
    | rejected => cases hpassed

/-- A trigger keeps the state, or makes one transition. -/
theorem executeTransition_cases {r : ModelFSMTransitionResult}
    (h : executeTransition i fsm state trigger context = .ok r) :
    KeepsState state r ∨
    ∃ t intents, Makes i fsm state trigger context t ∧ r = transitionSuccess state t intents := by
  unfold executeTransition at h
  split at h
  · cases h
  rename_i stateDef hstate
  rcases bind_eq_ok h with ⟨selected, hselect, h⟩
  split at h
  · cases h
  rename_i selection
  split_ifs at h with hpassed
  · rcases eq_of_guardPassed hselect hpassed with ⟨hquiet, heligible, hforemost⟩
    have hkeeps : ∀ intent ∈ (executeActions i fsm stateDef selection.transition context).1,
        intent.intentType ≠ "persist_state" := by
      intro intent hintent heq
      have htype := executeActions_intentType i fsm stateDef selection.transition context
        intent hintent
      rw [heq] at htype
      exact absurd htype (by decide)
    dsimp only at h
    split at h
    · rename_i intents e hactions
      rw [hactions] at hkeeps
      left
      split at h
      · cases h
        exact ⟨rfl, rfl, rfl, hkeeps⟩
      · split_ifs at h
        cases h
        exact ⟨rfl, rfl, rfl, hkeeps⟩
    · rename_i intents hactions
      right
      rcases bind_eq_ok h with ⟨persistence, hpersistence, h⟩
      cases h
      exact ⟨selection.transition, _, ⟨hquiet, heligible, hforemost,
        ⟨stateDef, intents, hstate, hactions⟩, persistence, hpersistence⟩, rfl⟩
  · exact Or.inl (guardRejection_keepsState h)

/-- The intent is the log event of a rejected guard. -/
def IsRejection (intent : ModelIntent) : Prop :=
  ∃ level message state from_ to_, intent.payload
    = .logEvent level message [("fsm", state), ("from_state", from_), ("to_state", to_)]

/-- A result is that of the transition that is selected, and it logs nothing but a rejected
guard. -/
theorem executeTransition_selects {r : ModelFSMTransitionResult}
    (h : executeTransition i fsm state trigger context = .ok r) :
    ∃ selection, selectTransition i fsm state trigger context = .ok (some selection) ∧
      r.transitionName = some selection.transition.transitionName ∧
      ∀ intent ∈ r.intents, intent.intentType = "log_event" → IsRejection intent := by
  unfold executeTransition at h
  split at h
  · cases h
  rename_i stateDef hstate
  rcases bind_eq_ok h with ⟨selected, hselect, h⟩
  split at h
  · cases h
  rename_i selection
  refine ⟨selection, hselect, ?_⟩
  have hactions : ∀ intent ∈ (executeActions i fsm stateDef selection.transition context).1,
      intent.intentType = "log_event" → IsRejection intent := by
    intro intent hintent heq
    have htype := executeActions_intentType i fsm stateDef selection.transition context
      intent hintent
    rw [heq] at htype
    exact absurd htype (by decide)
  split_ifs at h with hpassed
  · dsimp only at h
    split at h
    · rename_i intents e hexecuted
      rw [hexecuted] at hactions
      split at h
      · cases h
        exact ⟨rfl, hactions⟩
      · split_ifs at h
        cases h
        exact ⟨rfl, hactions⟩
    · rename_i intents hexecuted
      rw [hexecuted] at hactions
      rcases bind_eq_ok h with ⟨persistence, hpersistence, h⟩
      cases h
      refine ⟨rfl, fun intent hintent heq => ?_⟩
      rcases List.mem_append.mp hintent with hintent | hintent
      · rcases List.mem_append.mp hintent with hintent | hintent
        · exact hactions intent hintent heq
        · unfold persistenceIntents at hpersistence
          split_ifs at hpersistence
          · rcases bind_eq_ok hpersistence with ⟨payload, -, hpersistence⟩
            cases hpersistence
            rw [List.mem_singleton.mp hintent] at heq
            exact absurd heq (show "persist_state" ≠ "log_event" by decide)
          · cases hpersistence
            exact absurd hintent List.not_mem_nil
      · rw [List.mem_singleton.mp hintent] at heq
        exact absurd heq (show "record_metric" ≠ "log_event" by decide)
  · unfold guardRejection at h
    rcases bind_eq_ok h with ⟨payload, hpayload, h⟩
    unfold modelPayloadLogEvent at hpayload
    rcases bind_eq_ok hpayload with ⟨-, -, hpayload⟩
    cases h
    cases hpayload
    refine ⟨rfl, fun intent hintent _ => ?_⟩
    rw [List.mem_singleton.mp hintent]
    exact ⟨_, _, _, _, _, rfl⟩

theorem executeLaw (i : Interpreter) (fsm : ModelFSMSubcontract) (state trigger : String)
    (context : Context) : ExecuteLaw i fsm state trigger context := by
  constructor
  · intro r h hsuccess
    rcases executeTransition_cases h with hkeeps | ⟨t, intents, hmakes, rfl⟩
    · rw [hkeeps.1] at hsuccess
      cases hsuccess
    · exact ⟨t, hmakes.foremost.mem, hmakes.foremost.1, hmakes.eligible, rfl, rfl⟩
  · intro r h hfailure
    rcases executeTransition_cases h with hkeeps | ⟨t, intents, hmakes, rfl⟩
    · exact ⟨hkeeps.2.1, hkeeps.2.2.2⟩
    · cases hfailure

/-- Selection and execution obey the documented priority resolution if and only if no guard
raises that the selection comes to. -/
theorem transitionLaw_iff :
    (SelectionLaw i fsm state trigger context ∧ ExecuteLaw i fsm state trigger context) ↔
      GuardsDoNotRaise i fsm state trigger context := by
  rw [selectionLaw_iff]
  exact and_iff_left (executeLaw i fsm state trigger context)

end

/-! ## A guard that raises -/

/-- Two states and a transition for `n > 5`. -/
def numericGuardFsm : ModelFSMSubcontract :=
  { stateMachineName := "counter"
    correlationId := ⟨0⟩
    states := [
      { stateName := "idle", isTerminal := false, isRecoverable := true, entryActions := [],
        exitActions := [], requiredData := [] },
      { stateName := "busy", isTerminal := false, isRecoverable := true, entryActions := [],
        exitActions := [], requiredData := [] }]
    initialState := "idle"
    terminalStates := []
    errorStates := []
    transitions := [
      { transitionName := "start", fromState := "idle", toState := "busy", trigger := "go",
        priority := 1, actions := [],
        conditions := [{ conditionName := "enough", expression := "n > 5", required := true }] }]
    persistenceEnabled := true }

/-- An integer that has no `float` is not caught by the numeric comparison. -/
theorem numericGuardFsm_not_selectionLaw :
    numericGuardFsm.Accepted plainInterpreter ∧
      ¬ (SelectionLaw plainInterpreter numericGuardFsm "idle" "go" [("n", .int (10 ^ 400))] ∧
        ExecuteLaw plainInterpreter numericGuardFsm "idle" "go" [("n", .int (10 ^ 400))]) := by
  have haccepted : numericGuardFsm.Accepted plainInterpreter := by decide +kernel
  have hselect : ∃ e, selectTransition plainInterpreter numericGuardFsm "idle" "go"
      [("n", .int (10 ^ 400))] = .error e :=
    ⟨.overflowError "int too large to convert to float", by decide +kernel⟩
  refine ⟨haccepted, fun hlaw => ?_⟩
  rcases hlaw.1.ok with ⟨s, hs⟩
  rcases hselect with ⟨e, he⟩
  rw [he] at hs
  cases hs

/-!
## The order of the transitions

The transitions of a machine are declared as a list. In an accepted machine no two transitions of
one state and one trigger have the same priority, so the candidates of a selection have only one
order by priority, whatever the order of the declarations (`candidates_inj_priority`). Everything
that `execute_transition` computes is then the same (`executeTransition_reorder`), and so are the
states that a run visits.
-/

/-- The same machine with its transitions declared in another order. -/
def ModelFSMSubcontract.reorder (fsm : ModelFSMSubcontract)
    (transitions : List ModelFSMStateTransition) : ModelFSMSubcontract :=
  { fsm with transitions := transitions }

/-- The states that a run visits, the one it begins with included. A call that raises leaves the
machine in its state. -/
def visitedStates (i : Interpreter) (fsm : ModelFSMSubcontract) :
    String → List (String × Context) → List String
  | state, [] => [state]
  | state, (trigger, context) :: calls =>
    match executeTransition i fsm state trigger context with
    | .error _ => state :: visitedStates i fsm state calls
    | .ok result => state :: visitedStates i fsm result.newState calls

/-! ## Acceptance -/

section
variable {i : Interpreter} {fsm : ModelFSMSubcontract} {transitions : List ModelFSMStateTransition}

/-- The validators check nothing else than what they establish. -/
theorem ValidSubcontract.validate (h : ValidSubcontract fsm) : fsm.validate i = .ok () := by
  have hinitial : fsm.validateInitialStateExists = .ok () := by
    unfold ModelFSMSubcontract.validateInitialStateExists
    rw [if_neg (not_not.mpr h.initial_mem)]
  have hterminal : fsm.terminalStates.find? (· ∉ fsm.stateNames) = none := by
    rw [List.find?_eq_none]
    intro s hs
    simpa using h.terminal_mem s hs
  have herror : fsm.errorStates.find? (· ∉ fsm.stateNames) = none := by
    rw [List.find?_eq_none]
    intro s hs
    simpa using h.error_mem s hs
  have hspecial : fsm.validateSpecialStatesExist = .ok () := by
    unfold ModelFSMSubcontract.validateSpecialStatesExist
    rw [hterminal, herror]
  have htransitions : fsm.validateTransitionStatesExist = .ok () := by
    have hnone : (fsm.transitions.findSome? fun t =>
        if t.fromState ∉ fsm.stateNames ++ ["*"] then
          some ("Transition from_state '" ++ t.fromState ++ "' not found in states list[Any]")
        else if t.toState ∉ fsm.stateNames then
          some ("Transition to_state '" ++ t.toState ++ "' not found in states list[Any]")
        else none) = none := by
      rw [List.findSome?_eq_none_iff]
      intro t ht
      have hfrom : t.fromState ∈ fsm.stateNames ++ ["*"] := by
        rw [List.mem_append, List.mem_singleton]
        exact (h.from_mem t ht).symm
      rw [if_neg (not_not.mpr hfrom), if_neg (not_not.mpr (h.to_mem t ht))]
    unfold ModelFSMSubcontract.validateTransitionStatesExist
    dsimp only
    rw [hnone]
  have hnames : fsm.validateUniqueTransitionNames i = .ok () := by
    unfold ModelFSMSubcontract.validateUniqueTransitionNames
    dsimp only
    rw [if_neg (not_not.mpr (repeated_empty_eq_nil_iff.mpr h.names_nodup))]
  have hstructure : fsm.validateUniqueStructuralTransitions i = .ok () := by
    unfold ModelFSMSubcontract.validateUniqueStructuralTransitions
    dsimp only
    rw [if_neg (not_not.mpr (repeated_empty_eq_nil_iff.mpr h.structure_nodup))]
  have hfinal : fsm.validateNoTransitionsFromTerminalStates i = .ok () := by
    have hnil : (fsm.transitions.filter fun t =>
        t.fromState ∈ fsm.terminalStateNames ∧ t.fromState ≠ "*") = [] := by
      rw [List.filter_eq_nil_iff]
      intro t ht hwrong
      have hwrong := of_decide_eq_true hwrong
      exact h.terminal_final t ht hwrong.2 hwrong.1
    unfold ModelFSMSubcontract.validateNoTransitionsFromTerminalStates
    dsimp only
    rw [if_neg (not_not.mpr hnil)]
  unfold ModelFSMSubcontract.validate
  rw [hinitial, hspecial, htransitions, hnames, hstructure, hfinal]
  rfl

theorem ValidSubcontract.reorder (h : ValidSubcontract fsm)
    (hperm : transitions.Perm fsm.transitions) : ValidSubcontract (fsm.reorder transitions) where
  initial_mem := h.initial_mem
  terminal_mem := h.terminal_mem
  error_mem := h.error_mem
  from_mem t ht := h.from_mem t (hperm.mem_iff.mp ht)
  to_mem t ht := h.to_mem t (hperm.mem_iff.mp ht)
  names_nodup := (hperm.map _).nodup_iff.mpr h.names_nodup
  structure_nodup := (hperm.map _).nodup_iff.mpr h.structure_nodup
  terminal_final t ht := h.terminal_final t (hperm.mem_iff.mp ht)

theorem ModelFSMSubcontract.Accepted.reorder (h : fsm.Accepted i)
    (hperm : transitions.Perm fsm.transitions) : (fsm.reorder transitions).Accepted i := by
  have hvalid := h.valid
  rcases h with ⟨⟨hname, hstates, hinitial, htransitions, hstateNames, hfields⟩, hterminal,
    hconditions, -⟩
  have hne : transitions ≠ [] := fun hnil => htransitions (List.nil_perm.mp (hnil ▸ hperm))
  exact ⟨⟨hname, hstates, hinitial, hne, hstateNames,
    fun t ht => hfields t (hperm.mem_iff.mp ht)⟩, hterminal,
    fun t ht => hconditions t (hperm.mem_iff.mp ht), (hvalid.reorder hperm).validate⟩

/-! ## Selection -/

variable {state trigger : String} {context : Context}

theorem candidate_reorder (hperm : transitions.Perm fsm.transitions)
    (t : ModelFSMStateTransition) :
    Candidate (fsm.reorder transitions) state trigger t ↔ Candidate fsm state trigger t := by
  have hall : (∀ u ∈ (fsm.reorder transitions).transitions, ¬ Matches state trigger u) ↔
      ∀ u ∈ fsm.transitions, ¬ Matches state trigger u :=
    forall_congr' fun u => imp_congr_left hperm.mem_iff
  unfold Candidate
  rw [hall]

theorem candidates_reorder (hperm : transitions.Perm fsm.transitions) :
    (candidates (fsm.reorder transitions) state trigger).Perm (candidates fsm state trigger) := by
  rw [candidates_eq_filter, candidates_eq_filter]
  simp only [candidate_reorder hperm]
  exact hperm.filter _

theorem candidates_inj_priority (h : ValidSubcontract fsm) :
    ∀ t ∈ candidates fsm state trigger, ∀ u ∈ candidates fsm state trigger,
      t.priority = u.priority → t = u := by
  intro t ht u hu hpriority
  rcases mem_candidates.mp ht with ⟨htmem, htcandidate⟩
  rcases mem_candidates.mp hu with ⟨humem, hucandidate⟩
  have hsame : t.fromState = u.fromState ∧ t.trigger = u.trigger := by
    rcases htcandidate with htmatch | ⟨hnone, htmatch⟩
    · rcases hucandidate with humatch | ⟨hnone, -⟩
      · exact ⟨htmatch.1.trans humatch.1.symm, htmatch.2.trans humatch.2.symm⟩
      · exact absurd htmatch (hnone t htmem)
    · rcases hucandidate with humatch | ⟨-, humatch⟩
      · exact absurd humatch (hnone u humem)
      · exact ⟨htmatch.1.trans humatch.1.symm, htmatch.2.trans humatch.2.symm⟩
  apply List.inj_on_of_nodup_map h.structure_nodup htmem humem
  rw [hsame.1, hsame.2, hpriority]

theorem selectTransition_reorder (h : ValidSubcontract fsm)
    (hperm : transitions.Perm fsm.transitions) :
    selectTransition i (fsm.reorder transitions) state trigger context
      = selectTransition i fsm state trigger context := by
  have hcandidates : (candidates (fsm.reorder transitions) state trigger).Perm
      (candidates fsm state trigger) := candidates_reorder hperm
  have hsorted : sortedDesc ModelFSMStateTransition.priority
        (candidates (fsm.reorder transitions) state trigger)
      = sortedDesc ModelFSMStateTransition.priority (candidates fsm state trigger) :=
    sortedDesc_eq_of_perm_of_injOn _ (candidates_inj_priority (h.reorder hperm)) hcandidates
  have hnil : candidates (fsm.reorder transitions) state trigger = [] ↔
      candidates fsm state trigger = [] := by
    rw [← List.length_eq_zero_iff, ← List.length_eq_zero_iff, hcandidates.length_eq]
  unfold selectTransition
  simp only [hsorted, hnil]

/-! ## Execution -/

theorem executeTransition_reorder (h : ValidSubcontract fsm)
    (hperm : transitions.Perm fsm.transitions) :
    executeTransition i (fsm.reorder transitions) state trigger context
      = executeTransition i fsm state trigger context := by
  unfold executeTransition
  rw [selectTransition_reorder h hperm]
  rfl

theorem visitedStates_reorder (h : ValidSubcontract fsm)
    (hperm : transitions.Perm fsm.transitions) (calls : List (String × Context)) :
    visitedStates i (fsm.reorder transitions) state calls = visitedStates i fsm state calls := by
  induction calls generalizing state with
  | nil => rfl
  | cons call calls ih =>
    rcases call with ⟨trigger, context⟩
    unfold visitedStates
    rw [executeTransition_reorder h hperm]
    cases executeTransition i fsm state trigger context with
    | error e => simp only [ih]
    | ok result => simp only [ih]

/-- The order in which the transitions of an accepted machine are declared does not matter:
another order is accepted too, every call of `execute_transition` has the same result, and every
run from the initial state visits the same states. -/
theorem declarationOrder_irrelevant (i : Interpreter) (fsm : ModelFSMSubcontract)
    (transitions : List ModelFSMStateTransition) (h : fsm.Accepted i)
    (hperm : transitions.Perm fsm.transitions) :
    (fsm.reorder transitions).Accepted i ∧
      (∀ state trigger context,
        executeTransition i (fsm.reorder transitions) state trigger context
          = executeTransition i fsm state trigger context) ∧
      ∀ calls, visitedStates i (fsm.reorder transitions) (fsm.reorder transitions).initialState calls
        = visitedStates i fsm fsm.initialState calls :=
  ⟨h.reorder hperm, fun _ _ _ => executeTransition_reorder h.valid hperm,
    fun calls => visitedStates_reorder h.valid hperm calls⟩

end

/-! ## Two transitions of one trigger -/

def fallthroughFsm : ModelFSMSubcontract :=
  { numericGuardFsm with
    transitions := [
      { transitionName := "start", fromState := "idle", toState := "busy", trigger := "go",
        priority := 2, actions := [],
        conditions := [{ conditionName := "enough", expression := "n == 5", required := true }] },
      { transitionName := "stay", fromState := "idle", toState := "idle", trigger := "go",
        priority := 1, actions := [], conditions := [] }] }

theorem declarationOrder_irrelevant_fallthroughFsm :
    (fallthroughFsm.reorder fallthroughFsm.transitions.reverse).Accepted plainInterpreter ∧
      (∀ state trigger context,
        executeTransition plainInterpreter
            (fallthroughFsm.reorder fallthroughFsm.transitions.reverse) state trigger context
          = executeTransition plainInterpreter fallthroughFsm state trigger context) ∧
      ∀ calls, visitedStates plainInterpreter
          (fallthroughFsm.reorder fallthroughFsm.transitions.reverse)
          (fallthroughFsm.reorder fallthroughFsm.transitions.reverse).initialState calls
        = visitedStates plainInterpreter fallthroughFsm fallthroughFsm.initialState calls :=
  declarationOrder_irrelevant plainInterpreter fallthroughFsm _ (by decide +kernel)
    (List.reverse_perm _)

end OmnibaseCore.Fsm
