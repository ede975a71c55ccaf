import OmnibaseCore.Python.GroupBy
import OmnibaseCore.Python.Subsequence

/-!
# The invariants of contract validation events

`ServiceContractValidationInvariantChecker`: the order of the events of a run, checked for a
whole sequence of events of several runs, and for one event against the events before it.
-/

namespace OmnibaseCore.Validation

inductive ContractValidationEventType
  | validationStarted
  | validationPassed
  | validationFailed
  | mergeStarted
  | mergeCompleted
deriving DecidableEq

/-- `ModelContractValidationEvent`, without its message. -/
structure ModelContractValidationEvent where
  eventType : ContractValidationEventType
  runRef : String
  /-- `min_length=1` -/
  runRef_ne_empty : runRef ≠ ""

def checkEventInvariants (runRef : String) (eventType : ContractValidationEventType)
    (eventTypesSeen : Finset ContractValidationEventType) : Option String :=
  if eventType = .validationPassed ∧ .validationStarted ∉ eventTypesSeen then
    some ("[run_ref=" ++ runRef ++
      "] validation_passed received without prior validation_started")
  else if eventType = .validationFailed ∧ .validationStarted ∉ eventTypesSeen then
    some ("[run_ref=" ++ runRef ++
      "] validation_failed received without prior validation_started")
  else if eventType = .validationPassed ∧ .validationFailed ∈ eventTypesSeen then
    some ("[run_ref=" ++ runRef ++
      "] validation_passed received but validation_failed already occurred (mutually exclusive)")
  else if eventType = .validationFailed ∧ .validationPassed ∈ eventTypesSeen then
    some ("[run_ref=" ++ runRef ++
      "] validation_failed received but validation_passed already occurred (mutually exclusive)")
  else if eventType = .mergeCompleted ∧ .mergeStarted ∉ eventTypesSeen then
    some ("[run_ref=" ++ runRef ++ "] merge_completed received without prior merge_started")
  else if eventType = .mergeCompleted ∧ .validationFailed ∈ eventTypesSeen then
    some ("[run_ref=" ++ runRef ++ "] merge_completed cannot occur after validation_failed")
  else none

def checkInvariant (event : ModelContractValidationEvent)
    (history : List ModelContractValidationEvent) : Bool × Option String :=
  let runHistory := history.filter (·.runRef = event.runRef)
  let eventTypesSeen := (runHistory.map (·.eventType)).toFinset
  -- a text of a violation is not empty, so the test of its truth is a test for `None`
  match checkEventInvariants event.runRef event.eventType eventTypesSeen with
  | some violation => (false, some violation)
  | none => (true, none)

/-- The loop of `_validate_run_events`. -/
def validateRunEvents (runRef : String) :
    List ModelContractValidationEvent → Finset ContractValidationEventType → List String
  | [], _ => []
  | event :: events, eventTypesSeen =>
    let violations := validateRunEvents runRef events (insert event.eventType eventTypesSeen)
    match checkEventInvariants runRef event.eventType eventTypesSeen with
    | some violation => violation :: violations
    | none => violations

def validateSequence (events : List ModelContractValidationEvent) : Bool × List String :=
  let eventsByRun := groupBy (·.runRef) events
  let violations := eventsByRun.flatMap fun run => validateRunEvents run.1 run.2 ∅
  (violations.length = 0, violations)

/-!
## What an accepted sequence of validation events looks like

* `checkEventInvariants_eq_none_iff`: the events that a run may go on with;
* `validateSequence_iff`: a sequence is valid if and only if every event may follow the events
  of its run before it;
* `invariantLaw`: the check of the whole sequence is the check of its events one by one, it
  looks at each run on its own, and what an accepted sequence excludes.
-/

open ContractValidationEventType

variable {events : List ModelContractValidationEvent}

/-- An event of this type may follow events of the types in `seen`. -/
@[mk_iff]
structure Allowed (eventType : ContractValidationEventType)
    (seen : Finset ContractValidationEventType) : Prop where
  passed : eventType = validationPassed → validationStarted ∈ seen ∧ validationFailed ∉ seen
  failed : eventType = validationFailed → validationStarted ∈ seen ∧ validationPassed ∉ seen
  completed : eventType = mergeCompleted → mergeStarted ∈ seen ∧ validationFailed ∉ seen

theorem checkEventInvariants_eq_none_iff {runRef : String}
    {eventType : ContractValidationEventType} {seen : Finset ContractValidationEventType} :
    checkEventInvariants runRef eventType seen = none ↔ Allowed eventType seen := by
  unfold checkEventInvariants
  rw [allowed_iff]
  cases eventType with
  | validationStarted => simp
  | mergeStarted => simp
  | validationPassed =>
    by_cases hstarted : validationStarted ∈ seen <;> by_cases hfailed : validationFailed ∈ seen <;>
      simp [hstarted, hfailed]
  | validationFailed =>
    by_cases hstarted : validationStarted ∈ seen <;> by_cases hpassed : validationPassed ∈ seen <;>
      simp [hstarted, hpassed]
  | mergeCompleted =>
    by_cases hstarted : mergeStarted ∈ seen <;> by_cases hfailed : validationFailed ∈ seen <;>
      simp [hstarted, hfailed]

def typesOf (events : List ModelContractValidationEvent) : Finset ContractValidationEventType :=
  (events.map (·.eventType)).toFinset

@[simp]
theorem mem_typesOf {t : ContractValidationEventType} :
    t ∈ typesOf events ↔ ∃ e ∈ events, e.eventType = t := by
  simp [typesOf]

@[simp]
theorem typesOf_nil : typesOf [] = ∅ := rfl

theorem checkInvariant_iff {event : ModelContractValidationEvent}
    {history : List ModelContractValidationEvent} :
    (checkInvariant event history).1 = true ↔
      Allowed event.eventType (typesOf (history.filter (·.runRef = event.runRef))) := by
  rw [← @checkEventInvariants_eq_none_iff event.runRef]
  unfold checkInvariant typesOf
  dsimp only
  cases checkEventInvariants event.runRef event.eventType _ <;> simp

theorem validateRunEvents_eq_nil_iff (runRef : String)
    (seen : Finset ContractValidationEventType) :
    validateRunEvents runRef events seen = [] ↔
      AtEach (fun before e => Allowed e.eventType (seen ∪ typesOf before)) events := by
  induction events generalizing seen with
  | nil => simp [validateRunEvents]
  | cons event events ih =>
    have hseen : ∀ before : List ModelContractValidationEvent,
        insert event.eventType seen ∪ typesOf before = seen ∪ typesOf (event :: before) := by
      intro before
      ext t
      simp [typesOf]
    rw [atEach_cons, typesOf_nil, Finset.union_empty, ← @checkEventInvariants_eq_none_iff runRef]
    unfold validateRunEvents
    cases checkEventInvariants runRef event.eventType seen with
    | some violation => simp
    | none =>
      rw [ih]
      simp only [hseen, true_and]

theorem validateSequence_iff :
    (validateSequence events).1 = true ↔
      ∀ r, AtEach (fun before e => Allowed e.eventType (typesOf before))
        (events.filter (·.runRef = r)) := by
  have hgroups := groups_groupBy (·.runRef) events
  have hvalid : (validateSequence events).1 = true ↔
      ∀ run ∈ groupBy (·.runRef) events, validateRunEvents run.1 run.2 ∅ = [] := by
    show decide (List.length _ = 0) = true ↔ _
    rw [decide_eq_true_iff, List.length_eq_zero_iff, List.flatMap_eq_nil_iff]
  have hrun : ∀ run ∈ groupBy (·.runRef) events, (validateRunEvents run.1 run.2 ∅ = [] ↔
      AtEach (fun before e => Allowed e.eventType (typesOf before))
        (events.filter (·.runRef = run.1))) := by
    intro run hrun
    rw [validateRunEvents_eq_nil_iff, hgroups.items run hrun]
    simp only [Finset.empty_union]
  rw [hvalid]
  constructor
  · intro h r
    by_cases hr : r ∈ (groupBy (·.runRef) events).map Prod.fst
    · obtain ⟨run, hmem, rfl⟩ := List.mem_map.mp hr
      exact (hrun run hmem).mp (h run hmem)
    · -- no event is of this run
      have hnone : events.filter (·.runRef = r) = [] := by
        refine List.filter_eq_nil_iff.mpr fun e he hsame => hr ?_
        exact (hgroups.mem_keys r).mpr ⟨e, he, by simpa using hsame⟩
      rw [hnone]
      exact atEach_nil
  · intro h run hmem
    exact (hrun run hmem).mpr (h run.1)

/-- What the checker promises of a sequence of events of any runs: the check of the sequence is
the check of every event against the events before it; the verdict depends on each run's own
events only; and in an accepted sequence no run has passed and failed, no run completes a merge
after it has failed, and what ends has started before, in the same run. -/
structure InvariantLaw (events : List ModelContractValidationEvent) : Prop where
  incremental : (validateSequence events).1 = true ↔
    AtEach (fun before e => (checkInvariant e before).1 = true) events
  perRun : ∀ events' : List ModelContractValidationEvent,
    (∀ r, events'.filter (·.runRef = r) = events.filter (·.runRef = r)) →
      (validateSequence events').1 = (validateSequence events).1
  exclusive : (validateSequence events).1 = true → ∀ e ∈ events, ∀ e' ∈ events,
    e.runRef = e'.runRef → ¬ (e.eventType = validationPassed ∧ e'.eventType = validationFailed)
  failedBlocksMerge : (validateSequence events).1 = true → ∀ before e after,
    events = before ++ e :: after → e.eventType = mergeCompleted →
      ∀ e' ∈ before, e'.runRef = e.runRef → e'.eventType ≠ validationFailed
  validationStarts : (validateSequence events).1 = true → ∀ before e after,
    events = before ++ e :: after →
      e.eventType = validationPassed ∨ e.eventType = validationFailed →
        ∃ e' ∈ before, e'.runRef = e.runRef ∧ e'.eventType = validationStarted
  mergeStarts : (validateSequence events).1 = true → ∀ before e after,
    events = before ++ e :: after → e.eventType = mergeCompleted →
      ∃ e' ∈ before, e'.runRef = e.runRef ∧ e'.eventType = mergeStarted

theorem allowed_of_valid (h : (validateSequence events).1 = true)
    {before after : List ModelContractValidationEvent} {e : ModelContractValidationEvent}
    (hsplit : events = before ++ e :: after) :
    Allowed e.eventType (typesOf (before.filter (·.runRef = e.runRef))) :=
  (atEach_filter_iff (·.runRef) events).mpr (validateSequence_iff.mp h) before e after hsplit

theorem splits_of_mem {e e' : ModelContractValidationEvent} (he : e ∈ events) (he' : e' ∈ events)
    (hne : e ≠ e') :
    (∃ before after, events = before ++ e' :: after ∧ e ∈ before) ∨
      ∃ before after, events = before ++ e :: after ∧ e' ∈ before := by
  obtain ⟨before, after, rfl⟩ := List.append_of_mem he
  rcases List.mem_append.mp he' with hbefore | hafter
  · exact Or.inr ⟨before, after, rfl, hbefore⟩
  · have hmem : e' ∈ after := (List.mem_cons.mp hafter).resolve_left (Ne.symm hne)
    obtain ⟨middle, last, rfl⟩ := List.append_of_mem hmem
    exact Or.inl ⟨before ++ e :: middle, last, by simp, by simp⟩

/-- The law of the checker. -/
theorem invariantLaw (events : List ModelContractValidationEvent) : InvariantLaw events where
  incremental := by
    rw [validateSequence_iff, ← atEach_filter_iff]
    simp only [checkInvariant_iff]
  perRun events' h := by
    rw [Bool.eq_iff_iff, validateSequence_iff, validateSequence_iff]
    simp only [h]
  exclusive h e he e' he' hrun := by
    rintro ⟨hpassed, hfailed⟩
    have hne : e ≠ e' := by
      rintro rfl
      rw [hpassed] at hfailed
      exact absurd hfailed (by decide)
    rcases splits_of_mem he he' hne with
      ⟨before, after, hsplit, hmem⟩ | ⟨before, after, hsplit, hmem⟩
    · refine ((allowed_of_valid h hsplit).failed hfailed).2 (mem_typesOf.mpr ⟨e, ?_, hpassed⟩)
      simp [hmem, hrun]
    · refine ((allowed_of_valid h hsplit).passed hpassed).2 (mem_typesOf.mpr ⟨e', ?_, hfailed⟩)
      simp [hmem, hrun]
  failedBlocksMerge h before e after hsplit hcompleted e' he' hrun hfailed := by
    refine ((allowed_of_valid h hsplit).completed hcompleted).2 (mem_typesOf.mpr ⟨e', ?_, hfailed⟩)
    simp [he', hrun]
  validationStarts h before e after hsplit hends := by
    have hallowed := allowed_of_valid h hsplit
    have hstarted := hends.elim (fun hp => (hallowed.passed hp).1) fun hf => (hallowed.failed hf).1
    obtain ⟨e', he', htype⟩ := mem_typesOf.mp hstarted
    simp only [List.mem_filter, decide_eq_true_eq] at he'
    exact ⟨e', he'.1, he'.2, htype⟩
  mergeStarts h before e after hsplit hcompleted := by
    obtain ⟨e', he', htype⟩ := mem_typesOf.mp ((allowed_of_valid h hsplit).completed hcompleted).1
    simp only [List.mem_filter, decide_eq_true_eq] at he'
    exact ⟨e', he'.1, he'.2, htype⟩

def lateFailure : List ModelContractValidationEvent :=
  [⟨mergeStarted, "run-1", by decide⟩, ⟨mergeCompleted, "run-1", by decide⟩,
    ⟨validationStarted, "run-1", by decide⟩, ⟨validationFailed, "run-1", by decide⟩]

/-- The run is accepted with its failure and its merge. -/
theorem lateFailure_accepted :
    (validateSequence lateFailure).1 = true ∧
      ∃ e ∈ lateFailure, ∃ e' ∈ lateFailure, e.runRef = e'.runRef ∧
        e.eventType = validationFailed ∧ e'.eventType = mergeCompleted := by
  decide

end OmnibaseCore.Validation
