import OmnibaseCore.Pipeline.Runner

/-!
# What a run of a pipeline does

`TraceLaw` says which hooks are called, and what a run returns or raises. `run_traceLaw_iff` says
exactly when a run keeps it: an exception without a text may come from the last hook of `finalize`
after a fail-fast phase has failed, and from no other hook of `after`, `emit` or `finalize`, and
the context has to be one that can be copied.

The loops are compared with two functions that know nothing of errors: `invokeUntilFailure` calls
hooks up to the first that raises, `invokeAll` calls them all.
-/

namespace OmnibaseCore.Pipeline

open FiniteGraph (append_singleton_eq_split)

/-! ## Plans of the builder -/

/-- A plan with the semantics of `FAIL_FAST_PHASES`, each hook in the phase that it names. -/
structure BuiltPlan (plan : ModelPipelineExecutionPlan) : Prop where
  isPhaseFailFast_eq : ∀ phase, plan.isPhaseFailFast phase = decide (phase ∈ failFastPhases)
  phase_eq : ∀ phase, ∀ hook ∈ plan.getPhaseHooks phase, hook.phase = phase

variable {group : PipelinePhase × List ModelPipelineHook}

theorem phase_eq_of_mem_hooksByPhase {hooks : List ModelPipelineHook}
    (hgroup : group ∈ hooksByPhase hooks) :
    ∀ hook ∈ group.2, hook.phase = group.1 := by
  induction hooks using List.reverseRecOn generalizing group with
  | nil => exact nomatch hgroup
  | append_singleton hooks new ih =>
    unfold hooksByPhase at hgroup ih
    rw [List.foldl_append, List.foldl_cons, List.foldl_nil] at hgroup
    unfold addToPhase at hgroup
    split_ifs at hgroup
    · rcases List.mem_map.mp hgroup with ⟨old, hold, heq⟩
      split_ifs at heq with hphase
      · subst heq
        intro hook hhook
        rcases List.mem_append.mp hhook with hhook | hhook
        · exact ih hold hook hhook
        · rw [List.mem_singleton.mp hhook]
          exact hphase.symm
      · subst heq
        exact ih hold
    · rcases List.mem_append.mp hgroup with hold | hnew
      · exact ih hold
      · rw [List.mem_singleton.mp hnew]
        intro hook hhook
        rw [List.mem_singleton.mp hhook]

theorem mem_of_topologicalSort {hooks sortedHooks : List ModelPipelineHook}
    (h : topologicalSort hooks = .ok sortedHooks) : ∀ hook ∈ sortedHooks, hook ∈ hooks := by
  unfold topologicalSort at h
  dsimp only at h
  split_ifs at h
  rw [← Except.ok.inj h]
  intro hook hhook
  rcases List.mem_filterMap.mp hhook with ⟨name, -, hname⟩
  exact List.mem_of_find?_eq_some hname

variable {builder : BuilderExecutionPlan}

theorem buildPhase_spec
    {built : List ModelValidationWarning × PipelinePhase × ModelPhaseExecutionPlan}
    (hgroup : ∀ hook ∈ group.2, hook.phase = group.1)
    (h : buildPhase builder group = .ok built) :
    built.2.2.failFast = decide (built.2.1 ∈ failFastPhases) ∧
      ∀ hook ∈ built.2.2.hooks, hook.phase = built.2.1 := by
  unfold buildPhase at h
  rcases bind_eq_ok h with ⟨warnings, -, h⟩
  rcases bind_eq_ok h with ⟨_, -, h⟩
  rcases bind_eq_ok h with ⟨sortedHooks, hsorted, h⟩
  rw [← Except.ok.inj h]
  exact ⟨rfl, fun hook hhook => hgroup hook (mem_of_topologicalSort hsorted hook hhook)⟩

theorem builtPlan_of_build {plan : ModelPipelineExecutionPlan}
    {warnings : List ModelValidationWarning} (h : builder.build = .ok (plan, warnings)) :
    BuiltPlan plan := by
  unfold BuilderExecutionPlan.build at h
  rcases bind_eq_ok h with ⟨built, hbuilt, h⟩
  have hplan := (Prod.mk.inj (Except.ok.inj h)).1
  have hphases : ∀ entry ∈ plan.phases,
      entry.2.failFast = decide (entry.1 ∈ failFastPhases) ∧
        ∀ hook ∈ entry.2.hooks, hook.phase = entry.1 := by
    intro entry hentry
    rw [← hplan] at hentry
    rcases List.mem_map.mp hentry with ⟨b, hb, rfl⟩
    rcases exists_of_mapM_ok hbuilt b hb with ⟨group, hgroup, hphase⟩
    exact buildPhase_spec (phase_eq_of_mem_hooksByPhase hgroup) hphase
  have hlookup : ∀ phase phasePlan, plan.phases.lookup phase = some phasePlan →
      (phase, phasePlan) ∈ plan.phases := by
    intro phase phasePlan hfind
    rcases List.lookup_eq_some_iff.mp hfind with ⟨front, back, heq, -⟩
    rw [heq]
    exact List.mem_append_right _ List.mem_cons_self
  refine ⟨fun phase => ?_, fun phase hook hhook => ?_⟩
  · unfold ModelPipelineExecutionPlan.isPhaseFailFast
    cases hfind : plan.phases.lookup phase with
    | none => rfl
    | some phasePlan => exact (hphases _ (hlookup phase phasePlan hfind)).1
  · unfold ModelPipelineExecutionPlan.getPhaseHooks at hhook
    cases hfind : plan.phases.lookup phase with
    | none =>
      rw [hfind] at hhook
      exact nomatch hhook
    | some phasePlan =>
      rw [hfind] at hhook
      exact (hphases _ (hlookup phase phasePlan hfind)).2 hook hhook

/-! ## The law -/

section
variable {ε D W : Type} (runner : RunnerPipeline ε D W)

/-- The hooks whose failure ends the run. -/
def failFastHooks (plan : ModelPipelineExecutionPlan) : List ModelPipelineHook :=
  [PipelinePhase.preflight, .before, .execute].flatMap plan.getPhaseHooks

def collectingHooks (plan : ModelPipelineExecutionPlan) : List ModelPipelineHook :=
  [PipelinePhase.after, .emit, .finalize].flatMap plan.getPhaseHooks

def returned (hooks : List ModelPipelineHook) : List (Invocation ε) :=
  hooks.map fun hook => { hook := hook, outcome := .ok () }

/-- The calls that raised, and what they raised. -/
def failures (invocations : List (Invocation ε)) : List (ModelPipelineHook × ε) :=
  invocations.filterMap fun invocation =>
    match invocation.outcome with
    | .ok _ => none
    | .error e => some (invocation.hook, e)

def ReportsFailure (interp : PipelineInterpreter ε D) (failure : ModelPipelineHook × ε)
    (error : ModelHookError) : Prop :=
  error.phase = failure.1.phase.value ∧ error.hookName = failure.1.hookName ∧
    error.errorType = interp.typeName failure.2 ∧
    interp.str failure.2 = .ok error.errorMessage

/-- A run that a hook of a fail-fast phase has ended: the hooks before it have returned, every
hook of `finalize` is called, and the exception is raised again. -/
def Aborted (plan : ModelPipelineExecutionPlan) (invocations : List (Invocation ε))
    (result : Except ε (ModelPipelineResult D)) : Prop :=
  ∃ before failed skipped e finalized,
    failFastHooks plan = before ++ failed :: skipped ∧
    invocations = returned before ++ { hook := failed, outcome := .error e } :: finalized ∧
    finalized.map Invocation.hook = plan.getPhaseHooks .finalize ∧ result = .error e

/-- A run in which the hooks of the fail-fast phases have returned: all other hooks are called, and
the result reports the failures among them. -/
def Completed (interp : PipelineInterpreter ε D) (plan : ModelPipelineExecutionPlan)
    (invocations : List (Invocation ε)) (result : Except ε (ModelPipelineResult D)) : Prop :=
  ∃ collected pipelineResult,
    invocations = returned (failFastHooks plan) ++ collected ∧
    collected.map Invocation.hook = collectingHooks plan ∧ result = .ok pipelineResult ∧
    List.Forall₂ (ReportsFailure interp) (failures collected) pipelineResult.errors ∧
    (pipelineResult.success = true ↔ failures collected = [])

def TraceLaw (world : W) : Prop :=
  Aborted runner.plan (run runner world).2.invocations (run runner world).1 ∨
    Completed runner.interp runner.plan (run runner world).2.invocations (run runner world).1

/-! ## Calling hooks -/

/-- Calls hooks up to the first that raises. -/
def invokeUntilFailure :
    List ModelPipelineHook → RunState ε D W → Option ε × RunState ε D W
  | [], st => (none, st)
  | hook :: hooks, st =>
    match executeHook runner hook st with
    | (.ok _, st) => invokeUntilFailure hooks st
    | (.error e, st) => (some e, st)

def invokeAll (hooks : List ModelPipelineHook) (st : RunState ε D W) : RunState ε D W :=
  hooks.foldl (fun st hook => (executeHook runner hook st).2) st

/-- The calls that `invokeAll` makes. -/
def callsOf : List ModelPipelineHook → RunState ε D W → List (Invocation ε)
  | [], _ => []
  | hook :: hooks, st =>
    { hook := hook, outcome := (executeHook runner hook st).1 } ::
      callsOf hooks (executeHook runner hook st).2

/-- The exception has a text. -/
def Printable (interp : PipelineInterpreter ε D) (e : ε) : Prop :=
  ∃ message, interp.str e = .ok message

/-- The exceptions raised in these calls have texts. -/
def AllPrintable (interp : PipelineInterpreter ε D) (invocations : List (Invocation ε)) : Prop :=
  ∀ failure ∈ failures invocations, Printable interp failure.2

/-- What a run needs besides its hooks, for the law to hold: after a failure in a fail-fast phase,
that only the last hook of `finalize` raises an exception without a text, which in turn is due to
an exception with one (or to the very exception that ended the run); otherwise, that all exceptions
that are collected have texts, and that the context can be copied at the end. -/
def Reportable (world : W) : Prop :=
  match invokeUntilFailure runner (failFastHooks runner.plan) (initialState runner world) with
  | (some e, st) =>
    ∀ front last back, callsOf runner (runner.plan.getPhaseHooks .finalize) st
      = front ++ last :: back → ∀ x, last.outcome = .error x → ∀ y, runner.interp.str x = .error y →
        back = [] ∧ ∀ z, runner.interp.str y = .error z → z = e
  | (none, st) =>
    AllPrintable runner.interp (callsOf runner (collectingHooks runner.plan) st) ∧
      ∃ data, runner.interp.deepcopy (invokeAll runner (collectingHooks runner.plan) st).context
        = .ok data

variable {runner}

/-! ### Callables -/

variable {phase : PipelinePhase} {hook : ModelPipelineHook}

theorem mem_of_mem_getPhaseHooks {plan : ModelPipelineExecutionPlan}
    (h : hook ∈ plan.getPhaseHooks phase) : ∃ entry ∈ plan.phases, hook ∈ entry.2.hooks := by
  unfold ModelPipelineExecutionPlan.getPhaseHooks at h
  cases hfind : plan.phases.lookup phase with
  | none =>
    rw [hfind] at h
    exact nomatch h
  | some phasePlan =>
    rw [hfind] at h
    rcases List.lookup_eq_some_iff.mp hfind with ⟨front, back, heq, -⟩
    refine ⟨(phase, phasePlan), ?_, h⟩
    rw [heq]
    exact List.mem_append_right _ List.mem_cons_self

theorem exists_callable (h : hook ∈ runner.plan.getPhaseHooks phase) :
    ∃ callableFn, runner.callableRegistry hook.callableRef = some callableFn := by
  have hmissing : missingRefs runner.plan runner.callableRegistry = [] := by
    have hvalid := runner.validated
    unfold validateCallableRefs at hvalid
    cases hrefs : missingRefs runner.plan runner.callableRegistry with
    | nil => rfl
    | cons ref refs =>
      rw [hrefs] at hvalid
      cases refs with
      | nil => exact nomatch hvalid
      | cons ref' refs => exact nomatch hvalid
  rcases mem_of_mem_getPhaseHooks h with ⟨entry, hentry, hhook⟩
  unfold missingRefs at hmissing
  rw [List.flatMap_eq_nil_iff] at hmissing
  have hsome := List.filter_eq_nil_iff.mp (hmissing entry hentry) hook.callableRef
    (List.mem_map_of_mem hhook)
  rw [Option.isNone_iff_eq_none] at hsome
  exact Option.ne_none_iff_exists'.mp hsome

def Callable (runner : RunnerPipeline ε D W) (hook : ModelPipelineHook) : Prop :=
  ∃ callableFn, runner.callableRegistry hook.callableRef = some callableFn

variable {phases : List PipelinePhase}

theorem callable_of_mem_flatMap :
    ∀ hook ∈ phases.flatMap runner.plan.getPhaseHooks, Callable runner hook := by
  intro hook hhook
  rcases List.mem_flatMap.mp hhook with ⟨phase, -, hphase⟩
  exact exists_callable hphase

theorem callable_of_mem_failFastHooks (runner : RunnerPipeline ε D W) :
    ∀ hook ∈ failFastHooks runner.plan, Callable runner hook :=
  callable_of_mem_flatMap

theorem executeHook_invocations (h : Callable runner hook) (st : RunState ε D W) :
    (executeHook runner hook st).2.invocations
      = st.invocations ++ [{ hook := hook, outcome := (executeHook runner hook st).1 }] := by
  rcases h with ⟨callableFn, hcallable⟩
  unfold executeHook
  rw [hcallable]

/-! ### Calls -/

theorem callsOf_cons (hook : ModelPipelineHook) (hooks : List ModelPipelineHook)
    (st : RunState ε D W) :
    callsOf runner (hook :: hooks) st
      = { hook := hook, outcome := (executeHook runner hook st).1 } ::
        callsOf runner hooks (executeHook runner hook st).2 :=
  rfl

theorem invokeUntilFailure_cons (hook : ModelPipelineHook) (hooks : List ModelPipelineHook)
    (st : RunState ε D W) :
    invokeUntilFailure runner (hook :: hooks) st =
      match executeHook runner hook st with
      | (.ok _, st) => invokeUntilFailure runner hooks st
      | (.error e, st) => (some e, st) :=
  rfl

variable (runner) in
theorem map_hook_callsOf (hooks : List ModelPipelineHook) (st : RunState ε D W) :
    (callsOf runner hooks st).map Invocation.hook = hooks := by
  induction hooks generalizing st with
  | nil => rfl
  | cons hook hooks ih =>
    rw [callsOf_cons, List.map_cons, ih]

variable {hooks : List ModelPipelineHook}

theorem invokeAll_invocations (hcallable : ∀ hook ∈ hooks, Callable runner hook)
    (st : RunState ε D W) :
    (invokeAll runner hooks st).invocations = st.invocations ++ callsOf runner hooks st := by
  induction hooks generalizing st with
  | nil => exact (List.append_nil _).symm
  | cons hook hooks ih =>
    rw [List.forall_mem_cons] at hcallable
    show (invokeAll runner hooks (executeHook runner hook st).2).invocations = _
    rw [ih hcallable.2, executeHook_invocations hcallable.1, List.append_assoc]
    rfl

theorem invokeAll_append (hooks hooks' : List ModelPipelineHook) (st : RunState ε D W) :
    invokeAll runner (hooks ++ hooks') st = invokeAll runner hooks' (invokeAll runner hooks st) :=
  List.foldl_append

theorem callsOf_append (hooks hooks' : List ModelPipelineHook) (st : RunState ε D W) :
    callsOf runner (hooks ++ hooks') st
      = callsOf runner hooks st ++ callsOf runner hooks' (invokeAll runner hooks st) := by
  induction hooks generalizing st with
  | nil => rfl
  | cons hook hooks ih =>
    rw [List.cons_append, callsOf_cons, callsOf_cons, ih, List.cons_append]
    rfl

theorem invokeUntilFailure_append (hooks hooks' : List ModelPipelineHook)
    (st : RunState ε D W) :
    invokeUntilFailure runner (hooks ++ hooks') st =
      match invokeUntilFailure runner hooks st with
      | (none, st) => invokeUntilFailure runner hooks' st
      | (some e, st) => (some e, st) := by
  induction hooks generalizing st with
  | nil => rfl
  | cons hook hooks ih =>
    rw [List.cons_append, invokeUntilFailure_cons, invokeUntilFailure_cons]
    rcases executeHook runner hook st with ⟨_ | _, st'⟩
    · rfl
    · exact ih st'

/-- Hooks are invoked in order up to the first one that fails. -/
theorem invokeUntilFailure_spec (hcallable : ∀ hook ∈ hooks, Callable runner hook)
    (st : RunState ε D W) : match invokeUntilFailure runner hooks st with
    | (none, st') => st'.invocations = st.invocations ++ returned hooks
    | (some e, st') => ∃ before failed skipped, hooks = before ++ failed :: skipped ∧
        st'.invocations = st.invocations ++ returned before ++
          [{ hook := failed, outcome := .error e }] := by
  induction hooks generalizing st with
  | nil => exact (List.append_nil _).symm
  | cons hook hooks ih =>
    rw [List.forall_mem_cons] at hcallable
    have hinvocations := executeHook_invocations hcallable.1 st
    unfold invokeUntilFailure
    revert hinvocations
    rcases executeHook runner hook st with ⟨e | _, st₁⟩
    · intro hinvocations
      exact ⟨[], hook, hooks, rfl, by rw [hinvocations]; simp [returned]⟩
    · intro hinvocations
      have hrest := ih hcallable.2 st₁
      dsimp only at hinvocations ⊢
      revert hrest
      rcases invokeUntilFailure runner hooks st₁ with ⟨_ | e, st'⟩
      · intro hrest
        dsimp only at hrest ⊢
        rw [hrest, hinvocations, List.append_assoc]
        rfl
      · intro hrest
        rcases hrest with ⟨before, failed, skipped, rfl, hst'⟩
        refine ⟨hook :: before, failed, skipped, rfl, ?_⟩
        rw [hst', hinvocations]
        simp [returned]

/-! ### Failures -/

theorem failures_append (front back : List (Invocation ε)) :
    failures (front ++ back) = failures front ++ failures back := by
  unfold failures
  rw [List.filterMap_append]

theorem mem_failures_iff {invocations : List (Invocation ε)} {failure : ModelPipelineHook × ε} :
    failure ∈ failures invocations ↔
      { hook := failure.1, outcome := .error failure.2 } ∈ invocations := by
  unfold failures
  rw [List.mem_filterMap]
  constructor
  · rintro ⟨⟨hook, outcome⟩, hmem, heq⟩
    cases outcome with
    | ok _ => exact nomatch heq
    | error e =>
      rw [← Option.some.inj heq]
      exact hmem
  · intro hmem
    exact ⟨_, hmem, rfl⟩

variable {e : ε}

theorem allPrintable_cons_error {interp : PipelineInterpreter ε D}
    {invocations : List (Invocation ε)} :
    AllPrintable interp ({ hook := hook, outcome := .error e } :: invocations) ↔
      Printable interp e ∧ AllPrintable interp invocations := by
  unfold AllPrintable
  show (∀ failure ∈ (hook, e) :: failures invocations, _) ↔ _
  rw [List.forall_mem_cons]

theorem allPrintable_append {interp : PipelineInterpreter ε D}
    {front back : List (Invocation ε)} :
    AllPrintable interp (front ++ back) ↔
      AllPrintable interp front ∧ AllPrintable interp back := by
  unfold AllPrintable
  rw [failures_append, List.forall_mem_append]

variable {errors : List ModelHookError}

theorem allPrintable_of_forall₂ {interp : PipelineInterpreter ε D}
    {invocations : List (Invocation ε)}
    (h : List.Forall₂ (ReportsFailure interp) (failures invocations) errors) :
    AllPrintable interp invocations := by
  unfold AllPrintable
  intro failure hmem
  rcases List.forall₂_iff_get.mp h with ⟨hlength, hget⟩
  rcases List.get_of_mem hmem with ⟨i, rfl⟩
  exact ⟨_, (hget i.1 i.2 (hlength ▸ i.2)).2.2.2⟩

/-! ## The loops -/

theorem phaseLoop_failFast (phase : PipelinePhase) (hooks : List ModelPipelineHook)
    (errors : List ModelHookError) (st : RunState ε D W) :
    phaseLoop runner phase true hooks errors st =
      match invokeUntilFailure runner hooks st with
      | (none, st') => (.ok errors, st')
      | (some e, st') => (.error e, st') := by
  induction hooks generalizing st with
  | nil => rfl
  | cons hook hooks ih =>
    rw [invokeUntilFailure_cons, phaseLoop]
    rcases executeHook runner hook st with ⟨e | _, st₁⟩
    · rfl
    · exact ih st₁

variable {st : RunState ε D W}

/-- A phase that goes on invokes every hook and collects an error for each failure. -/
theorem phaseLoop_collects (hphase : ∀ hook ∈ hooks, hook.phase = phase)
    (hprintable : AllPrintable runner.interp (callsOf runner hooks st))
    (errors : List ModelHookError) : ∃ new, phaseLoop runner phase false hooks errors st
        = (.ok (errors ++ new), invokeAll runner hooks st) ∧
      List.Forall₂ (ReportsFailure runner.interp) (failures (callsOf runner hooks st)) new := by
  induction hooks generalizing st errors with
  | nil => exact ⟨[], by rw [List.append_nil]; rfl, List.Forall₂.nil⟩
  | cons hook hooks ih =>
    rw [List.forall_mem_cons] at hphase
    have hall : invokeAll runner (hook :: hooks) st
        = invokeAll runner hooks (executeHook runner hook st).2 := rfl
    rw [callsOf_cons] at hprintable ⊢
    rw [hall, phaseLoop]
    revert hprintable
    rcases executeHook runner hook st with ⟨e | _, st₁⟩
    · intro hprintable
      rcases allPrintable_cons_error.mp hprintable with ⟨⟨message, hmessage⟩, hrest⟩
      let error : ModelHookError := {
        phase := phase.value
        hookName := hook.hookName
        errorType := runner.interp.typeName e
        errorMessage := message }
      have herror : ReportsFailure runner.interp (hook, e) error :=
        ⟨congrArg PipelinePhase.value hphase.1.symm, rfl, rfl, hmessage⟩
      rcases ih hphase.2 hrest (errors ++ [error]) with ⟨new, hloop, hreports⟩
      dsimp only
      rw [if_neg Bool.false_ne_true, hmessage]
      refine ⟨error :: new, ?_, List.Forall₂.cons herror hreports⟩
      rw [List.append_assoc, List.singleton_append] at hloop
      exact hloop
    · intro hprintable
      exact ih hphase.2 hprintable errors

theorem phaseLoop_raises (phase : PipelinePhase)
    (hprintable : ¬ AllPrintable runner.interp (callsOf runner hooks st))
    (errors : List ModelHookError) :
    ∃ e, (phaseLoop runner phase false hooks errors st).1 = .error e := by
  induction hooks generalizing st errors with
  | nil => exact absurd (fun _ h => nomatch h) hprintable
  | cons hook hooks ih =>
    rw [callsOf_cons] at hprintable
    rw [phaseLoop]
    revert hprintable
    rcases executeHook runner hook st with ⟨e | _, st₁⟩
    · intro hprintable
      dsimp only
      rw [if_neg Bool.false_ne_true]
      cases hmessage : runner.interp.str e with
      | error e' => exact ⟨e', rfl⟩
      | ok message =>
        apply ih
        intro hrest
        exact hprintable (allPrintable_cons_error.mpr ⟨⟨message, hmessage⟩, hrest⟩)
    · intro hprintable
      exact ih hprintable errors

theorem finalizeLoop_eq_phaseLoop
    (hprintable : AllPrintable runner.interp (callsOf runner hooks st))
    (errors : List ModelHookError) :
    finalizeLoop runner hooks errors st = phaseLoop runner .finalize false hooks errors st := by
  induction hooks generalizing st errors with
  | nil => rfl
  | cons hook hooks ih =>
    rw [callsOf_cons] at hprintable
    rw [finalizeLoop, phaseLoop]
    revert hprintable
    rcases executeHook runner hook st with ⟨e | _, st₁⟩
    · intro hprintable
      rcases allPrintable_cons_error.mp hprintable with ⟨⟨message, hmessage⟩, hrest⟩
      dsimp only
      rw [if_neg Bool.false_ne_true, hmessage]
      exact ih hrest _
    · intro hprintable
      exact ih hprintable errors

/-- FINALIZE stops at a failure that cannot be printed. -/
theorem finalizeLoop_stops (hprintable : ¬ AllPrintable runner.interp (callsOf runner hooks st))
    (errors : List ModelHookError) :
    ∃ before failed skipped x y collected, hooks = before ++ failed :: skipped ∧
      AllPrintable runner.interp (callsOf runner before st) ∧
      (executeHook runner failed (invokeAll runner before st)).1 = .error x ∧
      runner.interp.str x = .error y ∧
      finalizeLoop runner hooks errors st
        = (frameworkError runner y failed.hookName collected,
            invokeAll runner (before ++ [failed]) st) := by
  induction hooks generalizing st errors with
  | nil => exact absurd (fun _ h => nomatch h) hprintable
  | cons hook hooks ih =>
    have hcalls : ∀ before, callsOf runner (hook :: before) st
        = { hook := hook, outcome := (executeHook runner hook st).1 } ::
          callsOf runner before (executeHook runner hook st).2 := fun _ => rfl
    have hall : ∀ before, invokeAll runner (hook :: before) st
        = invokeAll runner before (executeHook runner hook st).2 := fun _ => rfl
    rw [callsOf_cons] at hprintable
    rw [finalizeLoop]
    cases hexecute : executeHook runner hook st with
    | mk outcome st₁ =>
      rw [hexecute] at hprintable hcalls hall
      cases outcome with
      | error e =>
        cases hmessage : runner.interp.str e with
        | error y =>
          refine ⟨[], hook, hooks, e, y, errors, rfl, fun _ h => (nomatch h), ?_, hmessage, ?_⟩
          · show (executeHook runner hook st).1 = _
            rw [hexecute]
          · dsimp only
            rw [hmessage, List.nil_append, hall]
            rfl
        | ok message =>
          have hrest : ¬ AllPrintable runner.interp (callsOf runner hooks st₁) := by
            intro hrest
            exact hprintable (allPrintable_cons_error.mpr ⟨⟨message, hmessage⟩, hrest⟩)
          dsimp only
          rw [hmessage]
          rcases ih hrest _ with
            ⟨before, failed, skipped, x, y, collected, rfl, hbefore, hx, hy, hloop⟩
          refine ⟨hook :: before, failed, skipped, x, y, collected, rfl, ?_, ?_, hy, ?_⟩
          · rw [hcalls]
            exact allPrintable_cons_error.mpr ⟨⟨message, hmessage⟩, hbefore⟩
          · rw [hall]
            exact hx
          · rw [List.cons_append, hall]
            exact hloop
      | ok u =>
        rcases ih hprintable errors with
          ⟨before, failed, skipped, x, y, collected, rfl, hbefore, hx, hy, hloop⟩
        refine ⟨hook :: before, failed, skipped, x, y, collected, rfl, ?_, ?_, hy, ?_⟩
        · rw [hcalls]
          exact hbefore
        · rw [hall]
          exact hx
        · rw [List.cons_append, hall]
          exact hloop

section
variable (hplan : BuiltPlan runner.plan)
include hplan

theorem executePhase_failFast (hphase : phase ∈ failFastPhases)
    (st : RunState ε D W) : executePhase runner phase st =
      match invokeUntilFailure runner (runner.plan.getPhaseHooks phase) st with
      | (none, st') => (.ok [], st')
      | (some e, st') => (.error e, st') := by
  unfold executePhase
  rw [hplan.isPhaseFailFast_eq, decide_eq_true hphase]
  exact phaseLoop_failFast phase _ [] st

theorem executePhase_collecting (hphase : phase ∉ failFastPhases)
    (st : RunState ε D W) : executePhase runner phase st
      = phaseLoop runner phase false (runner.plan.getPhaseHooks phase) [] st := by
  unfold executePhase
  rw [hplan.isPhaseFailFast_eq, decide_eq_false hphase]

theorem phasesLoop_failFast (phases : List PipelinePhase)
    (hphases : ∀ phase ∈ phases, phase ∈ failFastPhases) (rest : List PipelinePhase)
    (errors : List ModelHookError) (st : RunState ε D W) :
    phasesLoop runner (phases ++ rest) errors st =
      match invokeUntilFailure runner (phases.flatMap runner.plan.getPhaseHooks) st with
      | (none, st') => phasesLoop runner rest errors st'
      | (some e, st') => (errors, some e, st') := by
  induction phases generalizing st with
  | nil => rfl
  | cons phase phases ih =>
    rw [List.forall_mem_cons] at hphases
    rw [List.cons_append, List.flatMap_cons, invokeUntilFailure_append, phasesLoop,
      executePhase_failFast hplan hphases.1]
    rcases invokeUntilFailure runner (runner.plan.getPhaseHooks phase) st with ⟨_ | e, st₁⟩
    · dsimp only
      rw [List.append_nil, ih hphases.2]
    · rfl

theorem phasesLoop_collects
    (hphases : ∀ phase ∈ phases, phase ∉ failFastPhases) (hprintable : AllPrintable runner.interp
      (callsOf runner (phases.flatMap runner.plan.getPhaseHooks) st)) (errors : List ModelHookError) :
    ∃ new, phasesLoop runner phases errors st
        = (errors ++ new, none, invokeAll runner (phases.flatMap runner.plan.getPhaseHooks) st) ∧
      List.Forall₂ (ReportsFailure runner.interp)
        (failures (callsOf runner (phases.flatMap runner.plan.getPhaseHooks) st)) new := by
  induction phases generalizing st errors with
  | nil => exact ⟨[], by rw [List.append_nil]; rfl, List.Forall₂.nil⟩
  | cons phase phases ih =>
    rw [List.forall_mem_cons] at hphases
    rw [List.flatMap_cons, callsOf_append, allPrintable_append] at hprintable
    rcases phaseLoop_collects (hplan.phase_eq phase) hprintable.1 [] with
      ⟨phaseErrors, hphase, hreports⟩
    rcases ih hphases.2 hprintable.2 (errors ++ phaseErrors) with ⟨new, hrest, hreports'⟩
    refine ⟨phaseErrors ++ new, ?_, ?_⟩
    · rw [phasesLoop, executePhase_collecting hplan hphases.1, hphase, List.flatMap_cons,
        invokeAll_append]
      dsimp only
      rw [List.nil_append, hrest, List.append_assoc]
    · rw [List.flatMap_cons, callsOf_append, failures_append]
      exact List.rel_append hreports hreports'

theorem phasesLoop_raises
    (hphases : ∀ phase ∈ phases, phase ∉ failFastPhases) (hprintable : ¬ AllPrintable runner.interp
      (callsOf runner (phases.flatMap runner.plan.getPhaseHooks) st)) (errors : List ModelHookError) :
    ∃ e, (phasesLoop runner phases errors st).2.1 = some e := by
  induction phases generalizing st errors with
  | nil => exact absurd (fun _ h => nomatch h) hprintable
  | cons phase phases ih =>
    rw [List.forall_mem_cons] at hphases
    rw [List.flatMap_cons, callsOf_append, allPrintable_append] at hprintable
    rw [phasesLoop, executePhase_collecting hplan hphases.1]
    by_cases hfirst : AllPrintable runner.interp
        (callsOf runner (runner.plan.getPhaseHooks phase) st)
    · rcases phaseLoop_collects (hplan.phase_eq phase) hfirst [] with ⟨new, hphase, -⟩
      rw [hphase]
      exact ih hphases.2 (fun hrest => hprintable ⟨hfirst, hrest⟩) _
    · rcases phaseLoop_raises phase hfirst [] with ⟨e, hraises⟩
      rcases hloop : phaseLoop runner phase false (runner.plan.getPhaseHooks phase) [] st
        with ⟨result, st₁⟩
      rw [hloop] at hraises
      dsimp only at hraises
      rw [hraises]
      exact ⟨e, rfl⟩

end

/-! ## The run -/

theorem run_eq (hplan : BuiltPlan runner.plan) (world : W) :
    run runner world =
      match invokeUntilFailure runner (failFastHooks runner.plan) (initialState runner world) with
      | (none, st) =>
        let (errors, exceptionToRaise, st) := phasesLoop runner [.after, .emit] [] st
        finishRun runner errors exceptionToRaise st
      | (some e, st) => finishRun runner [] (some e) st := by
  have hloop := phasesLoop_failFast hplan [.preflight, .before, .execute]
    (fun phase hphase => hphase) [.after, .emit] [] (initialState runner world)
  unfold run failFastHooks
  rw [show canonicalPhaseOrder.dropLast = [PipelinePhase.preflight, .before, .execute]
    ++ [.after, .emit] from rfl, hloop]
  rcases invokeUntilFailure runner _ (initialState runner world) with ⟨_ | e, st⟩
  · rfl
  · rfl

/-! ### Calls stay noted -/

section
variable (runner)

theorem invocations_prefix_executeHook (hook : ModelPipelineHook) (st : RunState ε D W) :
    st.invocations <+: (executeHook runner hook st).2.invocations := by
  unfold executeHook
  cases runner.callableRegistry hook.callableRef with
  | none => exact List.prefix_refl _
  | some callableFn => exact List.prefix_append _ _

theorem invocations_prefix_phaseLoop (phase : PipelinePhase) (failFast : Bool)
    (hooks : List ModelPipelineHook) (errors : List ModelHookError) (st : RunState ε D W) :
    st.invocations <+: (phaseLoop runner phase failFast hooks errors st).2.invocations := by
  induction hooks generalizing st errors with
  | nil => exact List.prefix_refl _
  | cons hook hooks ih =>
    have hexecute := invocations_prefix_executeHook runner hook st
    rw [phaseLoop]
    revert hexecute
    rcases executeHook runner hook st with ⟨e | _, st₁⟩
    · intro hexecute
      dsimp only
      split_ifs
      · exact hexecute
      · cases runner.interp.str e with
        | error e' => exact hexecute
        | ok message => exact hexecute.trans (ih _ st₁)
    · intro hexecute
      exact hexecute.trans (ih errors st₁)

theorem invocations_prefix_phasesLoop (phases : List PipelinePhase)
    (errors : List ModelHookError) (st : RunState ε D W) :
    st.invocations <+: (phasesLoop runner phases errors st).2.2.invocations := by
  induction phases generalizing st errors with
  | nil => exact List.prefix_refl _
  | cons phase phases ih =>
    have hphase := invocations_prefix_phaseLoop runner phase
      (runner.plan.isPhaseFailFast phase) (runner.plan.getPhaseHooks phase) [] st
    rw [phasesLoop]
    unfold executePhase
    revert hphase
    rcases phaseLoop runner phase _ _ [] st with ⟨e | phaseErrors, st₁⟩
    · exact id
    · intro hphase
      exact hphase.trans (ih _ st₁)

theorem invocations_prefix_finalizeLoop (hooks : List ModelPipelineHook)
    (errors : List ModelHookError) (st : RunState ε D W) :
    st.invocations <+: (finalizeLoop runner hooks errors st).2.invocations := by
  induction hooks generalizing st errors with
  | nil => exact List.prefix_refl _
  | cons hook hooks ih =>
    have hexecute := invocations_prefix_executeHook runner hook st
    rw [finalizeLoop]
    revert hexecute
    rcases executeHook runner hook st with ⟨e | _, st₁⟩
    · intro hexecute
      dsimp only
      cases runner.interp.str e with
      | error e' => exact hexecute
      | ok message => exact hexecute.trans (ih _ st₁)
    · intro hexecute
      exact hexecute.trans (ih errors st₁)

theorem finishRun_some (errors : List ModelHookError) (e : ε) (st : RunState ε D W) :
    st.invocations <+: (finishRun runner errors (some e) st).2.invocations ∧
      ∃ e', (finishRun runner errors (some e) st).1 = .error e' := by
  have hfinalize := invocations_prefix_finalizeLoop runner
    (runner.plan.getPhaseHooks .finalize) [] st
  unfold finishRun executeFinalizePhase
  revert hfinalize
  rcases finalizeLoop runner (runner.plan.getPhaseHooks .finalize) [] st with ⟨z | _, st₁⟩
  · exact fun h => ⟨h, z, rfl⟩
  · exact fun h => ⟨h, e, rfl⟩

end

theorem finishRun_of_allPrintable (hplan : BuiltPlan runner.plan)
    (hprintable : AllPrintable runner.interp
      (callsOf runner (runner.plan.getPhaseHooks .finalize) st)) (errors : List ModelHookError)
    (exceptionToRaise : Option ε) : (finishRun runner errors exceptionToRaise st).2
        = invokeAll runner (runner.plan.getPhaseHooks .finalize) st ∧
      ∃ new, List.Forall₂ (ReportsFailure runner.interp)
          (failures (callsOf runner (runner.plan.getPhaseHooks .finalize) st)) new ∧
        (finishRun runner errors exceptionToRaise st).1 =
          match exceptionToRaise with
          | some e => .error e
          | none =>
            match runner.interp.deepcopy
              (invokeAll runner (runner.plan.getPhaseHooks .finalize) st).context with
            | .error e => .error e
            | .ok context =>
              .ok {
                success := (errors ++ new).length = 0
                errors := errors ++ new
                context := context } := by
  rcases phaseLoop_collects (hplan.phase_eq .finalize) hprintable [] with ⟨new, hloop, hreports⟩
  rw [← finalizeLoop_eq_phaseLoop hprintable, List.nil_append] at hloop
  unfold finishRun executeFinalizePhase
  rw [hloop]
  cases exceptionToRaise with
  | some e => exact ⟨rfl, new, hreports, rfl⟩
  | none =>
    dsimp only
    cases runner.interp.deepcopy
      (invokeAll runner (runner.plan.getPhaseHooks .finalize) st).context with
    | error e => exact ⟨rfl, new, hreports, rfl⟩
    | ok context => exact ⟨rfl, new, hreports, rfl⟩

theorem finishRun_of_not_allPrintable (hprintable : ¬ AllPrintable runner.interp
      (callsOf runner (runner.plan.getPhaseHooks .finalize) st)) (errors : List ModelHookError)
    (exceptionToRaise : Option ε) : ∃ before failed skipped x y,
      runner.plan.getPhaseHooks .finalize = before ++ failed :: skipped ∧
      AllPrintable runner.interp (callsOf runner before st) ∧
      (executeHook runner failed (invokeAll runner before st)).1 = .error x ∧
      runner.interp.str x = .error y ∧
      (finishRun runner errors exceptionToRaise st).2
        = invokeAll runner (before ++ [failed]) st ∧
      ∀ e, exceptionToRaise = some e →
        ((finishRun runner errors exceptionToRaise st).1 = .error e ↔
          ∀ z, runner.interp.str y = .error z → z = e) := by
  rcases finalizeLoop_stops hprintable [] with
    ⟨before, failed, skipped, x, y, collected, hhooks, hbefore, hx, hy, hloop⟩
  refine ⟨before, failed, skipped, x, y, hhooks, hbefore, hx, hy, ?_⟩
  unfold finishRun executeFinalizePhase
  rw [hloop]
  unfold frameworkError
  cases hz : runner.interp.str y with
  | error z =>
    refine ⟨rfl, fun e _ => ?_⟩
    show Except.error z = .error e ↔ _
    rw [Except.error.injEq]
    constructor
    · intro h z' hz'
      rw [← Except.error.inj hz']
      exact h
    · intro h
      exact h z rfl
  | ok message =>
    cases exceptionToRaise with
    | some e =>
      refine ⟨rfl, fun e' he' => ?_⟩
      rw [← Option.some.inj he']
      exact iff_of_true rfl fun z hz' => (nomatch hz')
    | none =>
      refine ⟨?_, fun e he => (nomatch he)⟩
      dsimp only
      cases runner.interp.deepcopy (invokeAll runner (before ++ [failed]) st).context with
      | error e => rfl
      | ok context => rfl

/-! ## The law, case by case -/

variable {failed failed' : ModelPipelineHook}

theorem returned_append_inj {before before' : List ModelPipelineHook}
    {e e' : ε} {rest rest' : List (Invocation ε)}
    (h : returned before ++ { hook := failed, outcome := .error e } :: rest
      = returned before' ++ { hook := failed', outcome := .error e' } :: rest') :
    e = e' ∧ rest = rest' := by
  induction before generalizing before' with
  | nil =>
    cases before' with
    | nil =>
      have hcons := List.cons.inj h
      exact ⟨Except.error.inj (Invocation.mk.inj hcons.1).2, hcons.2⟩
    | cons hook before' => exact nomatch (Invocation.mk.inj (List.cons.inj h).1).2
  | cons hook before ih =>
    cases before' with
    | nil => exact nomatch (Invocation.mk.inj (List.cons.inj h).1).2
    | cons hook' before' => exact ih (List.cons.inj h).2

variable {before skipped : List ModelPipelineHook}

theorem returned_append_ne {rest rest' : List (Invocation ε)} :
    returned (before ++ failed' :: skipped) ++ rest
      ≠ returned before ++ { hook := failed, outcome := .error e } :: rest' := by
  intro h
  induction before with
  | nil => exact nomatch (Invocation.mk.inj (List.cons.inj h).1).2
  | cons hook before ih => exact ih (List.cons.inj h).2

variable {interp : PipelineInterpreter ε D} {plan : ModelPipelineExecutionPlan}
  {invocations rest : List (Invocation ε)} {result : Except ε (ModelPipelineResult D)}

theorem law_iff_of_failed {failed : ModelPipelineHook}
    (hhooks : failFastHooks plan = before ++ failed :: skipped) (hinvocations : invocations
      = returned before ++ { hook := failed, outcome := .error e } :: rest) :
    Aborted plan invocations result ∨ Completed interp plan invocations result ↔
      rest.map Invocation.hook = plan.getPhaseHooks .finalize ∧ result = .error e := by
  constructor
  · intro h
    rcases h with ⟨before', failed', skipped', e', finalized, -, heq, hfinalized, hresult⟩ |
      ⟨collected, pipelineResult, heq, -⟩
    · rw [hinvocations] at heq
      rcases returned_append_inj heq with ⟨rfl, rfl⟩
      exact ⟨hfinalized, hresult⟩
    · rw [hinvocations, hhooks] at heq
      exact absurd heq.symm returned_append_ne
  · intro h
    exact Or.inl ⟨before, failed, skipped, e, rest, hhooks, hinvocations, h.1, h.2⟩

theorem law_iff_of_returned (hinvocations : invocations = returned (failFastHooks plan) ++ rest) :
    Aborted plan invocations result ∨ Completed interp plan invocations result ↔
      rest.map Invocation.hook = collectingHooks plan ∧
        ∃ pipelineResult, result = .ok pipelineResult ∧
          List.Forall₂ (ReportsFailure interp) (failures rest) pipelineResult.errors ∧
          (pipelineResult.success = true ↔ failures rest = []) := by
  constructor
  · intro h
    rcases h with ⟨before, failed, skipped, e, finalized, hhooks, heq, -⟩ |
      ⟨collected, pipelineResult, heq, hcollected, hresult⟩
    · rw [hinvocations, hhooks] at heq
      exact absurd heq returned_append_ne
    · rw [hinvocations] at heq
      rw [List.append_cancel_left heq]
      exact ⟨hcollected, pipelineResult, hresult⟩
  · intro h
    rcases h with ⟨hcollected, pipelineResult, hresult⟩
    exact Or.inr ⟨rest, pipelineResult, hinvocations, hcollected, hresult⟩

/-- The law for a run in which a phase fails fast. -/
theorem traceLaw_iff_of_failed (hplan : BuiltPlan runner.plan) {world : W}
    (h : invokeUntilFailure runner (failFastHooks runner.plan) (initialState runner world)
      = (some e, st)) : TraceLaw runner world ↔
      ∀ front last back, callsOf runner (runner.plan.getPhaseHooks .finalize) st
        = front ++ last :: back → ∀ x, last.outcome = .error x →
          ∀ y, runner.interp.str x = .error y →
            back = [] ∧ ∀ z, runner.interp.str y = .error z → z = e := by
  have hrun := run_eq hplan world
  have hspec := invokeUntilFailure_spec (callable_of_mem_failFastHooks runner)
    (initialState runner world)
  rw [h] at hrun hspec
  dsimp only at hrun hspec
  rcases hspec with ⟨before, failed, skipped, hhooks, hst⟩
  have hinvocations : ∀ hooks : List ModelPipelineHook,
      (∀ hook ∈ hooks, hook ∈ runner.plan.getPhaseHooks .finalize) →
      (invokeAll runner hooks st).invocations = returned before ++
        { hook := failed, outcome := .error e } :: callsOf runner hooks st := by
    intro hooks hmem
    rw [invokeAll_invocations (fun hook hhook => exists_callable (hmem hook hhook)), hst]
    show ([] ++ returned before ++ [_]) ++ _ = _
    rw [List.nil_append, List.append_assoc, List.singleton_append]
  unfold TraceLaw
  rw [hrun]
  by_cases hprintable : AllPrintable runner.interp
      (callsOf runner (runner.plan.getPhaseHooks .finalize) st)
  · rcases finishRun_of_allPrintable hplan hprintable [] (some e) with ⟨hstate, new, -, hresult⟩
    rw [hstate, hresult, law_iff_of_failed hhooks (hinvocations _ fun _ h => h)]
    refine iff_of_true ⟨map_hook_callsOf runner _ _, rfl⟩ fun front last back hsplit x hx y hy => ?_
    have hmem : (last.hook, x) ∈ failures
        (callsOf runner (runner.plan.getPhaseHooks .finalize) st) := by
      rw [mem_failures_iff, hsplit, ← hx]
      exact List.mem_append_right _ List.mem_cons_self
    rcases hprintable _ hmem with ⟨message, hmessage⟩
    exact nomatch hy.symm.trans hmessage
  · rcases finishRun_of_not_allPrintable hprintable [] (some e) with
      ⟨front₀, last₀, back₀, x, y, hfinalize, hfront₀, hx, hy, hstate, hresult⟩
    rw [hstate, law_iff_of_failed hhooks (hinvocations _ fun hook hhook => ?_), hresult e rfl,
      map_hook_callsOf, hfinalize]
    · -- the calls are those up to the first failure without a text
      have hcalls : callsOf runner (front₀ ++ [last₀]) st
          = callsOf runner front₀ st ++ [{ hook := last₀, outcome := .error x }] := by
        rw [callsOf_append, callsOf_cons, hx]
        rfl
      constructor
      · rintro ⟨hall, hz⟩ front last back hsplit x' hx' y' hy'
        rw [← hall, hcalls] at hsplit
        rcases append_singleton_eq_split hsplit with ⟨back', -, hearlier⟩ | ⟨rfl, -, rfl⟩
        · have hmem : (last.hook, x') ∈ failures (callsOf runner front₀ st) := by
            rw [mem_failures_iff, hearlier, ← hx']
            exact List.mem_append_right _ List.mem_cons_self
          rcases hfront₀ _ hmem with ⟨message, hmessage⟩
          exact nomatch hy'.symm.trans hmessage
        · rw [← Except.error.inj hx', hy] at hy'
          rw [← Except.error.inj hy']
          exact ⟨rfl, hz⟩
      · intro hall
        have hlast := hall (callsOf runner front₀ st) { hook := last₀, outcome := .error x }
          (callsOf runner back₀ (executeHook runner last₀ (invokeAll runner front₀ st)).2)
          (by rw [callsOf_append, callsOf_cons, hx]) x rfl y hy
        have hback := map_hook_callsOf runner back₀
          (executeHook runner last₀ (invokeAll runner front₀ st)).2
        rw [hlast.1] at hback
        rw [← hback]
        exact ⟨rfl, hlast.2⟩
    · rw [hfinalize]
      rcases List.mem_append.mp hhook with hhook | hhook
      · exact List.mem_append_left _ hhook
      · rw [List.mem_singleton.mp hhook]
        exact List.mem_append_right _ List.mem_cons_self

theorem collectingHooks_eq (plan : ModelPipelineExecutionPlan) :
    collectingHooks plan = [PipelinePhase.after, .emit].flatMap plan.getPhaseHooks ++
      plan.getPhaseHooks .finalize := by
  unfold collectingHooks
  simp

theorem success_iff {collected : List (Invocation ε)}
    (h : List.Forall₂ (ReportsFailure interp) (failures collected) errors) :
    decide (errors.length = 0) = true ↔ failures collected = [] := by
  rw [decide_eq_true_eq, ← h.length_eq, List.length_eq_zero_iff]

/-- The law for a run in which the phases that fail fast return. -/
theorem traceLaw_iff_of_returned (hplan : BuiltPlan runner.plan) {world : W}
    (h : invokeUntilFailure runner (failFastHooks runner.plan) (initialState runner world)
      = (none, st)) : TraceLaw runner world ↔
      AllPrintable runner.interp (callsOf runner (collectingHooks runner.plan) st) ∧
        ∃ data, runner.interp.deepcopy (invokeAll runner (collectingHooks runner.plan) st).context
          = .ok data := by
  have hrun := run_eq hplan world
  have hst := invokeUntilFailure_spec (callable_of_mem_failFastHooks runner)
    (initialState runner world)
  rw [h] at hrun hst
  dsimp only at hrun hst
  have hphases : ∀ phase ∈ [PipelinePhase.after, .emit], phase ∉ failFastPhases := by decide
  have hcallable : ∀ hooks : List ModelPipelineHook,
      (∀ hook ∈ hooks, hook ∈ runner.plan.getPhaseHooks .finalize) →
      ∀ hook ∈ [PipelinePhase.after, .emit].flatMap runner.plan.getPhaseHooks ++ hooks,
        Callable runner hook := by
    intro hooks hmem
    rw [List.forall_mem_append]
    exact ⟨callable_of_mem_flatMap, fun hook hhook => exists_callable (hmem hook hhook)⟩
  have hinvocations : ∀ hooks : List ModelPipelineHook,
      (∀ hook ∈ hooks, hook ∈ runner.plan.getPhaseHooks .finalize) →
      (invokeAll runner hooks (invokeAll runner
        ([PipelinePhase.after, .emit].flatMap runner.plan.getPhaseHooks) st)).invocations
        = returned (failFastHooks runner.plan) ++ callsOf runner
            ([PipelinePhase.after, .emit].flatMap runner.plan.getPhaseHooks ++ hooks) st := by
    intro hooks hmem
    rw [← invokeAll_append, invokeAll_invocations (hcallable hooks hmem), hst]
    rfl
  unfold TraceLaw
  rw [hrun, collectingHooks_eq, callsOf_append, allPrintable_append, invokeAll_append]
  by_cases hphases₁ : AllPrintable runner.interp
      (callsOf runner ([PipelinePhase.after, .emit].flatMap runner.plan.getPhaseHooks) st)
  · rcases phasesLoop_collects hplan hphases hphases₁ [] with ⟨errors, hloop, hreports⟩
    rw [hloop]
    dsimp only
    rw [List.nil_append]
    by_cases hprintable : AllPrintable runner.interp
        (callsOf runner (runner.plan.getPhaseHooks .finalize)
          (invokeAll runner ([PipelinePhase.after, .emit].flatMap runner.plan.getPhaseHooks) st))
    · rcases finishRun_of_allPrintable hplan hprintable errors none with
        ⟨hstate, new, hreports', hresult⟩
      rw [hstate, hresult, law_iff_of_returned (hinvocations _ fun _ h => h),
        map_hook_callsOf, collectingHooks_eq, callsOf_append, failures_append]
      dsimp only
      have hall : List.Forall₂ (ReportsFailure runner.interp) (_ ++ _) (errors ++ new) :=
        List.rel_append hreports hreports'
      cases runner.interp.deepcopy (invokeAll runner (runner.plan.getPhaseHooks .finalize)
        (invokeAll runner ([PipelinePhase.after, .emit].flatMap
          runner.plan.getPhaseHooks) st)).context with
      | error e =>
        apply iff_of_false
        · rintro ⟨-, pipelineResult, hcopy, -⟩
          exact nomatch hcopy
        · rintro ⟨-, data, hcopy⟩
          exact nomatch hcopy
      | ok data =>
        refine iff_of_true ⟨rfl, _, rfl, hall, ?_⟩ ⟨⟨hphases₁, hprintable⟩, data, rfl⟩
        rw [← failures_append] at hall ⊢
        exact success_iff hall
    · rcases finishRun_of_not_allPrintable hprintable errors none with
        ⟨front₀, last₀, back₀, x, y, hfinalize, -, hx, hy, hstate, -⟩
      rw [hstate, law_iff_of_returned (hinvocations _ fun hook hhook => ?_)]
      · apply iff_of_false
        · rintro ⟨-, pipelineResult, -, hall, -⟩
          have hlast := allPrintable_of_forall₂ hall
          rw [callsOf_append, allPrintable_append, callsOf_append, allPrintable_append,
            callsOf_cons, hx, allPrintable_cons_error] at hlast
          rcases hlast.2.2.1 with ⟨message, hmessage⟩
          exact nomatch hy.symm.trans hmessage
        · rintro ⟨⟨-, hall⟩, -⟩
          exact hprintable hall
      · rw [hfinalize]
        rcases List.mem_append.mp hhook with hhook | hhook
        · exact List.mem_append_left _ hhook
        · rw [List.mem_singleton.mp hhook]
          exact List.mem_append_right _ List.mem_cons_self
  · rcases phasesLoop_raises hplan hphases hphases₁ [] with ⟨e, hraises⟩
    have hprefix := invocations_prefix_phasesLoop runner [.after, .emit] [] st
    revert hraises hprefix
    rcases phasesLoop runner [.after, .emit] [] st with ⟨errors, exceptionToRaise, st'⟩
    intro hraises hprefix
    dsimp only at hraises hprefix ⊢
    rw [hraises]
    rcases finishRun_some runner errors e st' with ⟨hprefix', e', hresult⟩
    rcases hprefix.trans hprefix' with ⟨collected, hcollected⟩
    rw [hresult, law_iff_of_returned (hcollected.symm.trans (by rw [hst]; rfl))]
    apply iff_of_false
    · rintro ⟨-, pipelineResult, heq, -⟩
      exact nomatch heq
    · rintro ⟨⟨hall, -⟩, -⟩
      exact hphases₁ hall

/-- The runs of a plan of the builder that keep the law. -/
theorem run_traceLaw_iff {builder : BuilderExecutionPlan}
    {warnings : List ModelValidationWarning}
    (hplan : builder.build = .ok (runner.plan, warnings)) (world : W) :
    TraceLaw runner world ↔ Reportable runner world := by
  have hbuilt := builtPlan_of_build hplan
  unfold Reportable
  cases h : invokeUntilFailure runner (failFastHooks runner.plan) (initialState runner world) with
  | mk failure st =>
    cases failure with
    | none => exact traceLaw_iff_of_returned hbuilt h
    | some e => exact traceLaw_iff_of_failed hbuilt h

end

/-! ## A context that cannot be copied -/

inductive StoredValue
  | text (value : String)
  | lock
deriving DecidableEq

def lockInterpreter : PipelineInterpreter (String × String) (List (String × StoredValue)) where
  typeName e := e.1
  str e := .ok e.2
  isTimeoutError e := e.1 = "TimeoutError"
  hookTimeoutError hookName _ := ("HookTimeoutError", "Hook '" ++ hookName ++ "' exceeded timeout")
  callableNotFoundError ref :=
    ("CallableNotFoundError", "Callable not found in registry: " ++ ref)
  emptyData := []
  deepcopy data :=
    if StoredValue.lock ∈ data.map Prod.snd then
      .error ("TypeError", "cannot pickle '_thread.lock' object")
    else .ok data

/-- A hook that puts a lock into the context for the hooks after it. -/
def acquireHook : ModelPipelineHook :=
  { hookName := "acquire", phase := .execute, callableRef := "acquire" }

def acquireBuilder : BuilderExecutionPlan := { registry := { hooks := [acquireHook] } }

def acquireRunner :
    RunnerPipeline (String × String) (List (String × StoredValue)) Unit where
  interp := lockInterpreter
  plan := {
    phases := [(.execute, { phase := .execute, hooks := [acquireHook], failFast := true })] }
  callableRegistry ref :=
    if ref = "acquire" then some fun _ data world => (.ok (), data ++ [("lock", .lock)], world)
    else none
  validated := by decide

theorem run_traceLaw_iff_acquireRunner :
    TraceLaw acquireRunner () ↔ Reportable acquireRunner () :=
  run_traceLaw_iff (show acquireBuilder.build = .ok (acquireRunner.plan, []) from rfl) ()

/-- All hooks return, and the run raises. -/
theorem acquireRunner_not_traceLaw :
    acquireBuilder.build = .ok (acquireRunner.plan, []) ∧
      (run acquireRunner ()).2.invocations = returned [acquireHook] ∧
      ¬ TraceLaw acquireRunner () := by
  refine ⟨rfl, rfl, ?_⟩
  rintro (⟨before, failed, skipped, e, finalized, -, hinvocations, -⟩ |
    ⟨collected, pipelineResult, -, -, hresult, -⟩)
  · cases before with
    | nil => exact nomatch hinvocations
    | cons hook before => cases before <;> exact nomatch hinvocations
  · exact nomatch hresult

end OmnibaseCore.Pipeline
