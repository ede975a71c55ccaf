import OmnibaseCore.Pipeline.Builder
import OmnibaseCore.Python.Sorted

/-!
# Running a pipeline

`RunnerPipeline.run`. The hooks are arbitrary functions of the context and of the rest of the
world, so that every invocation may return or raise as it likes. What can go wrong between the
hooks is part of the model too: `str(e)` may raise, and so may the deep copy of the context. Every
call of a hook is noted in `invocations`, together with how it ended.
-/

namespace OmnibaseCore.Pipeline

def canonicalPhaseOrder : List PipelinePhase :=
  [.preflight, .before, .execute, .after, .emit, .finalize]

/-- What the code takes from the interpreter: `ε` are the exceptions, `D` the dictionaries of a
context. -/
structure PipelineInterpreter (ε D : Type) where
  /-- `type(e).__name__` -/
  typeName : ε → String
  /-- `str(e)`, which may raise -/
  str : ε → Except ε String
  /-- `isinstance(e, TimeoutError)` -/
  isTimeoutError : ε → Bool
  /-- `HookTimeoutError(hook_name, timeout_seconds)` -/
  hookTimeoutError : String → ℚ → ε
  /-- `CallableNotFoundError(callable_ref)` -/
  callableNotFoundError : String → ε
  emptyData : D
  /-- `deepcopy(data)`, which may raise -/
  deepcopy : D → Except ε D

section
variable {ε D W : Type}

/-- A callable, awaited with a timeout if the hook has one, as a function of the data of the
context and of the world `W`. A timeout that runs out raises `TimeoutError`. -/
abbrev HookCallable (ε D W : Type) := Option ℚ → D → W → Except ε Unit × D × W

def missingRefs (plan : ModelPipelineExecutionPlan)
    (callableRegistry : String → Option (HookCallable ε D W)) : List String :=
  plan.phases.flatMap fun entry =>
    (entry.2.hooks.map ModelPipelineHook.callableRef).filter fun ref =>
      (callableRegistry ref).isNone

/-- `_validate_callable_refs`: the argument of `CallableNotFoundError`, if it is raised. -/
def validateCallableRefs (plan : ModelPipelineExecutionPlan)
    (callableRegistry : String → Option (HookCallable ε D W)) : Option String :=
  match missingRefs plan callableRegistry with
  | [] => none
  | [ref] => some ref
  | refs => some ("Multiple missing callable_refs: " ++ ", ".intercalate (sortedAsc id refs))

/-- `RunnerPipeline`, whose constructor calls `_validate_callable_refs`. -/
structure RunnerPipeline (ε D W : Type) where
  interp : PipelineInterpreter ε D
  plan : ModelPipelineExecutionPlan
  callableRegistry : String → Option (HookCallable ε D W)
  validated : validateCallableRefs plan callableRegistry = none

/-- The call of a hook, and how it ended. -/
structure Invocation (ε : Type) where
  hook : ModelPipelineHook
  outcome : Except ε Unit

structure RunState (ε D W : Type) where
  context : D
  world : W
  invocations : List (Invocation ε)

variable (runner : RunnerPipeline ε D W)

def executeHook (hook : ModelPipelineHook) (st : RunState ε D W) :
    Except ε Unit × RunState ε D W :=
  match runner.callableRegistry hook.callableRef with
  | none => (.error (runner.interp.callableNotFoundError hook.callableRef), st)
  | some callableFn =>
    let (called, context, world) := callableFn hook.timeoutSeconds st.context st.world
    let outcome :=
      match hook.timeoutSeconds, called with
      | some seconds, .error e =>
        if runner.interp.isTimeoutError e then
          .error (runner.interp.hookTimeoutError hook.hookName seconds)
        else .error e
      | _, _ => called
    (outcome, {
      context := context
      world := world
      invocations := st.invocations ++ [{ hook := hook, outcome := outcome }] })

def phaseLoop (phase : PipelinePhase) (failFast : Bool) :
    List ModelPipelineHook → List ModelHookError → RunState ε D W →
      Except ε (List ModelHookError) × RunState ε D W
  | [], errors, st => (.ok errors, st)
  | hook :: hooks, errors, st =>
    match executeHook runner hook st with
    | (.ok _, st) => phaseLoop phase failFast hooks errors st
    | (.error e, st) =>
      if failFast then (.error e, st)
      else
        match runner.interp.str e with
        | .error e' => (.error e', st)
        | .ok message =>
          phaseLoop phase failFast hooks (errors ++ [{
            phase := phase.value
            hookName := hook.hookName
            errorType := runner.interp.typeName e
            errorMessage := message }]) st

def executePhase (phase : PipelinePhase) (st : RunState ε D W) :
    Except ε (List ModelHookError) × RunState ε D W :=
  phaseLoop runner phase (runner.plan.isPhaseFailFast phase) (runner.plan.getPhaseHooks phase) []
    st

/-- The outer `except` of `_execute_finalize_phase`. -/
def frameworkError (frameworkExc : ε) (currentHookName : String)
    (errors : List ModelHookError) : Except ε (List ModelHookError) :=
  match runner.interp.str frameworkExc with
  | .error e => .error e
  | .ok message =>
    .ok (errors ++ [{
      phase := PipelinePhase.finalize.value
      hookName :=
        if currentHookName ≠ "" then "[framework:after:" ++ currentHookName ++ "]"
        else "[framework]"
      errorType := runner.interp.typeName frameworkExc
      errorMessage := "Framework error during finalize phase: " ++ message }])

/-- The loop over the hooks of `finalize`. An exception that has no text leaves the loop. -/
def finalizeLoop :
    List ModelPipelineHook → List ModelHookError → RunState ε D W →
      Except ε (List ModelHookError) × RunState ε D W
  | [], errors, st => (.ok errors, st)
  | hook :: hooks, errors, st =>
    match executeHook runner hook st with
    | (.ok _, st) => finalizeLoop hooks errors st
    | (.error e, st) =>
      match runner.interp.str e with
      | .error e' => (frameworkError runner e' hook.hookName errors, st)
      | .ok message =>
        finalizeLoop hooks (errors ++ [{
          phase := PipelinePhase.finalize.value
          hookName := hook.hookName
          errorType := runner.interp.typeName e
          errorMessage := message }]) st

def executeFinalizePhase (st : RunState ε D W) :
    Except ε (List ModelHookError) × RunState ε D W :=
  finalizeLoop runner (runner.plan.getPhaseHooks .finalize) [] st

/-- The loop over the phases: the errors, and `exception_to_raise`. -/
def phasesLoop :
    List PipelinePhase → List ModelHookError → RunState ε D W →
      List ModelHookError × Option ε × RunState ε D W
  | [], errors, st => (errors, none, st)
  | phase :: phases, errors, st =>
    match executePhase runner phase st with
    | (.ok phaseErrors, st) => phasesLoop phases (errors ++ phaseErrors) st
    | (.error e, st) => (errors, some e, st)

/-- The state before the first phase. -/
def initialState (world : W) : RunState ε D W :=
  { context := runner.interp.emptyData, world := world, invocations := [] }

/-- The `finally` clause of `run`, and what follows it. -/
def finishRun (errors : List ModelHookError) (exceptionToRaise : Option ε)
    (st : RunState ε D W) : Except ε (ModelPipelineResult D) × RunState ε D W :=
  match executeFinalizePhase runner st with
  | (.error e, st) => (.error e, st)
  | (.ok finalizeErrors, st) =>
    match exceptionToRaise with
    | some e => (.error e, st)
    | none =>
      match runner.interp.deepcopy st.context with
      | .error e => (.error e, st)
      | .ok context =>
        (.ok {
          success := (errors ++ finalizeErrors).length = 0
          errors := errors ++ finalizeErrors
          context := context }, st)

def run (world : W) : Except ε (ModelPipelineResult D) × RunState ε D W :=
  let (errors, exceptionToRaise, st) :=
    phasesLoop runner canonicalPhaseOrder.dropLast [] (initialState runner world)
  finishRun runner errors exceptionToRaise st

end

end OmnibaseCore.Pipeline
