import OmnibaseCore.Graph.Kahn
import OmnibaseCore.Python.Basic

/-!
# Hooks and execution plans

The data of the pipeline: hooks, the registry that collects them, the plan that a builder makes
of a registry, and the result of a run.
-/

namespace OmnibaseCore.Pipeline

inductive PipelinePhase
  | preflight
  | before
  | execute
  | after
  | emit
  | finalize
deriving DecidableEq

def PipelinePhase.value : PipelinePhase → String
  | .preflight => "preflight"
  | .before => "before"
  | .execute => "execute"
  | .after => "after"
  | .emit => "emit"
  | .finalize => "finalize"

inductive EnumHandlerTypeCategory
  | compute
  | effect
  | nondeterministicCompute
deriving DecidableEq

def EnumHandlerTypeCategory.value : EnumHandlerTypeCategory → String
  | .compute => "compute"
  | .effect => "effect"
  | .nondeterministicCompute => "nondeterministic_compute"

theorem no_timeout : ∀ seconds ∈ (none : Option ℚ), 0 < seconds := by simp

structure ModelPipelineHook where
  hookName : String
  phase : PipelinePhase
  handlerTypeCategory : Option EnumHandlerTypeCategory := none
  priority : ℕ := 100
  dependencies : List String := []
  callableRef : String
  timeoutSeconds : Option ℚ := none
  hookName_ne_empty : hookName ≠ "" := by decide
  dependencies_nodup : dependencies.Nodup := by decide
  callableRef_ne_empty : callableRef ≠ "" := by decide
  timeoutSeconds_pos : ∀ seconds ∈ timeoutSeconds, 0 < seconds := by
    first | exact no_timeout | simp

/-! ## The registry -/

/-- `RegistryHook`: the values of `_hooks_by_name`, in the order of registration. -/
structure RegistryHook where
  hooks : List ModelPipelineHook := []
  frozen : Bool := false
  nodup : (hooks.map ModelPipelineHook.hookName).Nodup := by decide

/-! ## Plans -/

structure ModelPhaseExecutionPlan where
  phase : PipelinePhase
  hooks : List ModelPipelineHook
  failFast : Bool := true

structure ModelPipelineExecutionPlan where
  phases : List (PipelinePhase × ModelPhaseExecutionPlan) := []
  contractCategory : Option String := none

def ModelPipelineExecutionPlan.getPhaseHooks (plan : ModelPipelineExecutionPlan)
    (phase : PipelinePhase) : List ModelPipelineHook :=
  match plan.phases.lookup phase with
  | none => []
  | some phasePlan => phasePlan.hooks

def ModelPipelineExecutionPlan.isPhaseFailFast (plan : ModelPipelineExecutionPlan)
    (phase : PipelinePhase) : Bool :=
  match plan.phases.lookup phase with
  | none => phase ∈ [PipelinePhase.preflight, .before, .execute]
  | some phasePlan => phasePlan.failFast

/-! ## Results -/

structure ModelHookError where
  phase : String
  hookName : String
  errorType : String
  errorMessage : String

/-- `ModelPipelineResult`, for a context with data of type `D`. -/
structure ModelPipelineResult (D : Type) where
  success : Bool
  errors : List ModelHookError
  context : D

/-!
## Building execution plans

`BuilderExecutionPlan.build`: the hooks are grouped by phase, the types and dependencies of each
group are checked, and each group is sorted with a heap of pairs of priority and name. The sort
is the algorithm of `Graph.Kahn`.
-/

open FiniteGraph

/-- What `build` raises. -/
inductive BuildError
  | hookTypeMismatch (hookName hookCategory contractCategory : String)
  | unknownDependency (hookName unknownDep : String)
  | dependencyCycle (cycle : List String)
deriving DecidableEq

def BuildError.message : BuildError → String
  | hookTypeMismatch hookName hookCategory contractCategory =>
    "Hook '" ++ hookName ++ "' category '" ++ hookCategory ++
      "' doesn't match contract category '" ++ contractCategory ++ "'"
  | unknownDependency hookName unknownDep =>
    "Hook '" ++ hookName ++ "' references unknown dependency '" ++ unknownDep ++ "'"
  | dependencyCycle cycle => "Dependency cycle detected: " ++ " -> ".intercalate cycle

/-- `ModelValidationWarning`, as `hook_type_mismatch` makes it. -/
structure ModelValidationWarning where
  code : String
  message : String
  context : List (String × String)

/-- `ModelValidationWarning.hook_type_mismatch`. -/
def hookTypeMismatchWarning (hookName hookCategory contractCategory : String) :
    ModelValidationWarning :=
  { code := "HOOK_TYPE_MISMATCH"
    message := (BuildError.hookTypeMismatch hookName hookCategory contractCategory).message
    context := [("hook_name", hookName), ("hook_category", hookCategory),
      ("contract_category", contractCategory)] }

structure BuilderExecutionPlan where
  registry : RegistryHook
  contractCategory : Option EnumHandlerTypeCategory := none
  enforceHookTyping : Bool := true

def failFastPhases : List PipelinePhase := [.preflight, .before, .execute]

def validateHookTyping (builder : BuilderExecutionPlan) :
    List ModelPipelineHook → Except BuildError (List ModelValidationWarning)
  | [] => .ok []
  | hook :: hooks =>
    match builder.contractCategory, hook.handlerTypeCategory with
    | some contract, some category =>
      if category = contract then validateHookTyping builder hooks
      else if builder.enforceHookTyping then
        .error (.hookTypeMismatch hook.hookName category.value contract.value)
      else do
        let warnings ← validateHookTyping builder hooks
        .ok (hookTypeMismatchWarning hook.hookName category.value contract.value :: warnings)
    | _, _ => validateHookTyping builder hooks

def validateDependencies (hooks : List ModelPipelineHook) : Except BuildError Unit :=
  hooks.forM fun hook => hook.dependencies.forM fun depName =>
    if depName ∈ hooks.map ModelPipelineHook.hookName then .ok ()
    else .error (.unknownDependency hook.hookName depName)

/-! ## Sorting -/

/-- The variables `dependents` and `in_degree`. -/
structure HookGraph where
  dependents : String → List String
  inDegree : String → ℤ

def buildHookGraph (hooks : List ModelPipelineHook) : HookGraph :=
  hooks.foldl (fun graph hook => hook.dependencies.foldl (fun graph depName =>
    { dependents :=
        Function.update graph.dependents depName (graph.dependents depName ++ [hook.hookName])
      inDegree :=
        Function.update graph.inDegree hook.hookName (graph.inDegree hook.hookName + 1) })
    graph) { dependents := fun _ => [], inDegree := fun _ => 0 }

/-- `hook_map.get(name)`. -/
def hookOf (hooks : List ModelPipelineHook) (name : String) : Option ModelPipelineHook :=
  hooks.find? fun hook => hook.hookName = name

def heapKey (hooks : List ModelPipelineHook) (name : String) : ℕ ×ₗ String :=
  toLex (((hookOf hooks name).map ModelPipelineHook.priority).getD 0, name)

def topologicalSort (hooks : List ModelPipelineHook) :
    Except BuildError (List ModelPipelineHook) :=
  let names := hooks.map ModelPipelineHook.hookName
  let graph := buildHookGraph hooks
  let heap := Worklist.heap (heapKey hooks)
  let final := kahnLoop heap graph.dependents names.length
    { inDegree := graph.inDegree, work := initialWork heap graph.inDegree names, result := [] }
  let sortedHooks := final.result.filterMap (hookOf hooks)
  if sortedHooks.length ≠ hooks.length then
    .error (.dependencyCycle (names.filter fun name => 0 < final.inDegree name))
  else .ok sortedHooks

/-! ## Plans -/

/-- `hooks_by_phase[hook.phase].append(hook)`. -/
def addToPhase (groups : List (PipelinePhase × List ModelPipelineHook))
    (hook : ModelPipelineHook) : List (PipelinePhase × List ModelPipelineHook) :=
  if hook.phase ∈ groups.map Prod.fst then
    groups.map fun group =>
      if group.1 = hook.phase then (group.1, group.2 ++ [hook]) else group
  else groups ++ [(hook.phase, [hook])]

/-- The dictionary `hooks_by_phase`. -/
def hooksByPhase (hooks : List ModelPipelineHook) :
    List (PipelinePhase × List ModelPipelineHook) :=
  hooks.foldl addToPhase []

def buildPhase (builder : BuilderExecutionPlan)
    (group : PipelinePhase × List ModelPipelineHook) :
    Except BuildError (List ModelValidationWarning × PipelinePhase × ModelPhaseExecutionPlan) := do
  let warnings ← validateHookTyping builder group.2
  validateDependencies group.2
  let sortedHooks ← topologicalSort group.2
  .ok (warnings, group.1,
    { phase := group.1, hooks := sortedHooks, failFast := group.1 ∈ failFastPhases })

def BuilderExecutionPlan.build (builder : BuilderExecutionPlan) :
    Except BuildError (ModelPipelineExecutionPlan × List ModelValidationWarning) := do
  let built ← (hooksByPhase builder.registry.hooks).mapM (buildPhase builder)
  .ok ({ phases := built.map fun b => b.2
         contractCategory := builder.contractCategory.map EnumHandlerTypeCategory.value },
    built.flatMap fun b => b.1)

end OmnibaseCore.Pipeline
