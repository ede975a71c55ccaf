import OmnibaseCore.Python.Basic
import OmnibaseCore.Python.Text

/-!
# Contracts and execution plans

The data of the execution resolver: the ordering constraints of handler contracts, execution
profiles, and the plan that a resolution returns. Time stamps are left out.
-/

namespace OmnibaseCore.Resolution

/-! ## Constraints -/

/-- `ref.split(":", 1)`, if there are two parts. -/
def splitRef (ref : String) : Option (String × String) :=
  match ref.toList.dropWhile (· ≠ ':') with
  | [] => none
  | _ :: value =>
    some (String.ofList (ref.toList.takeWhile (· ≠ ':')), String.ofList value)

/-- `validate_dependency_refs`, for one reference. -/
def validDependencyRef (ref : String) : Bool :=
  strip ref ≠ "" &&
    ["capability:", "handler:", "tag:"].any (fun p => p.toList.isPrefixOf ref.toList) &&
    match splitRef ref with
    | some (_, value) => strip value ≠ ""
    | none => false

structure ModelExecutionConstraints where
  requiresBefore : List String := []
  requiresAfter : List String := []
  mustRun : Bool := false
  valid : (requiresBefore ++ requiresAfter).all validDependencyRef = true := by decide

/-- The length of `handler_id` and `validate_handler_id_format`. Every character beyond ASCII is
taken for a letter here. -/
def validHandlerId (v : String) : Bool :=
  1 ≤ v.length && v.length ≤ 256 && 2 ≤ (splitAt '.' v).length &&
    (splitAt '.' v).all fun segment =>
      match segment.toList with
      | [] => false
      | c :: _ => c.isAlpha || 0x80 ≤ c.toNat || c = '_'

/-- `ModelHandlerContract`: the fields that the resolver reads. -/
structure ModelHandlerContract where
  handlerId : String
  priority : ℤ := 0
  tags : List String := []
  capabilityOutputs : List String := []
  executionConstraints : Option ModelExecutionConstraints := none
  handlerId_valid : validHandlerId handlerId = true := by decide

/-! ## Profiles -/

/-- A criterion of `tie_breakers`. -/
inductive TieBreaker
  | priority
  | alphabetical
deriving DecidableEq

structure ModelExecutionOrderingPolicy where
  tieBreakers : List TieBreaker := [.priority, .alphabetical]
  deterministicSeed : Bool := true
  strictMode : Bool := false

def defaultExecutionPhases : List String :=
  ["preflight", "before", "execute", "after", "emit", "finalize"]

/-- `ModelExecutionProfile`, with what `validate_profile` ensures for the phases. -/
structure ModelExecutionProfile where
  phases : List String := defaultExecutionPhases
  orderingPolicy : ModelExecutionOrderingPolicy := {}
  phases_ne_nil : phases ≠ [] := by decide
  phases_nodup : phases.Nodup := by decide
  phases_ne_empty : "" ∉ phases := by decide

/-! ## Plans -/

/-- The values of `conflict_type` that the resolver uses. -/
inductive ConflictType
  | cycle
  | missingDependency

inductive Severity
  | error
  | warning
deriving DecidableEq

structure ModelExecutionConflict where
  conflictType : ConflictType
  severity : Severity
  message : String
  handlerIds : List String := []
  constraintRefs : List String := []
  cyclePath : Option (List String) := none
  suggestedResolution : Option String := none

def ModelExecutionConflict.isBlocking (c : ModelExecutionConflict) : Bool := c.severity = .error

inductive EnumHandlerExecutionPhase
  | preflight
  | before
  | execute
  | after
  | emit
  | finalize

structure ModelPhaseStep where
  phase : EnumHandlerExecutionPhase
  handlerIds : List String := []
  orderingRationale : Option String := none

structure ModelTieBreakerDecision where
  phase : String
  handlerIds : List String
  tieBreakerUsed : TieBreaker
  winningHandler : String
  reason : Option String
deriving DecidableEq

structure ModelResolutionMetadata where
  tieBreakerOrder : List TieBreaker
  tieBreakerDecisions : List ModelTieBreakerDecision
  deterministic : Bool
  totalHandlersResolved : ℕ
  totalConstraintsEvaluated : ℕ
  phasesWithHandlers : ℕ
  tieBreakerStatistics : List (TieBreaker × ℕ)

structure ModelExecutionPlan where
  phases : List ModelPhaseStep
  resolutionMetadata : ModelResolutionMetadata
  conflicts : List ModelExecutionConflict
  isValid : Bool

def ModelExecutionPlan.getAllHandlerIds (plan : ModelExecutionPlan) : List String :=
  plan.phases.flatMap (·.handlerIds)

end OmnibaseCore.Resolution
