import OmnibaseCore.Graph.Dfs
import OmnibaseCore.Graph.Kahn
import OmnibaseCore.Workflow.Model

/-!
# The dependency graph of a workflow

The graph algorithms of the executor (`_get_topological_order`, `_has_dependency_cycles`,
`get_execution_order`) and of `WorkflowValidator` (`topological_sort`, `detect_cycles`).

The sorts follow the edges from a dependency to its dependents, the cycle searches those from
a step to its dependencies. The loops are those of `Graph.Kahn` and `Graph.Dfs`. The sets of
step ids are iterated over in the order `σ`.
-/

namespace OmnibaseCore.Workflow

open FiniteGraph

/-! ## Sorting -/

structure AdjacencyAndInDegree where
  edges : UUID → List UUID
  inDegree : UUID → ℤ

/-- `_build_adjacency_list_and_in_degree`, which `_get_topological_order` repeats. A key of
either dictionary that is not a step id is never looked up. -/
def buildAdjacencyListAndInDegree (steps : List ModelWorkflowStep) : AdjacencyAndInDegree :=
  forEachDependency steps (fun g step depId =>
    { edges := Function.update g.edges depId (g.edges depId ++ [step.stepId])
      inDegree := Function.update g.inDegree step.stepId (g.inDegree step.stepId + 1) })
    { edges := fun _ => [], inDegree := fun _ => 0 }

/-- `step_order_key`: the index of the last step with an id. -/
def stepOrderKey (steps : List ModelWorkflowStep) : UUID → ℕ :=
  steps.zipIdx.foldl (fun key p => Function.update key p.1.stepId p.2) fun _ => 0

/-- The entries of the heap are compared as tuples `(declaration_index, step_id)`. -/
def heapKey (steps : List ModelWorkflowStep) (stepId : UUID) : ℕ ×ₗ UUID :=
  toLex (stepOrderKey steps stepId, stepId)

def getTopologicalOrder (σ : SetOrder UUID) (steps : List ModelWorkflowStep) : List UUID :=
  let g := buildAdjacencyListAndInDegree steps
  kahn (Worklist.heap (heapKey steps)) (σ.iter (stepIds steps)) g.edges g.inDegree

/-- `WorkflowValidator._build_step_id_to_name_map`. -/
def buildStepIdToNameMap (steps : List ModelWorkflowStep) : UUID → String :=
  steps.foldl (fun names step => Function.update names step.stepId step.stepName) fun _ => ""

/-- `WorkflowValidator.topological_sort`. -/
def topologicalSort (σ : SetOrder UUID) (steps : List ModelWorkflowStep) :
    Except PyException (List UUID) :=
  if steps = [] then
    .ok []
  else
    let g := buildAdjacencyListAndInDegree steps
    let result := kahn (Worklist.queue UUID) (σ.iter (stepIds steps)) g.edges g.inDegree
    if result.length ≠ (stepIds steps).card then
      let unsortedIds := stepIds steps \ result.toFinset
      let unsortedNames :=
        ((σ.iter unsortedIds).map (buildStepIdToNameMap steps)).insertionSort (· ≤ ·)
      .error (.modelOnexError {
        errorCode := .orchestratorSemanticCycleDetected
        message := "Workflow contains cycles - cannot perform topological sort. " ++
          "Steps involved in cycles: " ++ ", ".intercalate unsortedNames
        context := [("step_count", .int steps.length), ("sorted_count", .int result.length),
          ("unsorted_step_names", .strs unsortedNames)] })
    else
      .ok result

/-! ## Searching for cycles -/

def buildDependencyEdges (steps : List ModelWorkflowStep) : UUID → List UUID :=
  forEachDependency steps (fun edges step depId =>
    Function.update edges step.stepId (edges step.stepId ++ [depId])) fun _ => []

/-- The error of both searches when they exceed `MAX_DFS_ITERATIONS`. -/
def iterationLimitExceeded (steps : List ModelWorkflowStep) (lastNode : UUID) : PyException :=
  .modelOnexError {
    errorCode := .orchestratorExecIterationLimitExceeded
    message := "Cycle detection exceeded " ++ toString maxDfsIterations ++
      " iterations - possible malicious input or malformed workflow"
    context := [("step_count", .int steps.length), ("max_iterations", .int maxDfsIterations),
      ("last_node", .str lastNode.str)] }

/-- The search of `_has_dependency_cycles` keeps nothing but its sets. -/
def noBookkeeping : Bookkeeping UUID Unit where
  root := id
  enter _ := id
  leave _ := id
  found _ := id

def hasDependencyCycles (σ : SetOrder UUID) (steps : List ModelWorkflowStep) :
    Except PyException Bool :=
  match roots noBookkeeping maxDfsIterations (buildDependencyEdges steps)
      (σ.iter (stepIds steps)) (DfsState.init ()) with
  | .error lastNode => .error (iterationLimitExceeded steps lastNode)
  | .ok (found, _) => .ok found

/-- The lists `path` and `cycle_path` of `detect_cycles`. -/
structure CyclePaths where
  path : List UUID
  cyclePath : List UUID

/-- `find_cycle_dfs` appends to its path, pops from it, and cuts the cycle out of it. -/
def cycleBookkeeping : Bookkeeping UUID CyclePaths where
  root c := { c with path := [] }
  enter node c := { c with path := c.path ++ [node] }
  leave _ c := { c with path := c.path.dropLast }
  found neighbor c :=
    { c with cyclePath := c.path.drop (c.path.idxOf neighbor) ++ [neighbor] }

structure ModelCycleDetectionResult where
  hasCycle : Bool
  cycleDescription : String
  cycleStepIds : List UUID

/-- `WorkflowValidator.detect_cycles`. -/
def detectCycles (σ : SetOrder UUID) (steps : List ModelWorkflowStep) :
    Except PyException ModelCycleDetectionResult :=
  if steps = [] then
    .ok { hasCycle := false, cycleDescription := "", cycleStepIds := [] }
  else
    match roots cycleBookkeeping maxDfsIterations (buildDependencyEdges steps)
        (σ.iter (stepIds steps)) (DfsState.init { path := [], cyclePath := [] }) with
    | .error lastNode => .error (iterationLimitExceeded steps lastNode)
    | .ok (true, st) =>
      let cyclePath := st.extra.cyclePath
      let cycleNames := cyclePath.map (buildStepIdToNameMap steps)
      .ok {
        hasCycle := true
        cycleDescription := "Cycle detected: " ++ " -> ".intercalate cycleNames
        cycleStepIds := cyclePath.dropLast }
    | .ok (false, _) => .ok { hasCycle := false, cycleDescription := "", cycleStepIds := [] }

def getExecutionOrder (σ : SetOrder UUID) (steps : List ModelWorkflowStep) :
    Except PyException (List UUID) :=
  match hasDependencyCycles σ steps with
  | .error e => .error e
  | .ok true =>
    .error (.modelOnexError {
      errorCode := .orchestratorSemanticCycleDetected
      message := "Cannot compute execution order: workflow contains cycles"
      context := [] })
  | .ok false => .ok (getTopologicalOrder σ steps)

/-!
## Theorems about the dependency graph

The graphs built from the steps have exactly the dependencies between existing steps as their
edges, repeated ones included, so that the in-degrees count the edges. From this and the
general theorems on Kahn's algorithm and depth-first search follows what each of the four
cycle tests computes, and that they agree (`cycle_tests_agree`).
-/

open FiniteGraph Relation

def HasDirectedCycle (steps : List ModelWorkflowStep) : Prop :=
  ∃ a, TransGen (DependsOn steps) a a

structure IsDependencyCycle (steps : List ModelWorkflowStep) (ids : List UUID) : Prop where
  ne_nil : ids ≠ []
  nodup : ids.Nodup
  chain : ids.IsChain (DependsOn steps)
  closed : ∀ first ∈ ids.head?, ∀ last ∈ ids.getLast?, DependsOn steps last first

/-! ## The graphs -/

theorem buildDependencyEdges_eq (steps : List ModelWorkflowStep) (a : UUID) :
    buildDependencyEdges steps a
      = ((dependencyPairs steps).filter fun p => p.1.stepId = a).map Prod.snd := by
  rw [buildDependencyEdges, forEachDependency_eq,
    foldl_update_append (fun p : ModelWorkflowStep × UUID => p.1.stepId) Prod.snd,
    List.nil_append]

variable {steps : List ModelWorkflowStep} {a b : UUID}

theorem edge_buildDependencyEdges :
    Edge (buildDependencyEdges steps) a b ↔ DependsOn steps a b := by
  rw [Edge, buildDependencyEdges_eq, dependsOn_iff]
  simp only [List.mem_map, List.mem_filter, decide_eq_true_eq, and_assoc]

section
variable (steps : List ModelWorkflowStep)

theorem buildAdjacencyListAndInDegree_eq :
    buildAdjacencyListAndInDegree steps =
      { edges := (dependencyPairs steps).foldl (fun edges p =>
          Function.update edges p.2 (edges p.2 ++ [p.1.stepId])) fun _ => []
        inDegree := (dependencyPairs steps).foldl (fun inDegree p =>
          Function.update inDegree p.1.stepId (inDegree p.1.stepId + 1)) fun _ => 0 } := by
  rw [buildAdjacencyListAndInDegree, forEachDependency_eq]
  generalize dependencyPairs steps = pairs
  generalize (fun _ => [] : UUID → List UUID) = edges
  generalize (fun _ => 0 : UUID → ℤ) = inDegree
  induction pairs generalizing edges inDegree with
  | nil => rfl
  | cons p pairs ih => rw [List.foldl_cons, List.foldl_cons, List.foldl_cons, ih]

theorem edges_eq (a : UUID) :
    (buildAdjacencyListAndInDegree steps).edges a
      = ((dependencyPairs steps).filter fun p => p.2 = a).map fun p => p.1.stepId := by
  rw [buildAdjacencyListAndInDegree_eq]
  dsimp only
  rw [foldl_update_append Prod.snd (fun p : ModelWorkflowStep × UUID => p.1.stepId),
    List.nil_append]

theorem inDegree_eq (b : UUID) :
    (buildAdjacencyListAndInDegree steps).inDegree b
      = ((dependencyPairs steps).countP fun p => p.1.stepId = b : ℕ) := by
  rw [buildAdjacencyListAndInDegree_eq]
  dsimp only
  rw [foldl_update_add_one (fun p : ModelWorkflowStep × UUID => p.1.stepId), zero_add]

end

theorem edge_edges :
    Edge (buildAdjacencyListAndInDegree steps).edges a b ↔ DependsOn steps b a := by
  rw [Edge, edges_eq, dependsOn_iff]
  simp only [List.mem_map, List.mem_filter, decide_eq_true_eq]
  constructor
  · rintro ⟨p, ⟨hp, ha⟩, hb⟩
    exact ⟨p, hp, hb, ha⟩
  · rintro ⟨p, hp, hb, ha⟩
    exact ⟨p, ⟨hp, ha⟩, hb⟩

theorem DependsOn.mem_left (h : DependsOn steps a b) : a ∈ stepIds steps := by
  obtain ⟨_, step, hstep, hid, _⟩ := h
  exact mem_stepIds.mpr ⟨step, hstep, hid⟩

variable (σ : SetOrder UUID)

theorem kahnInput (steps : List ModelWorkflowStep) :
    KahnInput (σ.iter (stepIds steps)) (buildAdjacencyListAndInDegree steps).edges
      (buildAdjacencyListAndInDegree steps).inDegree := by
  apply KahnInput.of_pairs (σ.nodup_iter _) _ _ (edges_eq steps) (inDegree_eq steps)
  · intro p hp
    exact (σ.mem_iter _ _).mpr (mem_dependencyPairs.mp hp).2.2
  · intro p hp
    exact (σ.mem_iter _ _).mpr (mem_stepIds.mpr ⟨p.1, (mem_dependencyPairs.mp hp).1, rfl⟩)

theorem acyclic_edges_iff :
    Acyclic (buildAdjacencyListAndInDegree steps).edges ↔ ¬ HasDirectedCycle steps := by
  have hrel : Edge (buildAdjacencyListAndInDegree steps).edges
      = Function.swap (DependsOn steps) := by
    funext a b
    exact propext edge_edges
  rw [Acyclic, HasDirectedCycle, not_exists, hrel]
  exact forall_congr' fun a => not_congr transGen_swap

theorem acyclic_buildDependencyEdges_iff :
    Acyclic (buildDependencyEdges steps) ↔ ¬ HasDirectedCycle steps := by
  have hrel : Edge (buildDependencyEdges steps) = DependsOn steps := by
    funext a b
    exact propext edge_buildDependencyEdges
  rw [Acyclic, HasDirectedCycle, not_exists, hrel]

/-! ## Sorting -/

theorem kahn_length_eq_iff (wl : Worklist UUID) (σ : SetOrder UUID)
    (steps : List ModelWorkflowStep) :
    (kahn wl (σ.iter (stepIds steps)) (buildAdjacencyListAndInDegree steps).edges
      (buildAdjacencyListAndInDegree steps).inDegree).length = (stepIds steps).card
      ↔ ¬ HasDirectedCycle steps := by
  have hin := kahnInput σ steps
  rw [← σ.length_iter, (kahn_spec hin).length_eq_iff_acyclic hin.nodup hin.source hin.target,
    acyclic_edges_iff]

theorem getTopologicalOrder_length_lt_iff (steps : List ModelWorkflowStep) :
    (getTopologicalOrder σ steps).length < (stepIds steps).card ↔ HasDirectedCycle steps := by
  have hin := kahnInput σ steps
  have hspec : KahnResult _ _ _ (getTopologicalOrder σ steps) := kahn_spec hin
  have hle := (hspec.nodup.subperm hspec.subset).length_le
  rw [σ.length_iter] at hle
  have hiff : (getTopologicalOrder σ steps).length = (stepIds steps).card ↔
      ¬ HasDirectedCycle steps := kahn_length_eq_iff (Worklist.heap (heapKey steps)) σ steps
  rw [← not_iff_not, ← hiff]
  omega

theorem topologicalSort_error_iff (steps : List ModelWorkflowStep) :
    (∃ e, topologicalSort σ steps = .error e) ↔ HasDirectedCycle steps := by
  rw [← not_iff_not, ← kahn_length_eq_iff (Worklist.queue UUID) σ steps, topologicalSort]
  by_cases hnil : steps = []
  · subst hnil
    have hnodes : σ.iter (stepIds []) = [] :=
      List.eq_nil_of_length_eq_zero (by rw [σ.length_iter]; rfl)
    rw [if_pos rfl, hnodes]
    simp [kahn, kahnLoop, stepIds]
  · rw [if_neg hnil]
    dsimp only
    split_ifs with hlen
    · simp only [Except.error.injEq, exists_eq', not_true_eq_false, false_iff]
      exact hlen
    · simpa using not_not.mp hlen

/-! ## Searching for cycles -/

theorem follows_noBookkeeping : Follows noBookkeeping (fun _ _ => True) where
  root _ := trivial
  enter _ _ _ _ := trivial
  leave _ _ _ _ := trivial

theorem follows_cycleBookkeeping :
    Follows cycleBookkeeping (fun path (c : CyclePaths) => c.path = path) where
  root _ := rfl
  enter path node c h := by
    show c.path ++ [node] = path ++ [node]
    rw [h]
  leave path node c h := by
    show c.path.dropLast = path
    rw [h, List.dropLast_concat]

theorem roots_dependencyEdges {σ' : Type} {bk : Bookkeeping UUID σ'} {R : List UUID → σ' → Prop}
    (hR : Follows bk R) (σ : SetOrder UUID) (steps : List ModelWorkflowStep) (extra : σ') :
    match roots bk maxDfsIterations (buildDependencyEdges steps) (σ.iter (stepIds steps))
      (DfsState.init extra) with
    | .error _ => maxDfsIterations < (stepIds steps).card
    | .ok (true, st) => FoundCycle bk (buildDependencyEdges steps) R st.extra
    | .ok (false, _) => ¬ HasDirectedCycle steps := by
  rw [← acyclic_buildDependencyEdges_iff]
  have hspec := roots_init_spec hR maxDfsIterations (buildDependencyEdges steps)
    (fun a b hab => (edge_buildDependencyEdges.mp hab).mem_left)
    (fun a b hab => (edge_buildDependencyEdges.mp hab).1) (σ.mem_iter _) extra
  revert hspec
  cases roots bk maxDfsIterations (buildDependencyEdges steps) (σ.iter (stepIds steps))
    (DfsState.init extra) with
  | error last => exact id
  | ok r =>
    obtain ⟨_ | _, st⟩ := r
    · exact id
    · exact id

theorem hasDirectedCycle_of_foundCycle {σ' : Type} {bk : Bookkeeping UUID σ'}
    {R : List UUID → σ' → Prop} {extra : σ'}
    (h : FoundCycle bk (buildDependencyEdges steps) R extra) : HasDirectedCycle steps := by
  by_contra hacyc
  exact h.not_acyclic (acyclic_buildDependencyEdges_iff.mpr hacyc)

theorem hasDependencyCycles_ok {σ : SetOrder UUID} {b : Bool}
    (h : hasDependencyCycles σ steps = .ok b) : b = true ↔ HasDirectedCycle steps := by
  have hroots := roots_dependencyEdges follows_noBookkeeping σ steps ()
  rw [hasDependencyCycles] at h
  revert h hroots
  cases roots noBookkeeping maxDfsIterations (buildDependencyEdges steps)
    (σ.iter (stepIds steps)) (DfsState.init ()) with
  | error last => intro h; cases h
  | ok r =>
    obtain ⟨_ | _, st⟩ := r
    · rintro ⟨⟩ hacyc
      exact ⟨nofun, fun hcycle => absurd hcycle hacyc⟩
    · rintro ⟨⟩ hfound
      exact ⟨fun _ => hasDirectedCycle_of_foundCycle hfound, fun _ => rfl⟩

theorem hasDependencyCycles_error {σ : SetOrder UUID} {e : PyException}
    (h : hasDependencyCycles σ steps = .error e) : maxDfsIterations < (stepIds steps).card := by
  have hroots := roots_dependencyEdges follows_noBookkeeping σ steps ()
  rw [hasDependencyCycles] at h
  revert h hroots
  cases roots noBookkeeping maxDfsIterations (buildDependencyEdges steps)
    (σ.iter (stepIds steps)) (DfsState.init ()) with
  | error last => exact fun _ hcard => hcard
  | ok r => intro h; cases h

theorem isDependencyCycle_of_foundCycle {extra : CyclePaths}
    (h : FoundCycle cycleBookkeeping (buildDependencyEdges steps)
      (fun path (c : CyclePaths) => c.path = path) extra) :
    IsDependencyCycle steps extra.cyclePath.dropLast := by
  obtain ⟨path, last, back, seen, hchain, hnodup, hlast, hback, hedge, hpath, rfl⟩ := h
  have hcut : (cycleBookkeeping.found back seen).cyclePath.dropLast
      = path.drop (path.idxOf back) := by
    show (seen.path.drop (seen.path.idxOf back) ++ [back]).dropLast = _
    rw [List.dropLast_concat, hpath]
  obtain ⟨before, after, rfl⟩ := List.append_of_mem hback
  have hbefore : back ∉ before := fun hmem =>
    (List.nodup_append.mp hnodup).2.2 back hmem back List.mem_cons_self rfl
  have hdrop : (before ++ back :: after).drop ((before ++ back :: after).idxOf back)
      = back :: after := by
    rw [List.idxOf_append_of_notMem hbefore, List.idxOf_cons_self, Nat.add_zero,
      List.drop_left]
  rw [hcut, hdrop]
  rw [List.getLast?_append_of_ne_nil _ (List.cons_ne_nil back after)] at hlast
  refine ⟨List.cons_ne_nil back after, (List.nodup_append.mp hnodup).2.1, ?_, ?_⟩
  · exact (List.isChain_append.mp hchain).2.1.imp fun a b => edge_buildDependencyEdges.mp
  · intro first hfirst last' hlast'
    obtain rfl : back = first := by simpa using hfirst
    obtain rfl : last = last' := by
      rw [Option.mem_def, hlast] at hlast'
      exact Option.some.inj hlast'
    exact edge_buildDependencyEdges.mp hedge

theorem detectCycles_spec (steps : List ModelWorkflowStep)
    (hcard : (stepIds steps).card ≤ maxDfsIterations) :
    ∃ result, detectCycles σ steps = .ok result ∧
      (result.hasCycle = true ↔ HasDirectedCycle steps) ∧
      (result.hasCycle = true → IsDependencyCycle steps result.cycleStepIds) := by
  rw [detectCycles]
  by_cases hnil : steps = []
  · subst hnil
    refine ⟨_, if_pos rfl, ⟨nofun, ?_⟩, nofun⟩
    rintro ⟨a, hcycle⟩
    obtain ⟨b, hab, _⟩ := TransGen.head'_iff.mp hcycle
    exact absurd hab.mem_left (Finset.notMem_empty a)
  · rw [if_neg hnil]
    have hroots := roots_dependencyEdges follows_cycleBookkeeping σ steps
      { path := [], cyclePath := [] }
    revert hroots
    cases roots cycleBookkeeping maxDfsIterations (buildDependencyEdges steps)
      (σ.iter (stepIds steps)) (DfsState.init { path := [], cyclePath := [] }) with
    | error last => exact fun hlt => absurd hlt (not_lt.mpr hcard)
    | ok r =>
      obtain ⟨_ | _, st⟩ := r
      · exact fun hacyc => ⟨_, rfl, ⟨nofun, fun hcycle => absurd hcycle hacyc⟩, nofun⟩
      · exact fun hfound => ⟨_, rfl, ⟨fun _ => hasDirectedCycle_of_foundCycle hfound, fun _ => rfl⟩,
          fun _ => isDependencyCycle_of_foundCycle hfound⟩

/-! ## The four tests -/

/-- All cycle tests agree with each other and with the graph, in whatever order each of them
iterates over its sets, and the cycle that `detect_cycles` reports is one. -/
theorem cycle_tests_agree (σ₁ σ₂ σ₃ σ₄ : SetOrder UUID) (steps : List ModelWorkflowStep)
    (hcard : (stepIds steps).card ≤ maxDfsIterations) :
    ∃ cyclic result,
      hasDependencyCycles σ₁ steps = .ok cyclic ∧
      detectCycles σ₂ steps = .ok result ∧
      (cyclic = true ↔ HasDirectedCycle steps) ∧
      (result.hasCycle = true ↔ HasDirectedCycle steps) ∧
      ((∃ e, topologicalSort σ₃ steps = .error e) ↔ HasDirectedCycle steps) ∧
      ((getTopologicalOrder σ₄ steps).length < (stepIds steps).card ↔ HasDirectedCycle steps) ∧
      (result.hasCycle = true → IsDependencyCycle steps result.cycleStepIds) := by
  obtain ⟨result, hresult, hiff, hcycle⟩ := detectCycles_spec σ₂ steps hcard
  have htopo := topologicalSort_error_iff σ₃ steps
  have hlength := getTopologicalOrder_length_lt_iff σ₄ steps
  cases hfirst : hasDependencyCycles σ₁ steps with
  | error e => exact absurd (hasDependencyCycles_error hfirst) (not_lt.mpr hcard)
  | ok cyclic =>
    exact ⟨cyclic, result, rfl, hresult, hasDependencyCycles_ok hfirst, hiff, htopo, hlength,
      hcycle⟩

/-- Two steps that depend on each other; the second also on itself and on no existing step. -/
def mutualSteps : List ModelWorkflowStep :=
  [{ ModelWorkflowStep.default ⟨0⟩ ⟨1⟩ "first" .compute with dependsOn := [⟨2⟩] },
   { ModelWorkflowStep.default ⟨0⟩ ⟨2⟩ "second" .effect with dependsOn := [⟨1⟩, ⟨2⟩, ⟨7⟩] }]

theorem cycle_tests_agree_mutualSteps :
    (stepIds mutualSteps).card ≤ maxDfsIterations ∧ ∃ cyclic result,
      hasDependencyCycles (.ascending UUID) mutualSteps = .ok cyclic ∧
      detectCycles (.ascending UUID) mutualSteps = .ok result ∧
      (cyclic = true ↔ HasDirectedCycle mutualSteps) ∧
      (result.hasCycle = true ↔ HasDirectedCycle mutualSteps) ∧
      ((∃ e, topologicalSort (.ascending UUID) mutualSteps = .error e) ↔
        HasDirectedCycle mutualSteps) ∧
      ((getTopologicalOrder (.ascending UUID) mutualSteps).length < (stepIds mutualSteps).card ↔
        HasDirectedCycle mutualSteps) ∧
      (result.hasCycle = true → IsDependencyCycle mutualSteps result.cycleStepIds) := by
  have hcard : (stepIds mutualSteps).card ≤ maxDfsIterations := by decide
  exact ⟨hcard, cycle_tests_agree _ _ _ _ mutualSteps hcard⟩

end OmnibaseCore.Workflow
