import OmnibaseCore.Workflow.WaveOrder

/-!
# The order of declaration

`get_execution_order` emits at each position the step that is declared first among those that are
ready. An id that is declared more than once counts with its last declaration, for
`step_order_key` is a dictionary that later steps overwrite. Its cycle search may visit
`MAX_DFS_ITERATIONS` steps and no more, so the order is that of the acyclic lists with at most so
many ids (`getExecutionOrder_law`).
-/

namespace OmnibaseCore.Workflow

open FiniteGraph

/-- The last step with the id is declared at the index `i`. -/
def LastDeclaredAt (steps : List ModelWorkflowStep) (id : UUID) (i : ℕ) : Prop :=
  ∃ before step after, steps = before ++ step :: after ∧ before.length = i ∧
    step.stepId = id ∧ ∀ s ∈ after, s.stepId ≠ id

/-- The id of a step that has not been emitted although its existing dependencies have. -/
structure Ready (steps : List ModelWorkflowStep) (emitted : List UUID) (id : UUID) : Prop where
  declared : ∃ s ∈ steps, s.stepId = id
  fresh : id ∉ emitted
  dependencies : ∀ depId, DependsOn steps id depId → depId ∈ emitted

/-- Each id once, after its dependencies, and always the one declared first among those that are
ready. -/
structure DeclarationLeast (steps : List ModelWorkflowStep) (order : List UUID) : Prop where
  nodup : order.Nodup
  mem_iff : ∀ id, id ∈ order ↔ ∃ s ∈ steps, s.stepId = id
  ready : ∀ emitted id rest, order = emitted ++ id :: rest → Ready steps emitted id
  least : ∀ emitted id rest, order = emitted ++ id :: rest → ∀ other, Ready steps emitted other →
    ∀ i j, LastDeclaredAt steps id i → LastDeclaredAt steps other j → i ≤ j

section
variable {steps : List ModelWorkflowStep}

/-! ## Declaration indices -/

variable {id : UUID}

theorem LastDeclaredAt.stepOrderKey_eq {i : ℕ} (h : LastDeclaredAt steps id i) :
    stepOrderKey steps id = i := by
  rcases h with ⟨before, step, after, rfl, rfl, rfl, hafter⟩
  unfold stepOrderKey
  rw [List.zipIdx_append, List.zipIdx_cons, List.foldl_append, List.foldl_cons, Nat.zero_add]
  have hlater : step.stepId ∉
      (after.zipIdx (before.length + 1)).map fun p : ModelWorkflowStep × ℕ => p.1.stepId := by
    intro hmem
    rcases List.mem_map.mp hmem with ⟨p, hp, heq⟩
    exact hafter p.1 (List.fst_mem_of_mem_zipIdx hp) heq
  rw [foldl_update_of_notMem (fun p : ModelWorkflowStep × ℕ => p.1.stepId) Prod.snd _ _ hlater]
  exact Function.update_self _ _ _

theorem exists_lastDeclaredAt (h : ∃ s ∈ steps, s.stepId = id) :
    ∃ i, LastDeclaredAt steps id i := by
  rcases h with ⟨s, hs, heq⟩
  induction steps using List.reverseRecOn with
  | nil => cases hs
  | append_singleton steps last ih =>
    by_cases hlast : last.stepId = id
    · exact ⟨steps.length, steps, last, [], rfl, rfl, hlast, by simp⟩
    · have hmem : s ∈ steps := by
        rcases List.mem_append.mp hs with hs | hs
        · exact hs
        · rw [List.mem_singleton] at hs
          subst hs
          exact absurd heq hlast
      rcases ih hmem with ⟨i, before, step, after, rfl, hi, hid, hafter⟩
      refine ⟨i, before, step, after ++ [last], by simp, hi, hid, fun t ht => ?_⟩
      rcases List.mem_append.mp ht with ht | ht
      · exact hafter t ht
      · rw [List.mem_singleton] at ht
        rwa [ht]

theorem LastDeclaredAt.id_eq {id id' : UUID} {i : ℕ} (h : LastDeclaredAt steps id i)
    (h' : LastDeclaredAt steps id' i) : id = id' := by
  rcases h with ⟨before, step, after, rfl, rfl, rfl, _⟩
  rcases h' with ⟨before', step', after', heq, hlength, rfl, _⟩
  have htails := (List.append_inj heq hlength.symm).2
  rw [List.cons.injEq] at htails
  rw [htails.1]

/-! ## One order -/

theorem ready_iff_available {σ : SetOrder UUID} {emitted : List UUID} :
    Ready steps emitted id ↔ Available (σ.iter (stepIds steps))
      (buildAdjacencyListAndInDegree steps).edges emitted id := by
  have hmem : id ∈ σ.iter (stepIds steps) ↔ ∃ s ∈ steps, s.stepId = id :=
    (σ.mem_iter _ id).trans mem_stepIds
  unfold Available
  rw [hmem]
  constructor
  · intro h
    exact ⟨h.declared, h.fresh, fun depId hedge => h.dependencies depId (edge_edges.mp hedge)⟩
  · intro h
    exact ⟨h.1, h.2.1, fun depId hdep => h.2.2 depId (edge_edges.mpr hdep)⟩

theorem declarationLeast_getTopologicalOrder (σ : SetOrder UUID) (h : ¬ HasDirectedCycle steps) :
    DeclarationLeast steps (getTopologicalOrder σ steps) where
  nodup := (getTopologicalOrder_spec σ steps).nodup
  mem_iff id := (mem_getTopologicalOrder σ h).trans mem_stepIds
  ready emitted id rest heq := by
    apply (ready_iff_available (σ := σ)).mpr
    exact (getTopologicalOrder_spec σ steps).available heq
  least emitted id rest heq other hother i j hi hj := by
    have hgreedy := (greedy_getTopologicalOrder σ steps emitted id rest heq).2
    have hle := hgreedy other (ready_iff_available.mp hother)
    rwa [hi.stepOrderKey_eq, hj.stepOrderKey_eq] at hle

theorem DeclarationLeast.rest_eq {order order' : List UUID} (h : DeclarationLeast steps order)
    (h' : DeclarationLeast steps order') (rest : List UUID) :
    ∀ emitted rest', order = emitted ++ rest → order' = emitted ++ rest' → rest = rest' := by
  induction rest with
  | nil =>
    intro emitted rest' heq heq'
    cases rest' with
    | nil => rfl
    | cons id rest' =>
      have hready := h'.ready emitted id rest' heq'
      have hmem := (h.mem_iff id).mpr hready.declared
      rw [heq, List.append_nil] at hmem
      exact absurd hmem hready.fresh
  | cons id rest ih =>
    intro emitted rest' heq heq'
    have hready := h.ready emitted id rest heq
    cases rest' with
    | nil =>
      have hmem := (h'.mem_iff id).mpr hready.declared
      rw [heq', List.append_nil] at hmem
      exact absurd hmem hready.fresh
    | cons id' rest' =>
      have hready' := h'.ready emitted id' rest' heq'
      rcases exists_lastDeclaredAt hready.declared with ⟨i, hi⟩
      rcases exists_lastDeclaredAt hready'.declared with ⟨j, hj⟩
      have hle := h.least emitted id rest heq id' hready' i j hi hj
      have hge := h'.least emitted id' rest' heq' id hready j i hj hi
      have hij : i = j := by omega
      subst hij
      have hid := hi.id_eq hj
      subst hid
      rw [ih (emitted ++ [id]) rest' (by simpa using heq) (by simpa using heq')]

/-- There is one least order at most. -/
theorem DeclarationLeast.unique {order order' : List UUID} (h : DeclarationLeast steps order)
    (h' : DeclarationLeast steps order') : order = order' :=
  h.rest_eq h' order [] order' rfl rfl

/-! ## The cycle search -/

/-- No cycle is found if and only if there is none and the iterations are enough. -/
theorem hasDependencyCycles_eq_false_iff (σ : SetOrder UUID) :
    hasDependencyCycles σ steps = .ok false ↔
      ¬ HasDirectedCycle steps ∧ (stepIds steps).card ≤ maxDfsIterations := by
  constructor
  · intro h
    refine ⟨fun hcycle => ?_, ?_⟩
    · have htrue := (hasDependencyCycles_ok h).mpr hcycle
      cases htrue
    · have hset : (σ.iter (stepIds steps)).toFinset = stepIds steps := by
        ext id
        rw [List.mem_toFinset, σ.mem_iter]
      unfold hasDependencyCycles at h
      revert h
      cases hroots : roots noBookkeeping maxDfsIterations (buildDependencyEdges steps)
          (σ.iter (stepIds steps)) (DfsState.init ()) with
      | error last =>
        intro h
        cases h
      | ok r =>
        intro h
        obtain ⟨found, st⟩ := r
        cases h
        rw [← hset]
        exact roots_init_card_le hroots
  · intro h
    cases hfound : hasDependencyCycles σ steps with
    | error e =>
      have hlt := hasDependencyCycles_error hfound
      omega
    | ok found =>
      cases found with
      | false => rfl
      | true => exact absurd ((hasDependencyCycles_ok hfound).mp rfl) h.1

theorem getExecutionOrder_eq_ok_iff {σ : SetOrder UUID} {order : List UUID} :
    getExecutionOrder σ steps = .ok order ↔
      hasDependencyCycles σ steps = .ok false ∧ getTopologicalOrder σ steps = order := by
  unfold getExecutionOrder
  cases hasDependencyCycles σ steps with
  | error e => simp
  | ok found => cases found <;> simp

end

/-- `get_execution_order` succeeds on the acyclic lists within the bound of the search, with the
order that is least in the order of declaration, and raises on all others. -/
theorem getExecutionOrder_law (σ : SetOrder UUID) (steps : List ModelWorkflowStep) :
    ((∃ order, getExecutionOrder σ steps = .ok order) ↔
      ¬ HasDirectedCycle steps ∧ (stepIds steps).card ≤ maxDfsIterations) ∧
    ∀ order, getExecutionOrder σ steps = .ok order ↔
      ¬ HasDirectedCycle steps ∧ (stepIds steps).card ≤ maxDfsIterations ∧
        DeclarationLeast steps order := by
  constructor
  · simp only [getExecutionOrder_eq_ok_iff, hasDependencyCycles_eq_false_iff, exists_and_left,
      exists_eq', and_true]
  · intro order
    rw [getExecutionOrder_eq_ok_iff, hasDependencyCycles_eq_false_iff, and_assoc]
    constructor
    · intro h
      rcases h with ⟨hacyclic, hcard, rfl⟩
      exact ⟨hacyclic, hcard, declarationLeast_getTopologicalOrder σ hacyclic⟩
    · intro h
      rcases h with ⟨hacyclic, hcard, hleast⟩
      exact ⟨hacyclic, hcard, (declarationLeast_getTopologicalOrder σ hacyclic).unique hleast⟩

/-- One step more than the search may visit, none with a dependency. -/
def manySteps : List ModelWorkflowStep :=
  (List.range (maxDfsIterations + 1)).map fun i => computeStep (Fin.ofNat (2 ^ 128) i) "step" []

def redeclaredSteps : List ModelWorkflowStep :=
  [computeStep 1 "first" [], computeStep 2 "second" [], computeStep 1 "first" []]

theorem not_hasDirectedCycle_of_dependsOn_nil {steps : List ModelWorkflowStep}
    (h : ∀ s ∈ steps, s.dependsOn = []) : ¬ HasDirectedCycle steps := by
  intro hcycle
  rcases hcycle with ⟨id, hcycle⟩
  rcases Relation.TransGen.head'_iff.mp hcycle with ⟨depId, ⟨_, s, hs, _, hdep⟩, _⟩
  rw [h s hs] at hdep
  cases hdep

theorem manySteps_card : (stepIds manySteps).card = maxDfsIterations + 1 := by
  have hmap : manySteps.map ModelWorkflowStep.stepId
      = (List.range (maxDfsIterations + 1)).map fun i => (⟨Fin.ofNat (2 ^ 128) i⟩ : UUID) := by
    unfold manySteps
    rw [List.map_map]
    rfl
  have hnodup : (manySteps.map ModelWorkflowStep.stepId).Nodup := by
    rw [hmap]
    apply List.Nodup.map_on _ List.nodup_range
    intro i hi j hj heq
    rw [List.mem_range] at hi hj
    have hval := congrArg (fun id : UUID => id.int.val) heq
    simp only [Fin.val_ofNat] at hval
    unfold maxDfsIterations at hi hj
    rwa [Nat.mod_eq_of_lt (by omega), Nat.mod_eq_of_lt (by omega)] at hval
  unfold stepIds
  rw [List.toFinset_card_of_nodup hnodup, hmap, List.length_map, List.length_range]

/-- The many independent steps have no order, and the step that is declared first is emitted
last if it is declared again. -/
theorem getExecutionOrder_not_total :
    (¬ HasDirectedCycle manySteps ∧
      ¬ ∃ order, getExecutionOrder (.ascending UUID) manySteps = .ok order) ∧
    ¬ HasDirectedCycle redeclaredSteps ∧
      getExecutionOrder (.ascending UUID) redeclaredSteps = .ok [⟨2⟩, ⟨1⟩] := by
  have hmany : ¬ HasDirectedCycle manySteps := by
    apply not_hasDirectedCycle_of_dependsOn_nil
    intro s hs
    rcases List.mem_map.mp hs with ⟨i, _, rfl⟩
    rfl
  refine ⟨⟨hmany, ?_⟩, ?_, by decide +kernel⟩
  · simp only [getExecutionOrder_eq_ok_iff, hasDependencyCycles_eq_false_iff, exists_and_left,
      exists_eq', and_true, manySteps_card]
    omega
  · apply not_hasDirectedCycle_of_dependsOn_nil
    decide

end OmnibaseCore.Workflow
