import OmnibaseCore.Validation.ContractGraph

/-!
# Cycles in the execution order

The search for cycles goes on after it has found one, with the vertices of its path still gray.
A handler from which it is started later, and whose trail runs into them, is taken to have
found a cycle on the path, which is empty by then: `list.index` raises.

* `validateGraph_law_iff`: the validation returns, with a cycle reported if and only if there
  is one and every cycle that it prints a closed walk, exactly if the trails of the handlers
  are apart.
-/

namespace OmnibaseCore.Validation

open FiniteGraph Relation Resolution

/-! ## The relation -/

def ModelHandlerContract.requiresBefore (c : ModelHandlerContract) : List String :=
  match c.executionConstraints with
  | none => []
  | some constraints => constraints.requiresBefore

def ModelHandlerContract.requiresAfter (c : ModelHandlerContract) : List String :=
  match c.executionConstraints with
  | none => []
  | some constraints => constraints.requiresAfter

/-- The handler `a` must run after the handler `b`. -/
def MustRunAfter (contracts : List ModelHandlerContract) (a b : String) : Prop :=
  (∃ c ∈ contracts, c.handlerId = a) ∧ (∃ c ∈ contracts, c.handlerId = b) ∧
    ((∃ c ∈ contracts, c.handlerId = a ∧ "handler:" ++ b ∈ c.requiresBefore) ∨
      ∃ c ∈ contracts, c.handlerId = b ∧ "handler:" ++ a ∈ c.requiresAfter)

def ModelValidationResult.cycleErrors (result : ModelValidationResult) :
    List ModelValidationIssue :=
  result.issues.filter fun issue => issue.severity = .error ∧
    issue.code = some EnumContractValidationErrorCode.expandedExecutionGraphCycle.value

/-- The validation returns, it reports a cycle if and only if there is one, and what it prints
as a cycle is a closed walk. -/
def GraphLaw (contracts : List ModelHandlerContract)
    (r : Except PyException ModelValidationResult) : Prop :=
  ∃ result, r = .ok result ∧
    (result.cycleErrors ≠ [] ↔ ∃ a, TransGen (MustRunAfter contracts) a a) ∧
    ∀ issue ∈ result.cycleErrors, ∃ cycle, ClosedWalk (MustRunAfter contracts) cycle ∧
      issue.message = cycleMessage cycle

/-! ## The graph -/

section
variable {contracts : List ModelHandlerContract} {a b : String}

theorem handlerRef_eq_some_iff {dep : String} :
    handlerRef dep = some b ↔ dep = "handler:" ++ b := by
  have hsplit : ∀ value : List Char,
      splitRef (String.ofList ("handler:".toList ++ value))
        = some ("handler", String.ofList value) := by
    intro value
    unfold splitRef
    rw [String.toList_ofList]
    simp
  unfold handlerRef hasPrefix
  constructor
  · intro h
    split_ifs at h with hprefix
    obtain ⟨value, hvalue⟩ := List.isPrefixOf_iff_prefix.mp hprefix
    have hdep : dep = String.ofList ("handler:".toList ++ value) := by
      rw [hvalue, String.ofList_toList]
    rw [hdep, hsplit, Option.map_some, Option.some.injEq] at h
    rw [hdep, ← h, String.ofList_append, String.ofList_toList]
  · intro h
    have hdep : dep = String.ofList ("handler:".toList ++ b.toList) := by
      rw [h, String.ofList_append, String.ofList_toList, String.ofList_toList]
    have hprefix : "handler:".toList.isPrefixOf dep.toList = true := by
      rw [List.isPrefixOf_iff_prefix, hdep]
      simp
    rw [if_pos hprefix, hdep, hsplit, Option.map_some, String.ofList_toList]

theorem mem_handlerMap_iff : a ∈ handlerMap contracts ↔ ∃ c ∈ contracts, c.handlerId = a := by
  rw [handlerMap, List.mem_eraseDups, List.mem_map]

theorem holds_foldl_iff {β γ : Type*} {step : γ → β → γ} {Holds : γ → Prop} {adds : β → Prop}
    (hstep : ∀ g x, Holds (step g x) ↔ Holds g ∨ adds x) {l : List β} {g : γ} :
    Holds (l.foldl step g) ↔ Holds g ∨ ∃ x ∈ l, adds x := by
  induction l generalizing g with
  | nil => simp
  | cons x l ih => rw [List.foldl_cons, ih, hstep, List.exists_mem_cons_iff, or_assoc]

theorem mem_addEdge_iff {graph : String → Finset String} {c d : String} :
    b ∈ addEdge graph c d a ↔ b ∈ graph a ∨ a = c ∧ b = d := by
  unfold addEdge
  by_cases h : a = c
  · rw [h, Function.update_self, Finset.mem_insert, or_comm]
    simp
  · rw [Function.update_of_ne h]
    simp [h]

theorem mem_foldl_addEdge_iff (source target : String → String) (deps : List String)
    (graph : String → Finset String) :
    b ∈ deps.foldl (fun graph dep =>
      match handlerRef dep with
      | none => graph
      | some refId =>
        if refId ∈ handlerMap contracts then addEdge graph (source refId) (target refId)
        else graph) graph a ↔
    b ∈ graph a ∨ ∃ dep ∈ deps, ∃ refId ∈ handlerMap contracts, dep = "handler:" ++ refId ∧
      a = source refId ∧ b = target refId := by
  refine @holds_foldl_iff String (String → Finset String) _ (fun graph => b ∈ graph a) _
    (fun graph dep => ?_) _ _
  simp only [← handlerRef_eq_some_iff]
  cases handlerRef dep with
  | none => simp
  | some refId =>
    dsimp only
    split_ifs with href
    · rw [mem_addEdge_iff]
      simp [href]
    · simp [href]

/-- The graph has the edges of the relation. -/
theorem mem_executionGraph_iff : b ∈ executionGraph contracts a ↔ MustRunAfter contracts a b := by
  have hcontract : ∀ (graph : String → Finset String) (c : ModelHandlerContract),
      b ∈ (match c.executionConstraints with
        | none => graph
        | some constraints =>
          let graph := constraints.requiresBefore.foldl (fun graph dep =>
            match handlerRef dep with
            | none => graph
            | some refId =>
              if refId ∈ handlerMap contracts then addEdge graph c.handlerId refId
              else graph) graph
          constraints.requiresAfter.foldl (fun graph dep =>
            match handlerRef dep with
            | none => graph
            | some refId =>
              if refId ∈ handlerMap contracts then addEdge graph refId c.handlerId
              else graph) graph) a ↔
      b ∈ graph a ∨
        ((b ∈ handlerMap contracts ∧ c.handlerId = a ∧ "handler:" ++ b ∈ c.requiresBefore) ∨
          a ∈ handlerMap contracts ∧ c.handlerId = b ∧ "handler:" ++ a ∈ c.requiresAfter) := by
    intro graph c
    unfold ModelHandlerContract.requiresBefore ModelHandlerContract.requiresAfter
    cases c.executionConstraints with
    | none => simp
    | some constraints =>
      have hbefore := @mem_foldl_addEdge_iff contracts a b (fun _ => c.handlerId) (fun refId => refId)
        constraints.requiresBefore graph
      have hafter := @mem_foldl_addEdge_iff contracts a b (fun refId => refId) (fun _ => c.handlerId)
        constraints.requiresAfter
      dsimp only
      rw [hafter, hbefore, or_assoc]
      grind
  have hloop := @holds_foldl_iff _ (String → Finset String) _ (fun graph => b ∈ graph a) _
    hcontract contracts fun _ => ∅
  unfold executionGraph MustRunAfter
  refine hloop.trans ?_
  rw [← mem_handlerMap_iff, ← mem_handlerMap_iff]
  have ha : ∀ c ∈ contracts, c.handlerId = a → a ∈ handlerMap contracts := fun c hc hid =>
    mem_handlerMap_iff.mpr ⟨c, hc, hid⟩
  have hb : ∀ c ∈ contracts, c.handlerId = b → b ∈ handlerMap contracts := fun c hc hid =>
    mem_handlerMap_iff.mpr ⟨c, hc, hid⟩
  constructor
  · intro h
    rcases h with h | ⟨c, hc, ⟨hmem, hid, hdep⟩ | ⟨hmem, hid, hdep⟩⟩
    · exact absurd h (Finset.notMem_empty b)
    · exact ⟨ha c hc hid, hmem, Or.inl ⟨c, hc, hid, hdep⟩⟩
    · exact ⟨hmem, hb c hc hid, Or.inr ⟨c, hc, hid, hdep⟩⟩
  · intro ⟨hmemA, hmemB, h⟩
    rcases h with ⟨c, hc, hid, hdep⟩ | ⟨c, hc, hid, hdep⟩
    · exact Or.inr ⟨c, hc, Or.inl ⟨hmemB, hid, hdep⟩⟩
    · exact Or.inr ⟨c, hc, Or.inr ⟨hmemA, hid, hdep⟩⟩

theorem edge_neighbors_iff (σ : SetOrder String) :
    Edge (neighbors σ contracts) a b ↔ MustRunAfter contracts a b := by
  unfold Edge neighbors
  rw [σ.mem_iter, mem_executionGraph_iff]

theorem edge_neighbors (σ : SetOrder String) :
    Edge (neighbors σ contracts) = MustRunAfter contracts := by
  funext a b
  exact propext (edge_neighbors_iff σ)

end

/-! ## Errors -/

section
variable {contracts : List ModelHandlerContract} {result : ModelValidationResult}

theorem EnumContractValidationErrorCode.value_injective :
    Function.Injective EnumContractValidationErrorCode.value := by
  intro a b h
  cases a <;> cases b <;> first | rfl | exact absurd h (by decide)

theorem cycleErrors_addIssue_of_ne {issue : ModelValidationIssue}
    {code : EnumContractValidationErrorCode} (hcode : issue.code = some code.value)
    (h : code ≠ .expandedExecutionGraphCycle) :
    (result.addIssue issue).cycleErrors = result.cycleErrors := by
  have hne : issue.code ≠
      some EnumContractValidationErrorCode.expandedExecutionGraphCycle.value := by
    rw [hcode, Ne, Option.some.injEq]
    exact fun hvalue => h (EnumContractValidationErrorCode.value_injective hvalue)
  unfold ModelValidationResult.cycleErrors ModelValidationResult.addIssue
  rw [List.filter_append]
  simp [hne]

theorem cycleErrors_detectOrphanReferences :
    (detectOrphanReferences contracts result).cycleErrors = result.cycleErrors := by
  have hloop : ∀ {β : Type} (step : ModelValidationResult → β → ModelValidationResult),
      (∀ r x, (step r x).cycleErrors = r.cycleErrors) → ∀ (l : List β) (r : ModelValidationResult),
        (l.foldl step r).cycleErrors = r.cycleErrors := by
    intro β step hstep l
    induction l with
    | nil => exact fun _ => rfl
    | cons x l ih => exact fun r => (ih (step r x)).trans (hstep r x)
  refine hloop _ (fun r contract => ?_) contracts result
  cases contract.executionConstraints with
  | none => rfl
  | some constraints =>
    refine hloop _ (fun r dep => ?_) _ r
    cases handlerRef dep with
    | none => rfl
    | some refId =>
      dsimp only
      by_cases href : refId ∈ handlerMap contracts
      · rw [if_neg (not_not.mpr href)]
      · rw [if_pos href]
        exact @cycleErrors_addIssue_of_ne r _ .expandedExecutionGraphOrphan rfl (by decide)

theorem cycleErrors_validateEventConsumers (repr : String → String) :
    (validateEventConsumers repr contracts result).cycleErrors = result.cycleErrors := by
  unfold validateEventConsumers
  dsimp only
  split_ifs
  · rfl
  · rfl
  · exact @cycleErrors_addIssue_of_ne result _ .expandedEventConsumerMissing rfl (by decide)

theorem cycleErrors_reportCycle (cycle : List String) :
    (reportCycle cycle result).cycleErrors = result.cycleErrors ++
      [{ severity := .error
         message := cycleMessage cycle
         code := some EnumContractValidationErrorCode.expandedExecutionGraphCycle.value }] := by
  unfold reportCycle ModelValidationResult.addError ModelValidationResult.addIssue
    ModelValidationResult.cycleErrors
  rw [List.filter_append]
  simp

theorem cycleErrors_foldl_reportCycle (cycles : List (List String)) :
    (cycles.foldl (fun r cycle => reportCycle cycle r) result).cycleErrors
      = result.cycleErrors ++ cycles.map fun cycle =>
        { severity := .error
          message := cycleMessage cycle
          code := some EnumContractValidationErrorCode.expandedExecutionGraphCycle.value } := by
  induction cycles generalizing result with
  | nil => rw [List.foldl_nil, List.map_nil, List.append_nil]
  | cons cycle cycles ih =>
    rw [List.foldl_cons, ih, cycleErrors_reportCycle, List.append_assoc, List.map_cons,
      List.singleton_append]

/-! ## The search -/

/-- The search returns if and only if trails are apart, and reports closed walks. -/
theorem detectCycles_spec (repr : String → String) (σ : SetOrder String) :
    match detectCycles repr σ contracts result with
    | .error _ => ¬ TrailsApart (neighbors σ contracts) (handlerMap contracts)
    | .ok result' => TrailsApart (neighbors σ contracts) (handlerMap contracts) ∧
      ∃ cycles : List (List String),
        (∀ cycle ∈ cycles, ClosedWalk (MustRunAfter contracts) cycle) ∧
        result' = cycles.foldl (fun r cycle => reportCycle cycle r) result ∧
        (cycles ≠ [] ↔ ∃ a, TransGen (MustRunAfter contracts) a a) := by
  have hnodes : ∀ a b, Edge (neighbors σ contracts) a b → b ∈ (handlerMap contracts).toFinset := by
    intro a b h
    rw [edge_neighbors_iff] at h
    exact List.mem_toFinset.mpr (mem_handlerMap_iff.mpr h.2.1)
  have hfuel : (handlerMap contracts).toFinset.card < (handlerMap contracts).length + 1 :=
    Nat.lt_succ_of_le (List.toFinset_card_le _)
  have hspec := colorRoots_spec reportCycle hnodes hfuel
    (fun a ha => List.mem_toFinset.mpr ha) (ColorInv.init result)
  unfold detectCycles
  dsimp only
  unfold TrailsApart
  cases hroots : colorRoots reportCycle (neighbors σ contracts) ((handlerMap contracts).length + 1)
      (handlerMap contracts) _ with
  | error e =>
    rw [hroots] at hspec
    obtain ⟨⟨a, rfl⟩, hnot⟩ := hspec
    exact hnot
  | ok st =>
    rw [hroots] at hspec
    obtain ⟨hapart, cycles, hclosed, hextra, hcycles⟩ := hspec
    rw [edge_neighbors] at hclosed
    refine ⟨hapart, cycles, hclosed, hextra, ?_⟩
    rw [hcycles, ← edge_neighbors σ, ← exists_leadsToCycle_iff]
    constructor
    · intro ⟨a, _, hcycle, _⟩
      exact ⟨a, hcycle⟩
    · intro ⟨a, hcycle⟩
      -- a handler that is on no cycle and before none is not one of those searched from
      have hhandler : a ∈ handlerMap contracts := by
        obtain ⟨b, hab, -⟩ := hcycle.exists_edge
        rw [edge_neighbors_iff] at hab
        exact mem_handlerMap_iff.mpr hab.1
      refine ⟨a, hhandler, hcycle, ?_⟩
      intro ⟨s, hs, _⟩
      cases hs

/-- The validation is right about cycles if and only if the trails of the handlers are apart. -/
theorem validateGraph_law_iff (repr : String → String) (σ : SetOrder String)
    (contracts : List ModelHandlerContract) :
    GraphLaw contracts (validateGraph repr σ contracts) ↔
      TrailsApart (neighbors σ contracts) (handlerMap contracts) := by
  by_cases hempty : contracts = []
  · subst hempty
    have hnone : ∀ a b, ¬ MustRunAfter [] a b := by
      intro a b ⟨⟨c, hc, _⟩, _⟩
      cases hc
    refine iff_of_true ⟨_, rfl, iff_of_false (fun h => h rfl) ?_, fun issue hissue => ?_⟩ ?_
    · intro ⟨a, hcycle⟩
      obtain ⟨b, hab, -⟩ := TransGen.head'_iff.mp hcycle
      exact hnone a b hab
    · cases hissue
    · intro earlier a later h
      simp [handlerMap] at h
  · have hspec := @detectCycles_spec contracts
      (detectOrphanReferences contracts { isValid := true, summary := "Graph validation started" })
      repr σ
    unfold validateGraph
    dsimp only
    rw [if_neg hempty]
    revert hspec
    cases detectCycles repr σ contracts _ with
    | error e =>
      intro hnot
      refine iff_of_false ?_ hnot
      intro ⟨result, hresult, _⟩
      cases hresult
    | ok result₁ =>
      intro ⟨hapart, cycles, hclosed, hresult, hcycles⟩
      refine iff_of_true ?_ hapart
      have herrors : (updateSummary contracts
          (validateEventConsumers repr contracts result₁)).cycleErrors = cycles.map fun cycle =>
          { severity := .error
            message := cycleMessage cycle
            code := some EnumContractValidationErrorCode.expandedExecutionGraphCycle.value } := by
        refine (cycleErrors_validateEventConsumers repr).trans ?_
        rw [hresult, cycleErrors_foldl_reportCycle, cycleErrors_detectOrphanReferences]
        rfl
      refine ⟨_, rfl, ?_, ?_⟩
      · rw [herrors, Ne, List.map_eq_nil_iff]
        exact hcycles
      · rw [herrors]
        intro issue hissue
        obtain ⟨cycle, hcycle, rfl⟩ := List.mem_map.mp hissue
        exact ⟨cycle, hclosed cycle hcycle, rfl⟩

/-- Two handlers that wait for each other, and a third that waits for the first. -/
def waitingOnCycle : List ModelHandlerContract :=
  [{ handlerId := "node.a"
     executionConstraints := some { requiresBefore := ["handler:node.b"] } },
   { handlerId := "node.b"
     executionConstraints := some { requiresBefore := ["handler:node.a"] } },
   { handlerId := "node.c"
     executionConstraints := some { requiresBefore := ["handler:node.a"] } }]

/-- The handler that waits for a cycle found before makes the validation raise. -/
theorem waitingOnCycle_not_graphLaw :
    (waitingOnCycle.map fun c => c.handlerId).Nodup ∧
      ¬ GraphLaw waitingOnCycle (validateGraph id (SetOrder.ascending String) waitingOnCycle) := by
  have hraises : validateGraph id (SetOrder.ascending String) waitingOnCycle
      = .error (.valueError "node.a is not in list") := by decide +kernel
  refine ⟨by decide, ?_⟩
  rw [hraises]
  intro ⟨result, hresult, _⟩
  cases hresult

end

end OmnibaseCore.Validation
