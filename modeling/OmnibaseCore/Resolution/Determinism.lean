import OmnibaseCore.Resolution.ResolverTheorems

/-!
# Which plans depend on the order of a set

`_topological_sort` reads the set of handlers once, for the list of the handlers that are ready
first. The tie-breakers sort that list, but a decision keeps the list from before the sort, and
without tie-breakers it is never sorted. `deterministic_iff` says for which inputs nothing of this
can be seen in the plan.
-/

namespace OmnibaseCore.Resolution

open FiniteGraph Relation

/-- No constraint puts another handler before this one. -/
def Independent (contracts : List ModelHandlerContract) (h : String) : Prop :=
  (∃ c ∈ contracts, c.handlerId = h) ∧ ∀ d, ¬ MustPrecede contracts d h

/-- The order in which the set of handlers is iterated over does not show in the phases, nor in
the decisions of the tie-breakers. -/
def Deterministic (profile : ModelExecutionProfile) (contracts : List ModelHandlerContract)
    (strictMode : Option Bool) : Prop :=
  ∀ σ σ' : SetOrder String,
    (resolve σ profile contracts strictMode).phases
      = (resolve σ' profile contracts strictMode).phases ∧
    (resolve σ profile contracts strictMode).resolutionMetadata.tieBreakerDecisions
      = (resolve σ' profile contracts strictMode).resolutionMetadata.tieBreakerDecisions

/-! ## Tie-breakers -/

section
variable (infos : List HandlerInfo) (policy : ModelExecutionOrderingPolicy)

theorem sortCandidates_eq_of_perm (tieBreaker : TieBreaker) {candidates candidates' : List String}
    (h : candidates.Perm candidates') :
    sortCandidates infos tieBreaker candidates = sortCandidates infos tieBreaker candidates' := by
  cases tieBreaker with
  | priority =>
    apply sortedAsc_eq_of_perm _ _ h
    intro a b hab
    exact (Prod.mk.inj (toLex.injective hab)).2
  | alphabetical => exact sortedAsc_eq_of_perm _ Function.injective_id h

theorem applyTieBreakers_nil (hnone : policy.tieBreakers = []) (phase : String)
    (candidates : List String) :
    applyTieBreakers infos policy phase candidates = (candidates, none) := by
  unfold applyTieBreakers
  rw [hnone]

theorem applyTieBreakers_cons {tieBreaker : TieBreaker} {rest : List TieBreaker}
    (hcons : policy.tieBreakers = tieBreaker :: rest) (phase : String)
    (candidates : List String) :
    (applyTieBreakers infos policy phase candidates).1
        = sortCandidates infos tieBreaker candidates ∧
      ((applyTieBreakers infos policy phase candidates).2 = none ↔
        (sortCandidates infos tieBreaker candidates).headD "" = candidates.headD "") := by
  unfold applyTieBreakers
  rw [hcons]
  dsimp only
  split_ifs with hfirst
  · exact ⟨rfl, iff_of_false nofun hfirst⟩
  · exact ⟨rfl, iff_of_true rfl (not_not.mp hfirst)⟩

theorem sortReady_nil (hnone : policy.tieBreakers = []) (st : ReadyState) :
    sortReady infos policy st = st := by
  unfold sortReady
  split_ifs
  · rw [applyTieBreakers_nil infos policy hnone]
    simp
  · rfl

variable (decisions : List ModelTieBreakerDecision)

theorem sortReady_append (st : ReadyState) :
    sortReady infos policy (st.1, decisions ++ st.2)
      = ((sortReady infos policy st).1, decisions ++ (sortReady infos policy st).2) := by
  unfold sortReady
  dsimp only
  split_ifs
  · rw [List.append_assoc]
  · rfl

/-! ## The loop -/

def addDecisions (decisions : List ModelTieBreakerDecision)
    (st : KahnState (readyList infos policy)) : KahnState (readyList infos policy) :=
  { st with work := (st.work.1, decisions ++ st.work.2) }

variable {infos policy}

theorem relax_addDecisions (ns : List String) (st : KahnState (readyList infos policy)) :
    relax (readyList infos policy) ns (addDecisions infos policy decisions st)
      = addDecisions infos policy decisions (relax (readyList infos policy) ns st) := by
  induction ns generalizing st with
  | nil => rfl
  | cons neighbor ns ih =>
    unfold relax
    dsimp only
    show (if Function.update st.inDegree neighbor (st.inDegree neighbor - 1) neighbor = 0
      then _ else _) = _
    split_ifs
    · rw [← ih]
      rfl
    · rw [← ih]
      rfl

theorem pop_eq (work : ReadyState) :
    (readyList infos policy).pop work =
      match sortReady infos policy work with
      | ([], _) => none
      | (node :: ready, made) => some (node, (ready, made)) := rfl

theorem pop_append (work : ReadyState) :
    (readyList infos policy).pop (work.1, decisions ++ work.2)
      = ((readyList infos policy).pop work).map fun popped =>
          (popped.1, (popped.2.1, decisions ++ popped.2.2)) := by
  rw [pop_eq, pop_eq, sortReady_append]
  cases sortReady infos policy work with
  | mk ready made =>
    cases ready with
    | nil => rfl
    | cons node ready => rfl

theorem kahnLoop_addDecisions (succ : String → List String)
    (decisions : List ModelTieBreakerDecision) (fuel : ℕ)
    (st : KahnState (readyList infos policy)) :
    kahnLoop (readyList infos policy) succ fuel (addDecisions infos policy decisions st)
      = addDecisions infos policy decisions (kahnLoop (readyList infos policy) succ fuel st) := by
  induction fuel generalizing st with
  | zero => rfl
  | succ fuel ih =>
    unfold kahnLoop
    have hpop : (readyList infos policy).pop (addDecisions infos policy decisions st).work
        = ((readyList infos policy).pop st.work).map fun popped =>
            (popped.1, (popped.2.1, decisions ++ popped.2.2)) := pop_append decisions st.work
    rw [hpop]
    cases (readyList infos policy).pop st.work with
    | none => rfl
    | some popped =>
      rw [Option.map_some]
      dsimp only
      rw [← ih, ← relax_addDecisions]
      rfl

theorem relax_decisions (ns : List String) (st : KahnState (readyList infos policy)) :
    (relax (readyList infos policy) ns st).work.2 = st.work.2 := by
  induction ns generalizing st with
  | nil => rfl
  | cons neighbor ns ih =>
    unfold relax
    dsimp only
    split_ifs
    · rw [ih]
      rfl
    · rw [ih]

theorem pop_nil (hnone : policy.tieBreakers = []) (node : String) (ready : List String)
    (made : List ModelTieBreakerDecision) :
    (readyList infos policy).pop (node :: ready, made) = some (node, (ready, made)) := by
  rw [pop_eq, sortReady_nil infos policy hnone]
  rfl

theorem kahnLoop_decisions (hnone : policy.tieBreakers = []) (succ : String → List String)
    (fuel : ℕ) (st : KahnState (readyList infos policy)) :
    (kahnLoop (readyList infos policy) succ fuel st).work.2 = st.work.2 := by
  induction fuel generalizing st with
  | zero => rfl
  | succ fuel ih =>
    unfold kahnLoop
    cases st with
    | mk inDegree work result =>
      rcases work with ⟨_ | ⟨node, ready⟩, made⟩
      · rfl
      · dsimp only
        rw [pop_nil hnone]
        dsimp only
        rw [ih, relax_decisions]

end

/-! ## The sort -/

section
variable (graph : DependencyGraph) (infos : List HandlerInfo)
  (policy : ModelExecutionOrderingPolicy)

def initialInDegree : String → ℤ := fun node =>
  ((graph.edges node).filter (· ∈ graph.nodes)).card

/-- The handlers that are ready before the loop, in the order in which they are found. -/
def initialReady (σ : SetOrder String) : List String :=
  (σ.iter graph.nodes).filter fun node => initialInDegree graph node = 0

def dependents (node : String) : List String :=
  (sortedSet (graph.reverseEdges node)).filter (· ∈ graph.nodes)

def sortFrom (fuel : ℕ) : List String → KahnState (readyList infos policy)
  | [] => { inDegree := initialInDegree graph, work := ([], []), result := [] }
  | node :: ready =>
    kahnLoop (readyList infos policy) (dependents graph) fuel
      (relax (readyList infos policy) (dependents graph node)
        { inDegree := initialInDegree graph, work := (ready, []), result := [node] })

variable {graph infos policy}

theorem initialWork_readyList (inDegree : String → ℤ) (nodes : List String) :
    initialWork (readyList infos policy) inDegree nodes
      = (nodes.filter fun node => inDegree node = 0, []) := by
  have hwork : ∀ (nodes : List String) (work : (readyList infos policy).Carrier),
      nodes.foldl (fun work a => if inDegree a = 0 then (readyList infos policy).push a work
        else work) work = (work.1 ++ nodes.filter (fun node => inDegree node = 0), work.2) := by
    intro nodes
    induction nodes with
    | nil =>
      intro work
      exact congrArg (·, work.2) (List.append_nil work.1).symm
    | cons node nodes ih =>
      intro work
      rw [List.foldl_cons, ih]
      by_cases hnode : inDegree node = 0
      · rw [if_pos hnode, List.filter_cons_of_pos (by simpa using hnode)]
        exact congrArg (·, work.2) (List.append_assoc work.1 [node] _)
      · rw [if_neg hnode, List.filter_cons_of_neg (by simpa using hnode)]
  exact hwork nodes ([], [])

theorem topologicalSort_eq (σ : SetOrder String) :
    topologicalSort σ graph infos policy
      = (let final := kahnLoop (readyList infos policy) (dependents graph) graph.nodes.card
          { inDegree := initialInDegree graph, work := (initialReady graph σ, []), result := [] }
        (final.result, final.work.2)) := by
  unfold topologicalSort
  dsimp only
  rw [initialWork_readyList, σ.length_iter]
  rfl

theorem topologicalSort_eq_of_ready {σ σ' : SetOrder String}
    (h : initialReady graph σ = initialReady graph σ') :
    topologicalSort σ graph infos policy = topologicalSort σ' graph infos policy := by
  rw [topologicalSort_eq, topologicalSort_eq, h]

variable {σ : SetOrder String} {a : String}

theorem mem_initialReady :
    a ∈ initialReady graph σ ↔ a ∈ graph.nodes ∧ initialInDegree graph a = 0 := by
  unfold initialReady
  rw [List.mem_filter, σ.mem_iter, decide_eq_true_eq]

theorem nodup_initialReady : (initialReady graph σ).Nodup :=
  (σ.nodup_iter _).filter _

theorem perm_initialReady {σ σ' : SetOrder String} :
    (initialReady graph σ).Perm (initialReady graph σ') := by
  rw [List.perm_ext_iff_of_nodup nodup_initialReady nodup_initialReady]
  intro a
  rw [mem_initialReady, mem_initialReady]

variable (graph) in
theorem length_initialReady_le (σ : SetOrder String) :
    (initialReady graph σ).length ≤ graph.nodes.card := by
  rw [← σ.length_iter]
  exact List.length_filter_le _ _

theorem head_initialReady_leading (ha : a ∈ graph.nodes) (hzero : initialInDegree graph a = 0) :
    ∃ ready, initialReady graph (SetOrder.leading a) = a :: ready := by
  have hiter : (SetOrder.leading a).iter graph.nodes
      = a :: (SetOrder.ascending String).iter (graph.nodes.erase a) := if_pos ha
  refine ⟨((SetOrder.ascending String).iter (graph.nodes.erase a)).filter
    fun node => initialInDegree graph node = 0, ?_⟩
  unfold initialReady
  rw [hiter, List.filter_cons_of_pos (by simpa using hzero)]

variable (infos) in
theorem head_topologicalSort_nil (hnone : policy.tieBreakers = []) {ready : List String}
    (hready : initialReady graph σ = a :: ready) :
    (topologicalSort σ graph infos policy).1.head? = some a := by
  have hcard := length_initialReady_le graph σ
  rw [hready, List.length_cons] at hcard
  rcases Nat.exists_eq_add_of_lt (Nat.lt_of_lt_of_le (Nat.succ_pos _) hcard) with ⟨fuel, hfuel⟩
  rw [topologicalSort_eq, hready]
  dsimp only
  rw [hfuel, Nat.zero_add, kahnLoop]
  dsimp only
  rw [pop_nil hnone]
  have hprefix := result_prefix_kahnLoop (dependents graph) fuel
    (relax (readyList infos policy) (dependents graph a)
      { inDegree := initialInDegree graph, work := (ready, []), result := [] ++ [a] })
  rw [relax_result] at hprefix
  rcases hprefix with ⟨rest, hrest⟩
  rw [← hrest]
  rfl

theorem decisions_topologicalSort_nil (hnone : policy.tieBreakers = []) (σ : SetOrder String) :
    (topologicalSort σ graph infos policy).2 = [] := by
  rw [topologicalSort_eq]
  exact kahnLoop_decisions hnone _ _ _

theorem topologicalSort_cons {tieBreaker : TieBreaker} {rest : List TieBreaker}
    (hcons : policy.tieBreakers = tieBreaker :: rest) (hready : 1 < (initialReady graph σ).length) :
    topologicalSort σ graph infos policy
      = (let final := sortFrom graph infos policy (graph.nodes.card - 1)
          (sortCandidates infos tieBreaker (initialReady graph σ))
        (final.result,
          (applyTieBreakers infos policy "global" (initialReady graph σ)).2.toList ++
            final.work.2)) := by
  have hcard := length_initialReady_le graph σ
  have hfuel : graph.nodes.card = graph.nodes.card - 1 + 1 := by omega
  have happly := (applyTieBreakers_cons infos policy hcons "global" (initialReady graph σ)).1
  have hsort : sortReady infos policy (initialReady graph σ, [])
      = (sortCandidates infos tieBreaker (initialReady graph σ),
          (applyTieBreakers infos policy "global" (initialReady graph σ)).2.toList) := by
    unfold sortReady
    rw [if_pos hready, ← happly]
    rfl
  have hne : sortCandidates infos tieBreaker (initialReady graph σ) ≠ [] := by
    intro hnil
    have hlength := (perm_sortCandidates infos tieBreaker (initialReady graph σ)).length_eq
    rw [hnil, List.length_nil] at hlength
    omega
  rw [topologicalSort_eq]
  dsimp only
  rw [hfuel, kahnLoop, Nat.add_sub_cancel]
  dsimp only
  cases hsorted : sortCandidates infos tieBreaker (initialReady graph σ) with
  | nil => exact absurd hsorted hne
  | cons node ready =>
    have hpop : (readyList infos policy).pop (initialReady graph σ, [])
        = some (node, (ready,
            (applyTieBreakers infos policy "global" (initialReady graph σ)).2.toList)) := by
      rw [pop_eq, hsort, hsorted]
      rfl
    rw [hpop]
    dsimp only
    have hloop := kahnLoop_addDecisions (dependents graph)
      (applyTieBreakers infos policy "global" (initialReady graph σ)).2.toList
      (graph.nodes.card - 1) (relax (readyList infos policy) (dependents graph node)
        { inDegree := initialInDegree graph, work := (ready, []), result := [node] })
    rw [← relax_addDecisions] at hloop
    unfold addDecisions at hloop
    rw [List.append_nil] at hloop
    exact congrArg (fun final : KahnState (readyList infos policy) =>
      (final.result, final.work.2)) hloop

end

/-! ## The plan -/

theorem phaseStep_of_ne {name : String} (hname : name ≠ "execute")
    (sorted sorted' : List String) : phaseStep sorted name = phaseStep sorted' name := by
  have hphase : phaseNameToEnum name ≠ some .execute :=
    fun h => hname (phaseNameToEnum_eq_execute_iff.mp h)
  unfold phaseStep
  revert hphase
  cases phaseNameToEnum name with
  | none => exact fun _ => rfl
  | some phase =>
    cases phase with
    | execute => exact fun h => absurd rfl h
    | _ => exact fun _ => rfl

theorem assignToPhases_eq_iff {names : List String} (hnodup : names.Nodup)
    {sorted sorted' : List String} :
    assignToPhases sorted names = assignToPhases sorted' names ↔
      ("execute" ∈ names → sorted = sorted') := by
  constructor
  · intro heq hmem
    have hids : (assignToPhases sorted names).flatMap (·.handlerIds)
        = (assignToPhases sorted' names).flatMap (·.handlerIds) := by rw [heq]
    rwa [handlerIds_assignToPhases sorted hnodup, handlerIds_assignToPhases sorted' hnodup,
      if_pos hmem, if_pos hmem] at hids
  · intro h
    unfold assignToPhases
    apply List.filterMap_congr
    intro name hname
    by_cases hexecute : name = "execute"
    · rw [h (hexecute ▸ hname)]
    · exact phaseStep_of_ne hexecute sorted sorted'

section
variable {contracts : List ModelHandlerContract} {graph : DependencyGraph}

theorem GraphSpec.mem_initialReady_iff (hgraph : GraphSpec contracts graph)
    {σ : SetOrder String} {a : String} :
    a ∈ initialReady graph σ ↔ Independent contracts a := by
  rw [mem_initialReady]
  unfold Independent initialInDegree
  rw [hgraph.mem_nodes, Nat.cast_eq_zero, Finset.card_eq_zero, Finset.filter_eq_empty_iff]
  apply and_congr_right
  intro _
  constructor
  · intro h d hd
    exact h ((hgraph.mem_edges d a).mpr hd) ((hgraph.mem_nodes d).mpr hd.mem_left)
  · intro h d hd
    exact absurd ((hgraph.mem_edges d a).mp hd) (h d)

theorem GraphSpec.exists_ready_cons (hgraph : GraphSpec contracts graph) {a : String}
    (ha : Independent contracts a) :
    ∃ ready, initialReady graph (SetOrder.leading a) = a :: ready := by
  have hmem := mem_initialReady.mp (hgraph.mem_initialReady_iff (σ := SetOrder.leading a).mpr ha)
  exact head_initialReady_leading hmem.1 hmem.2

theorem eq_of_perm_of_forall_eq {α : Type*} {l l' : List α} (hnodup : l.Nodup)
    (heq : ∀ a ∈ l, ∀ b ∈ l, a = b) (hperm : l.Perm l') : l = l' := by
  cases l with
  | nil => exact hperm.symm.eq_nil.symm
  | cons a l =>
    cases l with
    | nil => exact (List.perm_singleton.mp hperm.symm).symm
    | cons b l =>
      have hab := heq a (by simp) b (by simp)
      rw [List.nodup_cons] at hnodup
      exact absurd (hab ▸ List.mem_cons_self) hnodup.1

theorem GraphSpec.exists_decisions_ne (hgraph : GraphSpec contracts graph)
    (infos : List HandlerInfo) {policy : ModelExecutionOrderingPolicy} {tieBreaker : TieBreaker}
    {rest : List TieBreaker} (hcons : policy.tieBreakers = tieBreaker :: rest) {a b : String}
    (ha : Independent contracts a) (hb : Independent contracts b) (hab : a ≠ b) :
    ∃ σ σ', (topologicalSort σ graph infos policy).2
      ≠ (topologicalSort σ' graph infos policy).2 := by
  have hlength : ∀ σ, 1 < (initialReady graph σ).length := by
    intro σ
    have hcard : 1 < (initialReady graph σ).toFinset.card := by
      rw [Finset.one_lt_card]
      refine ⟨a, ?_, b, ?_, hab⟩
      · exact List.mem_toFinset.mpr (hgraph.mem_initialReady_iff.mpr ha)
      · exact List.mem_toFinset.mpr (hgraph.mem_initialReady_iff.mpr hb)
    exact hcard.trans_le (List.toFinset_card_le _)
  have hsort : ∀ σ, sortCandidates infos tieBreaker (initialReady graph σ)
      = sortCandidates infos tieBreaker (initialReady graph (SetOrder.leading a)) :=
    fun σ => sortCandidates_eq_of_perm infos tieBreaker perm_initialReady
  have hperm := perm_sortCandidates infos tieBreaker (initialReady graph (SetOrder.leading a))
  cases hsorted : sortCandidates infos tieBreaker (initialReady graph (SetOrder.leading a)) with
  | nil =>
    have hnil := hperm.length_eq
    rw [hsorted, List.length_nil] at hnil
    have := hlength (SetOrder.leading a)
    omega
  | cons first others =>
    rw [hsorted] at hperm
    have hfirst : Independent contracts first :=
      hgraph.mem_initialReady_iff.mp (hperm.mem_iff.mp List.mem_cons_self)
    -- a decision is made unless the handler found first is the first of the sorted ones
    have hdecision : ∀ y, Independent contracts y →
        ((applyTieBreakers infos policy "global" (initialReady graph (SetOrder.leading y))).2
          = none ↔ first = y) := by
      intro y hy
      rcases hgraph.exists_ready_cons hy with ⟨ready, hready⟩
      have happly := (applyTieBreakers_cons infos policy hcons "global"
        (initialReady graph (SetOrder.leading y))).2
      rw [hsort, hsorted, hready] at happly
      rw [hready]
      exact happly
    have hother : ∃ other, Independent contracts other ∧ first ≠ other := by
      by_cases hfa : first = a
      · exact ⟨b, hb, hfa ▸ hab⟩
      · exact ⟨a, ha, hfa⟩
    rcases hother with ⟨other, hindependent, hne⟩
    refine ⟨SetOrder.leading first, SetOrder.leading other, fun heq => hne ?_⟩
    rw [topologicalSort_cons hcons (hlength _), topologicalSort_cons hcons (hlength _), hsort,
      hsort (SetOrder.leading other)] at heq
    have hdecisions := List.append_cancel_right heq
    rw [(hdecision first hfirst).mpr rfl] at hdecisions
    apply (hdecision other hindependent).mp
    exact Option.toList_eq_nil_iff.mp hdecisions.symm

/-- When order and decisions depend on the order of sets. -/
theorem GraphSpec.topologicalSort_deterministic_iff (hgraph : GraphSpec contracts graph)
    (infos : List HandlerInfo) (policy : ModelExecutionOrderingPolicy) (names : List String) :
    (∀ σ σ' : SetOrder String,
      ("execute" ∈ names →
        (topologicalSort σ graph infos policy).1 = (topologicalSort σ' graph infos policy).1) ∧
      (topologicalSort σ graph infos policy).2 = (topologicalSort σ' graph infos policy).2) ↔
      (∀ a b, Independent contracts a → Independent contracts b → a = b) ∨
        (policy.tieBreakers = [] ∧ "execute" ∉ names) := by
  constructor
  · intro h
    by_contra hcontra
    rw [not_or] at hcontra
    push Not at hcontra
    rcases hcontra with ⟨⟨a, b, ha, hb, hab⟩, hnames⟩
    cases htie : policy.tieBreakers with
    | nil =>
      rcases hgraph.exists_ready_cons ha with ⟨readyA, hreadyA⟩
      rcases hgraph.exists_ready_cons hb with ⟨readyB, hreadyB⟩
      have hsort := (h (SetOrder.leading a) (SetOrder.leading b)).1 (hnames htie)
      have hheadA := head_topologicalSort_nil infos htie hreadyA
      have hheadB := head_topologicalSort_nil infos htie hreadyB
      rw [hsort, hheadB] at hheadA
      exact hab (Option.some.inj hheadA).symm
    | cons tieBreaker rest =>
      rcases hgraph.exists_decisions_ne infos htie ha hb hab with ⟨σ, σ', hne⟩
      exact hne (h σ σ').2
  · intro h σ σ'
    rcases h with hindependent | ⟨htie, hnames⟩
    · -- there is at most one list of ready handlers to start with
      have hready : initialReady graph σ = initialReady graph σ' := by
        apply eq_of_perm_of_forall_eq nodup_initialReady _ perm_initialReady
        intro a ha b hb
        exact hindependent a b (hgraph.mem_initialReady_iff.mp ha)
          (hgraph.mem_initialReady_iff.mp hb)
      rw [topologicalSort_eq_of_ready hready]
      exact ⟨fun _ => rfl, rfl⟩
    · refine ⟨fun hmem => absurd hmem hnames, ?_⟩
      rw [decisions_topologicalSort_nil htie, decisions_topologicalSort_nil htie]

end

section
variable (profile : ModelExecutionProfile) {contracts : List ModelHandlerContract}
  (strictMode : Option Bool)

/-- A plan is the same for all orders of iteration if and only if it is blocked, at most one
handler is independent, or the plan has no place in which the order could be seen. -/
theorem deterministic_iff (hids : (contracts.map ModelHandlerContract.handlerId).Nodup) :
    Deterministic profile contracts strictMode ↔
      Blocked profile contracts strictMode ∨
        (∀ a b, Independent contracts a → Independent contracts b → a = b) ∨
        (profile.orderingPolicy.tieBreakers = [] ∧ "execute" ∉ profile.phases) := by
  by_cases hblocked : Blocked profile contracts strictMode
  · refine iff_of_true (fun σ σ' => ?_) (Or.inl hblocked)
    rw [resolve_of_blocked σ profile strictMode hids hblocked,
      resolve_of_blocked σ' profile strictMode hids hblocked]
    exact ⟨rfl, rfl⟩
  · rw [or_iff_right hblocked]
    by_cases hne : contracts = []
    · subst hne
      refine iff_of_true (fun σ σ' => ⟨rfl, rfl⟩) (Or.inl fun a b ha => ?_)
      rcases ha.1 with ⟨c, hc, -⟩
      exact nomatch hc
    · have hgraph := buildDependencyGraph_spec contracts
        (strictMode.getD profile.orderingPolicy.strictMode)
      rw [← hgraph.topologicalSort_deterministic_iff (contracts.map handlerInfo)
        profile.orderingPolicy profile.phases]
      unfold Deterministic
      apply forall_congr'
      intro σ
      apply forall_congr'
      intro σ'
      rw [resolve_of_not_blocked σ profile strictMode hne hids hblocked,
        resolve_of_not_blocked σ' profile strictMode hne hids hblocked]
      exact and_congr_left' (assignToPhases_eq_iff profile.phases_nodup)

end

/-- Two handlers without constraints. -/
def freeContracts : List ModelHandlerContract :=
  [{ handlerId := "node.load" }, { handlerId := "node.store" }]

theorem deterministic_iff_freeContracts :
    Deterministic {} freeContracts none ↔
      Blocked {} freeContracts none ∨
        (∀ a b, Independent freeContracts a → Independent freeContracts b → a = b) ∨
        (({} : ModelExecutionProfile).orderingPolicy.tieBreakers = [] ∧
          "execute" ∉ ({} : ModelExecutionProfile).phases) :=
  deterministic_iff {} none (by decide)

/-- The decision "node.load before node.store" is noted only when `node.store` is found first. -/
theorem freeContracts_not_deterministic :
    (freeContracts.map ModelHandlerContract.handlerId).Nodup ∧
      ¬ Deterministic {} freeContracts none := by
  refine ⟨by decide, fun h => ?_⟩
  have hdecisions := (h (SetOrder.leading "node.load") (SetOrder.leading "node.store")).2
  revert hdecisions
  decide

end OmnibaseCore.Resolution
