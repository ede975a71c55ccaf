import OmnibaseCore.Graph.Leftover
import OmnibaseCore.Pipeline.Builder

/-!
# Sorting the hooks of a phase
-/

namespace OmnibaseCore.Pipeline

open FiniteGraph Relation

def DependsOn (hooks : List ModelPipelineHook) (name depName : String) : Prop :=
  ∃ hook ∈ hooks, hook.hookName = name ∧ depName ∈ hook.dependencies

def OnCycle (hooks : List ModelPipelineHook) (name : String) : Prop :=
  TransGen (DependsOn hooks) name name

/-- What the sort is given: hooks with different names that depend on each other only. -/
structure PhaseHooks (hooks : List ModelPipelineHook) : Prop where
  nodup : (hooks.map ModelPipelineHook.hookName).Nodup
  closed : ∀ hook ∈ hooks, ∀ depName ∈ hook.dependencies,
    depName ∈ hooks.map ModelPipelineHook.hookName

def Ready (placed : List ModelPipelineHook) (hook : ModelPipelineHook) : Prop :=
  ∀ depName ∈ hook.dependencies, depName ∈ placed.map ModelPipelineHook.hookName

def PriorityLeast (hooks sortedHooks : List ModelPipelineHook) : Prop :=
  ∀ placed hook rest, sortedHooks = placed ++ hook :: rest →
    Ready placed hook ∧ ∀ other ∈ hooks, other ∉ placed → Ready placed other →
      toLex (hook.priority, hook.hookName) ≤ toLex (other.priority, other.hookName)

/-! ## The graph -/

/-- One pair for each time the loop over the dependencies runs its body. -/
def hookPairs (hooks : List ModelPipelineHook) : List (ModelPipelineHook × String) :=
  hooks.flatMap fun hook => hook.dependencies.map fun depName => (hook, depName)

def dependenciesOf (hooks : List ModelPipelineHook) (name : String) : List String :=
  ((hookPairs hooks).filter fun p => p.1.hookName = name).map Prod.snd

section
variable {hooks : List ModelPipelineHook} {a b : String}

theorem mem_hookPairs {p : ModelPipelineHook × String} :
    p ∈ hookPairs hooks ↔ p.1 ∈ hooks ∧ p.2 ∈ p.1.dependencies := by
  unfold hookPairs
  simp only [List.mem_flatMap, List.mem_map, Prod.ext_iff]
  constructor
  · rintro ⟨hook, hhook, depName, hdep, rfl, rfl⟩
    exact ⟨hhook, hdep⟩
  · rintro ⟨hhook, hdep⟩
    exact ⟨p.1, hhook, p.2, hdep, rfl, rfl⟩

theorem edge_dependenciesOf : Edge (dependenciesOf hooks) a b ↔ DependsOn hooks a b := by
  unfold Edge dependenciesOf DependsOn
  simp only [List.mem_map, List.mem_filter, decide_eq_true_eq, mem_hookPairs]
  constructor
  · rintro ⟨p, ⟨⟨hhook, hdep⟩, hname⟩, rfl⟩
    exact ⟨p.1, hhook, hname, hdep⟩
  · rintro ⟨hook, hhook, hname, hdep⟩
    exact ⟨(hook, b), ⟨⟨hhook, hdep⟩, hname⟩, rfl⟩

/-- The graph of the hooks, from the pairs of a hook and a dependency. -/
theorem buildHookGraph_eq (hooks : List ModelPipelineHook) :
    buildHookGraph hooks =
      { dependents := (hookPairs hooks).foldl (fun dependents p =>
          Function.update dependents p.2 (dependents p.2 ++ [p.1.hookName])) fun _ => []
        inDegree := (hookPairs hooks).foldl (fun inDegree p =>
          Function.update inDegree p.1.hookName (inDegree p.1.hookName + 1)) fun _ => 0 } := by
  have hpairs : ∀ graph : HookGraph, hooks.foldl (fun graph hook =>
      hook.dependencies.foldl (fun graph depName =>
        { dependents :=
            Function.update graph.dependents depName (graph.dependents depName ++ [hook.hookName])
          inDegree :=
            Function.update graph.inDegree hook.hookName (graph.inDegree hook.hookName + 1) })
        graph) graph
      = (hookPairs hooks).foldl (fun (graph : HookGraph) p =>
        { dependents :=
            Function.update graph.dependents p.2 (graph.dependents p.2 ++ [p.1.hookName])
          inDegree :=
            Function.update graph.inDegree p.1.hookName (graph.inDegree p.1.hookName + 1) })
        graph := by
    intro graph
    unfold hookPairs
    rw [List.foldl_flatMap]
    simp only [List.foldl_map]
  unfold buildHookGraph
  rw [hpairs]
  generalize (fun _ => [] : String → List String) = dependents
  generalize (fun _ => 0 : String → ℤ) = inDegree
  induction hookPairs hooks generalizing dependents inDegree with
  | nil => rfl
  | cons p pairs ih => rw [List.foldl_cons, List.foldl_cons, List.foldl_cons, ih]

theorem dependents_eq (hooks : List ModelPipelineHook) (a : String) :
    (buildHookGraph hooks).dependents a
      = ((hookPairs hooks).filter fun p => p.2 = a).map fun p => p.1.hookName := by
  rw [buildHookGraph_eq]
  dsimp only
  rw [foldl_update_append Prod.snd (fun p : ModelPipelineHook × String => p.1.hookName),
    List.nil_append]

theorem inDegree_eq (hooks : List ModelPipelineHook) (b : String) :
    (buildHookGraph hooks).inDegree b
      = ((hookPairs hooks).countP fun p => p.1.hookName = b : ℕ) := by
  rw [buildHookGraph_eq]
  dsimp only
  rw [foldl_update_add_one (fun p : ModelPipelineHook × String => p.1.hookName), zero_add]

theorem edge_dependents : Edge (buildHookGraph hooks).dependents a b ↔ DependsOn hooks b a := by
  unfold Edge DependsOn
  rw [dependents_eq]
  simp only [List.mem_map, List.mem_filter, decide_eq_true_eq, mem_hookPairs]
  constructor
  · rintro ⟨p, ⟨⟨hhook, hdep⟩, rfl⟩, hname⟩
    exact ⟨p.1, hhook, hname, hdep⟩
  · rintro ⟨hook, hhook, hname, hdep⟩
    exact ⟨(hook, a), ⟨⟨hhook, hdep⟩, rfl⟩, hname⟩

theorem PhaseHooks.kahnInput (h : PhaseHooks hooks) :
    KahnInput (hooks.map ModelPipelineHook.hookName) (buildHookGraph hooks).dependents
      (buildHookGraph hooks).inDegree := by
  apply KahnInput.of_pairs h.nodup _ _ (dependents_eq hooks) (inDegree_eq hooks)
  · intro p hp
    exact h.closed p.1 (mem_hookPairs.mp hp).1 p.2 (mem_hookPairs.mp hp).2
  · intro p hp
    exact List.mem_map_of_mem (mem_hookPairs.mp hp).1

theorem acyclic_dependents_iff :
    Acyclic (buildHookGraph hooks).dependents ↔ ¬ ∃ name, OnCycle hooks name := by
  have hrel : Edge (buildHookGraph hooks).dependents = Function.swap (DependsOn hooks) := by
    funext a b
    exact propext edge_dependents
  unfold Acyclic OnCycle
  rw [not_exists, hrel]
  exact forall_congr' fun a => not_congr transGen_swap

end

/-! ## The hooks of names -/

section
variable {hooks hooks' : List ModelPipelineHook} {hook : ModelPipelineHook}

theorem hookOf_hookName (hnodup : (hooks.map ModelPipelineHook.hookName).Nodup)
    (hhook : hook ∈ hooks) : hookOf hooks hook.hookName = some hook := by
  unfold hookOf
  cases hfind : hooks.find? fun h => h.hookName = hook.hookName with
  | none =>
    have hnone := List.find?_eq_none.mp hfind hook hhook
    simp at hnone
  | some found =>
    have hname : found.hookName = hook.hookName := by simpa using List.find?_some hfind
    rw [List.inj_on_of_nodup_map hnodup (List.mem_of_find?_eq_some hfind) hhook hname]

theorem heapKey_hookName (hnodup : (hooks.map ModelPipelineHook.hookName).Nodup)
    (hhook : hook ∈ hooks) :
    heapKey hooks hook.hookName = toLex (hook.priority, hook.hookName) := by
  unfold heapKey
  rw [hookOf_hookName hnodup hhook]
  rfl

theorem heapKey_injective {a b : String} (h : heapKey hooks a = heapKey hooks b) : a = b :=
  (Prod.mk.inj (toLex.injective h)).2

theorem map_hookName_filterMap {names : List String}
    (hnames : ∀ name ∈ names, name ∈ hooks.map ModelPipelineHook.hookName) :
    (names.filterMap (hookOf hooks)).map ModelPipelineHook.hookName = names := by
  induction names with
  | nil => rfl
  | cons name names ih =>
    rw [List.forall_mem_cons] at hnames
    obtain ⟨hook, hhook, rfl⟩ := List.mem_map.mp hnames.1
    have hsome : (hookOf hooks hook.hookName).isSome = true := by
      unfold hookOf
      rw [List.find?_isSome]
      exact ⟨hook, hhook, by simp⟩
    obtain ⟨found, hfound⟩ := Option.isSome_iff_exists.mp hsome
    have hname : found.hookName = hook.hookName := by simpa using List.find?_some hfound
    rw [List.filterMap_cons_some hfound, List.map_cons, ih hnames.2, hname]

theorem hookOf_perm (hperm : hooks.Perm hooks')
    (hnodup : (hooks.map ModelPipelineHook.hookName).Nodup) : hookOf hooks = hookOf hooks' := by
  funext name
  have hnodup' := (hperm.map ModelPipelineHook.hookName).nodup_iff.mp hnodup
  by_cases hname : name ∈ hooks.map ModelPipelineHook.hookName
  · obtain ⟨hook, hhook, rfl⟩ := List.mem_map.mp hname
    rw [hookOf_hookName hnodup hhook, hookOf_hookName hnodup' (hperm.mem_iff.mp hhook)]
  · have hnone : ∀ l : List ModelPipelineHook, name ∉ l.map ModelPipelineHook.hookName →
        hookOf l name = none := by
      intro l hl
      refine List.find?_eq_none.mpr fun hook hhook => ?_
      rw [decide_eq_true_eq]
      rintro rfl
      exact hl (List.mem_map_of_mem hhook)
    rw [hnone hooks hname,
      hnone hooks' fun h => hname ((hperm.map ModelPipelineHook.hookName).mem_iff.mpr h)]

theorem dependsOn_perm (hperm : hooks.Perm hooks') {a b : String} :
    DependsOn hooks a b ↔ DependsOn hooks' a b := by
  unfold DependsOn
  simp only [hperm.mem_iff]

theorem PhaseHooks.perm (h : PhaseHooks hooks) (hperm : hooks.Perm hooks') :
    PhaseHooks hooks' where
  nodup := (hperm.map ModelPipelineHook.hookName).nodup_iff.mp h.nodup
  closed hook hhook depName hdep :=
    (hperm.map ModelPipelineHook.hookName).mem_iff.mp
      (h.closed hook (hperm.mem_iff.mpr hhook) depName hdep)

end

/-! ## The sort -/

/-- The variables of the sort when its loop has ended. -/
def finalState (hooks : List ModelPipelineHook) : KahnState (Worklist.heap (heapKey hooks)) :=
  kahnLoop (Worklist.heap (heapKey hooks)) (buildHookGraph hooks).dependents
    (hooks.map ModelPipelineHook.hookName).length
    { inDegree := (buildHookGraph hooks).inDegree
      work := initialWork (Worklist.heap (heapKey hooks)) (buildHookGraph hooks).inDegree
        (hooks.map ModelPipelineHook.hookName)
      result := [] }

section
variable {hooks hooks' : List ModelPipelineHook}

theorem PhaseHooks.finalState_spec (h : PhaseHooks hooks) :
    KahnResult (Worklist.heap (heapKey hooks)) (hooks.map ModelPipelineHook.hookName)
      (buildHookGraph hooks).dependents (finalState hooks).result :=
  kahn_spec h.kahnInput

theorem PhaseHooks.inDegree_pos_iff (h : PhaseHooks hooks) {name : String}
    (hname : name ∈ hooks.map ModelPipelineHook.hookName) :
    0 < (finalState hooks).inDegree name ↔ name ∉ (finalState hooks).result := by
  have hinit : KahnInv (Worklist.heap (heapKey hooks)) _ _ _ := h.kahnInput.init
  obtain ⟨hinv, hempty⟩ := kahnLoop_spec h.kahnInput.source h.kahnInput.target
    (hooks.map ModelPipelineHook.hookName).length _ hinit (by simp)
  have hsettled := hinv.settled name hname
  have hdegree := hinv.degree name hname
  rw [hempty, List.append_nil] at hsettled
  have hnonneg : 0 ≤ (finalState hooks).inDegree name := by
    unfold finalState
    rw [hdegree]
    exact Finset.sum_nonneg fun _ _ => Int.natCast_nonneg _
  have hresult : name ∈ (finalState hooks).result ↔ (finalState hooks).inDegree name = 0 := hsettled
  rw [hresult]
  omega

theorem PhaseHooks.length_filterMap (h : PhaseHooks hooks) :
    ((finalState hooks).result.filterMap (hookOf hooks)).length
      = (finalState hooks).result.length := by
  rw [← List.length_map (f := ModelPipelineHook.hookName),
    map_hookName_filterMap h.finalState_spec.subset]

theorem PhaseHooks.length_eq_iff (h : PhaseHooks hooks) :
    ((finalState hooks).result.filterMap (hookOf hooks)).length = hooks.length ↔
      ¬ ∃ name, OnCycle hooks name := by
  have hlength : hooks.length = (hooks.map ModelPipelineHook.hookName).length :=
    (List.length_map _).symm
  rw [h.length_filterMap, ← acyclic_dependents_iff, hlength,
    h.finalState_spec.length_eq_iff_acyclic h.nodup h.kahnInput.source h.kahnInput.target]

theorem topologicalSort_eq (hooks : List ModelPipelineHook) :
    topologicalSort hooks =
      if ((finalState hooks).result.filterMap (hookOf hooks)).length ≠ hooks.length then
        .error (.dependencyCycle ((hooks.map ModelPipelineHook.hookName).filter fun name =>
          0 < (finalState hooks).inDegree name))
      else .ok ((finalState hooks).result.filterMap (hookOf hooks)) := rfl

/-- The sort fails if and only if there is a cycle. -/
theorem PhaseHooks.topologicalSort_error_iff (h : PhaseHooks hooks) :
    (∃ cycle, topologicalSort hooks = .error (.dependencyCycle cycle)) ↔
      ∃ name, OnCycle hooks name := by
  rw [topologicalSort_eq, ← not_iff_not, ← h.length_eq_iff]
  split_ifs with hlength
  · exact iff_of_false (fun h => h ⟨_, rfl⟩) hlength
  · exact iff_of_true (fun ⟨_, h⟩ => nomatch h) (not_not.mp hlength)

theorem topologicalSort_error {e : BuildError} (h : topologicalSort hooks = .error e) :
    ∃ cycle, e = .dependencyCycle cycle := by
  rw [topologicalSort_eq] at h
  split_ifs at h
  exact ⟨_, (Except.error.inj h).symm⟩

/-- The names that the error lists are those with a cycle behind them. -/
theorem PhaseHooks.mem_cycle_iff (h : PhaseHooks hooks) {cycle : List String}
    (herror : topologicalSort hooks = .error (.dependencyCycle cycle)) {name : String} :
    name ∈ cycle ↔
      name ∈ hooks.map ModelPipelineHook.hookName ∧ LeadsToCycle (dependenciesOf hooks) name := by
  rw [topologicalSort_eq] at herror
  split_ifs at herror
  rw [← BuildError.dependencyCycle.inj (Except.error.inj herror), List.mem_filter,
    decide_eq_true_eq]
  refine and_congr_right fun hname => ?_
  rw [h.inDegree_pos_iff hname]
  refine h.finalState_spec.notMem_iff (fun a b => ?_) h.kahnInput.source h.kahnInput.target hname
  rw [edge_dependenciesOf, edge_dependents]

variable {sortedHooks : List ModelPipelineHook}

theorem PhaseHooks.topologicalSort_ok (h : PhaseHooks hooks)
    (hsorted : topologicalSort hooks = .ok sortedHooks) :
    sortedHooks = (finalState hooks).result.filterMap (hookOf hooks) ∧
      sortedHooks.map ModelPipelineHook.hookName = (finalState hooks).result ∧
      sortedHooks.length = hooks.length := by
  rw [topologicalSort_eq] at hsorted
  split_ifs at hsorted with hlength
  rw [← Except.ok.inj hsorted]
  exact ⟨rfl, map_hookName_filterMap h.finalState_spec.subset, not_not.mp hlength⟩

theorem PhaseHooks.topologicalSort_permutes (h : PhaseHooks hooks)
    (hsorted : topologicalSort hooks = .ok sortedHooks) : sortedHooks.Perm hooks := by
  obtain ⟨heq, hnames, hlength⟩ := h.topologicalSort_ok hsorted
  have hnodup : sortedHooks.Nodup := by
    apply List.Nodup.of_map ModelPipelineHook.hookName
    rw [hnames]
    exact h.finalState_spec.nodup
  have hsubset : sortedHooks ⊆ hooks := by
    intro hook hhook
    rw [heq] at hhook
    obtain ⟨name, -, hname⟩ := List.mem_filterMap.mp hhook
    exact List.mem_of_find?_eq_some hname
  exact (hnodup.subperm hsubset).perm_of_length_le hlength.ge

theorem PhaseHooks.priorityLeast (h : PhaseHooks hooks)
    (hsorted : topologicalSort hooks = .ok sortedHooks) : PriorityLeast hooks sortedHooks := by
  obtain ⟨-, hnames, -⟩ := h.topologicalSort_ok hsorted
  have hperm := h.topologicalSort_permutes hsorted
  intro placed hook rest hsplit
  have hmem : ∀ other ∈ placed ++ hook :: rest, other ∈ hooks := by
    intro other hother
    rwa [← hsplit, hperm.mem_iff] at hother
  have hhook : hook ∈ hooks := hmem hook (by simp)
  rw [hsplit, List.map_append, List.map_cons] at hnames
  obtain ⟨havailable, hleast⟩ := h.finalState_spec.greedy _ _ _ hnames.symm
  refine ⟨fun depName hdep => ?_, fun other hother hplaced hready => ?_⟩
  · exact havailable.2.2 depName (edge_dependents.mpr ⟨hook, hhook, rfl, hdep⟩)
  · rw [← heapKey_hookName h.nodup hhook, ← heapKey_hookName h.nodup hother]
    refine hleast _ ⟨List.mem_map_of_mem hother, fun hname => ?_, fun a ha => ?_⟩
    · obtain ⟨twin, htwin, hsame⟩ := List.mem_map.mp hname
      have htwinMem : twin ∈ hooks := hmem twin (List.mem_append_left _ htwin)
      exact hplaced (List.inj_on_of_nodup_map h.nodup htwinMem hother hsame ▸ htwin)
    · obtain ⟨twin, htwin, hsame, hdep⟩ := edge_dependents.mp ha
      rw [List.inj_on_of_nodup_map h.nodup htwin hother hsame] at hdep
      exact hready a hdep

/-- However the hooks are listed, they are sorted in the same way. -/
theorem PhaseHooks.topologicalSort_perm (h : PhaseHooks hooks) (hperm : hooks.Perm hooks')
    (hsorted : topologicalSort hooks = .ok sortedHooks) :
    topologicalSort hooks' = .ok sortedHooks := by
  have h' := h.perm hperm
  have hhookOf := hookOf_perm hperm h.nodup
  have hkey : heapKey hooks' = heapKey hooks := by
    funext name
    unfold heapKey
    rw [hhookOf]
  cases hsorted' : topologicalSort hooks' with
  | error e =>
    obtain ⟨cycle, rfl⟩ := topologicalSort_error hsorted'
    obtain ⟨name, hcycle⟩ := h'.topologicalSort_error_iff.mp ⟨cycle, hsorted'⟩
    have hrel : DependsOn hooks' = DependsOn hooks := by
      funext a b
      exact propext (dependsOn_perm hperm).symm
    unfold OnCycle at hcycle
    rw [hrel] at hcycle
    obtain ⟨cycle', hcycle'⟩ := h.topologicalSort_error_iff.mpr ⟨name, hcycle⟩
    rw [hsorted] at hcycle'
    exact nomatch hcycle'
  | ok sortedHooks' =>
    obtain ⟨heq, hnames, hlength⟩ := h.topologicalSort_ok hsorted
    obtain ⟨heq', hnames', hlength'⟩ := h'.topologicalSort_ok hsorted'
    have hgreedy := h.finalState_spec.greedy
    have hgreedy' := h'.finalState_spec.greedy
    rw [← hnames] at hgreedy
    rw [← hnames', hkey] at hgreedy'
    have hsame := hgreedy.unique hgreedy'
      (fun a => (hperm.map ModelPipelineHook.hookName).mem_iff)
      (fun a b => by rw [edge_dependents, edge_dependents, dependsOn_perm hperm])
      (fun a _ b _ => heapKey_injective)
      (by rw [List.length_map, List.length_map, hlength, hlength', hperm.length_eq])
    rw [heq, heq', ← hnames, ← hnames', hsame, hhookOf]

end

end OmnibaseCore.Pipeline
