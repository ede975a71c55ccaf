import OmnibaseCore.Fsm.SelectionTheorems
import OmnibaseCore.Graph.Reach

/-!
# Analysing a state machine

`_find_reachable_states` of the executor, and `analyze_fsm` with the functions it calls.
-/

namespace OmnibaseCore.Fsm

open FiniteGraph

/-! ## Reachability -/

def targets (fsm : ModelFSMSubcontract) (current : String) : List String :=
  (fsm.transitions.filter fun t => t.fromState = "*" ∨ t.fromState = current).map
    ModelFSMStateTransition.toState

/-- `_find_reachable_states`. No state is queued twice, which the fuel counts. -/
def findReachableStates (fsm : ModelFSMSubcontract) : Finset String :=
  pushLoop (targets fsm) (fsm.transitions.length + 1) {fsm.initialState} [fsm.initialState]

/-- The adjacency list of the analyser. A transition from a state that is not declared is a
`KeyError`. -/
def adjacency (fsm : ModelFSMSubcontract) : Except PyException (String → List String) :=
  match fsm.transitions.find? fun t => t.fromState ≠ "*" ∧ t.fromState ∉ fsm.stateNames with
  | some t => .error (.other "KeyError" ("'" ++ t.fromState ++ "'"))
  | none =>
    let wildcardTargets := (fsm.transitions.filter fun t => t.fromState = "*").map
      ModelFSMStateTransition.toState
    .ok fun state =>
      if state ∈ fsm.stateNames then
        (fsm.transitions.filter fun t => t.fromState ≠ "*" ∧ t.fromState = state).map
          ModelFSMStateTransition.toState ++ wildcardTargets
      else []

/-- A bound for the number of vertices that a search over the adjacency list queues. -/
def edgeCount (fsm : ModelFSMSubcontract) (succ : String → List String) : ℕ :=
  ∑ state ∈ fsm.stateNames.toFinset, (succ state).length

def findUnreachableStates (fsm : ModelFSMSubcontract) : Except PyException (List String) := do
  let succ ← adjacency fsm
  let reachable := popLoop succ (edgeCount fsm succ + 1) ∅ [fsm.initialState]
  return (fsm.stateNames.toFinset \ reachable).sort (· ≤ ·)

/-! ## Cycles -/

/-- The variables of Tarjan's algorithm. The stack has its top first. -/
structure TarjanState where
  counter : ℕ
  stack : List String
  lowlinks : String → ℕ
  indexMap : String → Option ℕ
  onStack : Finset String
  sccs : List (List String)

/-- A vertex is numbered and put on the stack. -/
def TarjanState.enter (st : TarjanState) (node : String) : TarjanState :=
  { st with
    counter := st.counter + 1
    stack := node :: st.stack
    lowlinks := Function.update st.lowlinks node st.counter
    indexMap := Function.update st.indexMap node (some st.counter)
    onStack := insert node st.onStack }

/-- `lowlinks[node] = min(lowlinks[node], n)`. -/
def TarjanState.lower (st : TarjanState) (node : String) (n : ℕ) : TarjanState :=
  { st with lowlinks := Function.update st.lowlinks node (min (st.lowlinks node) n) }

/-- The end of `strongconnect`: if the vertex is the root of its component, the component is
what lies on the stack down to the vertex. -/
def TarjanState.leave (st : TarjanState) (succ : String → List String) (node : String) :
    TarjanState :=
  if some (st.lowlinks node) = st.indexMap node then
    let scc := st.stack.takeWhile (fun w => w ≠ node) ++ [node]
    { st with
      stack := (st.stack.dropWhile fun w => w ≠ node).tail
      onStack := st.onStack \ scc.toFinset
      sccs := if 1 < scc.length ∨ node ∈ succ node then st.sccs ++ [scc] else st.sccs }
  else st

/-- The nested function `strongconnect`. The fuel bounds the depth of the recursion. -/
def strongconnect (succ : String → List String) : ℕ → String → TarjanState → TarjanState
  | 0, _, st => st
  | fuel + 1, node, st =>
    let st := (succ node).foldl (fun (st : TarjanState) successor =>
      match st.indexMap successor with
      | none =>
        let st := strongconnect succ fuel successor st
        st.lower node (st.lowlinks successor)
      | some index => if successor ∈ st.onStack then st.lower node index else st) (st.enter node)
    st.leave succ node

def canExit (succ : String → List String) (terminalStates : Finset String) :
    ℕ → Finset String → List String → Bool
  | 0, _, _ => false
  | _ + 1, _, [] => false
  | fuel + 1, visited, current :: queue =>
    if current ∈ visited then canExit succ terminalStates fuel visited queue
    else if current ∈ terminalStates then true
    else
      canExit succ terminalStates fuel (insert current visited)
        (queue ++ (succ current).filter fun next => next ∉ insert current visited)

def findCyclesWithoutExit (σ : SetOrder String) (fsm : ModelFSMSubcontract) :
    Except PyException (List (List String)) := do
  let succ ← adjacency fsm
  let names := fsm.stateNames.toFinset
  let terminalStates := fsm.terminalStates.toFinset
  let st := (σ.iter names).foldl (fun (st : TarjanState) state =>
    match st.indexMap state with
    | none => strongconnect succ (names.card + 1) state st
    | some _ => st)
    { counter := 0, stack := [], lowlinks := fun _ => 0, indexMap := fun _ => none, onStack := ∅,
      sccs := [] }
  return (st.sccs.filter fun (scc : List String) =>
    ¬ canExit succ terminalStates (scc.length + edgeCount fsm succ) ∅ scc).map
      fun (scc : List String) => scc.insertionSort (· ≤ ·)

/-! ## Transitions and names -/

structure ModelAmbiguousTransition where
  fromState : String
  trigger : String
  targetStates : Finset String
  priority : ℤ

/-- Among transitions with the same state and trigger, the priorities at which there are
several targets. A dictionary lists its keys in the order in which they were added. -/
def ambiguousAt (fromState trigger : String) (group : List ModelFSMStateTransition) :
    List ModelAmbiguousTransition :=
  (group.map ModelFSMStateTransition.priority).eraseDups.filterMap fun priority =>
    let targetStates := ((group.filter fun t => t.priority = priority).map
      ModelFSMStateTransition.toState).toFinset
    if 2 ≤ targetStates.card then some { fromState, trigger, targetStates, priority } else none

def findAmbiguousTransitions (fsm : ModelFSMSubcontract) : List ModelAmbiguousTransition :=
  let specific := fsm.transitions.filter fun t => t.fromState ≠ "*"
  let wildcard := fsm.transitions.filter fun t => t.fromState = "*"
  ((specific.map fun t => (t.fromState, t.trigger)).eraseDups.flatMap fun key =>
    ambiguousAt key.1 key.2
      (specific.filter fun t => t.fromState = key.1 ∧ t.trigger = key.2)) ++
  (wildcard.map ModelFSMStateTransition.trigger).eraseDups.flatMap fun trigger =>
    ambiguousAt "*" trigger (wildcard.filter fun t => t.trigger = trigger)

def findDeadTransitions (fsm : ModelFSMSubcontract) (unreachableStates : List String) :
    List String :=
  ((fsm.transitions.filter fun t => t.fromState ≠ "*" ∧ t.fromState ∈ unreachableStates).map
    ModelFSMStateTransition.transitionName).insertionSort (· ≤ ·)

def findMissingTransitions (fsm : ModelFSMSubcontract) : List String :=
  let statesWithOutgoing := fsm.transitions.map ModelFSMStateTransition.fromState
  if "*" ∈ statesWithOutgoing then []
  else
    (fsm.stateNames.filter fun state => state ∉ fsm.terminalStates ∧
      state ∉ fsm.errorStates ∧ state ∉ statesWithOutgoing).insertionSort (· ≤ ·)

def findDuplicateStateNames (fsm : ModelFSMSubcontract) : List String :=
  (fsm.stateNames.eraseDups.filter fun name => 1 < fsm.stateNames.count name).insertionSort (· ≤ ·)

/-! ## The analysis -/

structure ModelFSMAnalysisResult where
  unreachableStates : List String
  cyclesWithoutExit : List (List String)
  ambiguousTransitions : List ModelAmbiguousTransition
  deadTransitions : List String
  missingTransitions : List String
  duplicateStateNames : List String
  errors : List String

def issueError (what : String) (names : List String) : List String :=
  if names ≠ [] then
    ["Found " ++ toString names.length ++ " " ++ what ++ ": " ++
      ", ".intercalate (names.insertionSort (· ≤ ·))]
  else []

def analyzeFsm (σ : SetOrder String) (fsm : ModelFSMSubcontract) :
    Except PyException ModelFSMAnalysisResult := do
  let initialStateErrors :=
    if fsm.initialState ∉ fsm.stateNames then
      ["Initial state '" ++ fsm.initialState ++ "' is not defined in states list"]
    else []
  let unreachable ← findUnreachableStates fsm
  let cycles ← findCyclesWithoutExit σ fsm
  let ambiguous := findAmbiguousTransitions fsm
  let dead := findDeadTransitions fsm unreachable
  let missing := findMissingTransitions fsm
  let duplicates := findDuplicateStateNames fsm
  let errors := initialStateErrors ++
    issueError "unreachable state(s)" unreachable ++
    (cycles.map fun cycle => "Found cycle without exit: " ++ " -> ".intercalate cycle ++ " -> " ++
      cycle.headD "") ++
    (ambiguous.map fun amb => "Ambiguous transition (priority " ++ toString amb.priority ++ "): " ++
      amb.fromState ++ " + " ++ amb.trigger ++ " -> \x7b" ++
      ", ".intercalate (amb.targetStates.sort (· ≤ ·)) ++ "\x7d") ++
    issueError "dead transition(s)" dead ++
    issueError "state(s) missing transitions" missing ++
    issueError "duplicate state name(s)" duplicates
  return {
    unreachableStates := unreachable
    cyclesWithoutExit := cycles
    ambiguousTransitions := ambiguous
    deadTransitions := dead
    missingTransitions := missing
    duplicateStateNames := duplicates
    errors }

/-!
## Theorems about the analysis

Both analysers compute the states that the initial state reaches along `targets`, the one
searching the transitions themselves and the other an adjacency list. A run of the machine
follows the same edges, whatever the guards say.
-/

open FiniteGraph Relation

/-! ## Runs -/

inductive Visited (i : Interpreter) (fsm : ModelFSMSubcontract) : String → Prop
  | initial : Visited i fsm fsm.initialState
  | step {state trigger : String} {context : Context} {r : ModelFSMTransitionResult}
    (h : Visited i fsm state) (hr : executeTransition i fsm state trigger context = .ok r) :
    Visited i fsm r.newState

/-- What the analysis promises about runs. -/
structure SoundAnalysis (i : Interpreter) (fsm : ModelFSMSubcontract)
    (result : ModelFSMAnalysisResult) : Prop where
  declared : ∀ state, Visited i fsm state → state ∈ fsm.stateNames
  reachable : ∀ state, Visited i fsm state → state ∈ findReachableStates fsm
  not_unreachable : ∀ state, Visited i fsm state → state ∉ result.unreachableStates
  not_dead : ∀ state trigger context r, Visited i fsm state →
    executeTransition i fsm state trigger context = .ok r → r.success = true →
      ∀ name ∈ result.deadTransitions, r.transitionName ≠ some name
  unreachable_eq : findUnreachableStates fsm
    = .ok ((fsm.stateNames.toFinset \ findReachableStates fsm).sort (· ≤ ·))

section
variable {i : Interpreter} {fsm : ModelFSMSubcontract}

/-! ## The searches -/

theorem mem_targets {a b : String} : b ∈ targets fsm a ↔
    ∃ t ∈ fsm.transitions, (t.fromState = "*" ∨ t.fromState = a) ∧ t.toState = b := by
  unfold targets
  simp only [List.mem_map, List.mem_filter, decide_eq_true_eq, and_assoc]

theorem mem_findReachableStates {s : String} : s ∈ findReachableStates fsm ↔
    ReflTransGen (Edge (targets fsm)) fsm.initialState s := by
  unfold findReachableStates
  have htargets : ∀ a b, b ∈ targets fsm a →
      b ∈ (fsm.transitions.map ModelFSMStateTransition.toState).toFinset := by
    intro a b hb
    rcases mem_targets.mp hb with ⟨t, ht, -, rfl⟩
    exact List.mem_toFinset.mpr (List.mem_map_of_mem ht)
  have hfuel : [fsm.initialState].length
      + ((fsm.transitions.map ModelFSMStateTransition.toState).toFinset
        \ {fsm.initialState}).card ≤ fsm.transitions.length + 1 := by
    have hle := Finset.card_le_card
      (Finset.sdiff_subset (s := (fsm.transitions.map ModelFSMStateTransition.toState).toFinset)
        (t := {fsm.initialState}))
    have hcard := List.toFinset_card_le (fsm.transitions.map ModelFSMStateTransition.toState)
    rw [List.length_map] at hcard
    rw [List.length_singleton]
    omega
  rw [mem_pushLoop_iff htargets (by simp) (by simp) hfuel]
  simp only [Finset.mem_singleton, List.mem_singleton, exists_eq_left, or_iff_right_iff_imp]
  rintro rfl
  exact ReflTransGen.refl

theorem adjacency_ok (h : ValidSubcontract fsm) :
    ∃ succ, adjacency fsm = .ok succ ∧
      ∀ a b, b ∈ succ a ↔ a ∈ fsm.stateNames ∧ b ∈ targets fsm a := by
  unfold adjacency
  have hnone : (fsm.transitions.find? fun t => t.fromState ≠ "*" ∧ t.fromState ∉ fsm.stateNames)
      = none := by
    rw [List.find?_eq_none]
    intro t ht hwrong
    rcases of_decide_eq_true hwrong with ⟨hstar, hundeclared⟩
    exact (h.from_mem t ht).elim hstar hundeclared
  rw [hnone]
  refine ⟨_, rfl, fun a b => ?_⟩
  by_cases ha : a ∈ fsm.stateNames
  · simp only [ha, if_true, true_and, mem_targets, List.mem_append, List.mem_map, List.mem_filter,
      decide_eq_true_eq]
    constructor
    · rintro (⟨t, ⟨ht, -, hfrom⟩, hto⟩ | ⟨t, ⟨ht, hfrom⟩, hto⟩)
      · exact ⟨t, ht, Or.inr hfrom, hto⟩
      · exact ⟨t, ht, Or.inl hfrom, hto⟩
    · rintro ⟨t, ht, hfrom, hto⟩
      by_cases hstar : t.fromState = "*"
      · exact Or.inr ⟨t, ⟨ht, hstar⟩, hto⟩
      · exact Or.inl ⟨t, ⟨ht, hstar, hfrom.resolve_left hstar⟩, hto⟩
  · simp [ha]

theorem declared_of_reach (h : ValidSubcontract fsm) {s : String}
    (hs : ReflTransGen (Edge (targets fsm)) fsm.initialState s) : s ∈ fsm.stateNames := by
  cases hs with
  | refl => exact h.initial_mem
  | tail _ hedge =>
    rcases mem_targets.mp hedge with ⟨t, ht, -, rfl⟩
    exact h.to_mem t ht

theorem findUnreachableStates_eq (h : ValidSubcontract fsm) : findUnreachableStates fsm
    = .ok ((fsm.stateNames.toFinset \ findReachableStates fsm).sort (· ≤ ·)) := by
  rcases adjacency_ok h with ⟨succ, hsucc, hmem⟩
  have hreach : ∀ s, s ∈ popLoop succ (edgeCount fsm succ + 1) ∅ [fsm.initialState] ↔
      s ∈ findReachableStates fsm := by
    intro s
    have hsources : ∀ a b, b ∈ succ a → a ∈ fsm.stateNames.toFinset :=
      fun a b hb => List.mem_toFinset.mpr ((hmem a b).mp hb).1
    have hfuel : [fsm.initialState].length
        + ∑ a ∈ fsm.stateNames.toFinset \ ∅, (succ a).length ≤ edgeCount fsm succ + 1 := by
      rw [Finset.sdiff_empty, List.length_singleton, Nat.add_comm]
      exact Nat.le_refl _
    rw [mem_popLoop_iff hsources (by simp) hfuel, mem_findReachableStates]
    simp only [Finset.notMem_empty, false_or, List.mem_singleton, exists_eq_left]
    constructor
    · exact ReflTransGen.mono (fun a b hb => ((hmem a b).mp hb).2) _ _
    · intro hpath
      induction hpath with
      | refl => exact ReflTransGen.refl
      | tail hpath hedge ih => exact ih.tail ((hmem _ _).mpr ⟨declared_of_reach h hpath, hedge⟩)
  have hset : popLoop succ (edgeCount fsm succ + 1) ∅ [fsm.initialState]
      = findReachableStates fsm := Finset.ext hreach
  unfold findUnreachableStates
  rw [hsucc]
  show Except.ok _ = _
  rw [hset]

theorem analyzeFsm_ok (σ : SetOrder String) (h : ValidSubcontract fsm) :
    ∃ result, analyzeFsm σ fsm = .ok result ∧
      result.unreachableStates
        = (fsm.stateNames.toFinset \ findReachableStates fsm).sort (· ≤ ·) ∧
      result.deadTransitions = findDeadTransitions fsm result.unreachableStates := by
  rcases adjacency_ok h with ⟨succ, hsucc, -⟩
  have hcycles : ∃ cycles, findCyclesWithoutExit σ fsm = .ok cycles := by
    unfold findCyclesWithoutExit
    rw [hsucc]
    exact ⟨_, rfl⟩
  rcases hcycles with ⟨cycles, hcycles⟩
  unfold analyzeFsm
  rw [findUnreachableStates_eq h, hcycles]
  exact ⟨_, rfl, rfl, rfl⟩

/-! ## The run follows the edges -/

variable {state trigger : String}

theorem candidate_edge {t : ModelFSMStateTransition} (ht : t ∈ fsm.transitions)
    (hcandidate : Candidate fsm state trigger t) : Edge (targets fsm) state t.toState := by
  apply mem_targets.mpr
  rcases hcandidate with hexact | ⟨-, hwildcard⟩
  · exact ⟨t, ht, Or.inr hexact.1, rfl⟩
  · exact ⟨t, ht, Or.inl hwildcard.1, rfl⟩

theorem executeTransition_edge {context : Context} {r : ModelFSMTransitionResult}
    (h : executeTransition i fsm state trigger context = .ok r) :
    r.newState = state ∨ Edge (targets fsm) state r.newState := by
  rcases executeTransition_cases h with hkeeps | ⟨t, intents, hmakes, rfl⟩
  · exact Or.inl hkeeps.2.1
  · exact Or.inr (candidate_edge hmakes.foremost.mem hmakes.foremost.1)

theorem Visited.reach {state : String} (h : Visited i fsm state) :
    ReflTransGen (Edge (targets fsm)) fsm.initialState state := by
  induction h with
  | initial => exact ReflTransGen.refl
  | step _ hr ih =>
    rcases executeTransition_edge hr with hstay | hedge
    · rw [hstay]
      exact ih
    · exact ih.tail hedge

theorem mem_findDeadTransitions {unreachable : List String} {name : String} :
    name ∈ findDeadTransitions fsm unreachable ↔
      ∃ t ∈ fsm.transitions, t.transitionName = name ∧ t.fromState ≠ "*" ∧
        t.fromState ∈ unreachable := by
  unfold findDeadTransitions
  rw [(List.perm_insertionSort _ _).mem_iff, List.mem_map]
  simp only [List.mem_filter, decide_eq_true_eq]
  constructor
  · rintro ⟨t, ⟨ht, hstar, hfrom⟩, hname⟩
    exact ⟨t, ht, hname, hstar, hfrom⟩
  · rintro ⟨t, ht, hname, hstar, hfrom⟩
    exact ⟨t, ⟨ht, hstar, hfrom⟩, hname⟩

theorem fromState_of_executed (h : ValidSubcontract fsm) {context : Context}
    {r : ModelFSMTransitionResult} (hr : executeTransition i fsm state trigger context = .ok r)
    (hsuccess : r.success = true) {t : ModelFSMStateTransition} (ht : t ∈ fsm.transitions)
    (hname : r.transitionName = some t.transitionName) :
    t.fromState = state ∨ t.fromState = "*" := by
  rcases executeTransition_cases hr with hkeeps | ⟨u, intents, hmakes, rfl⟩
  · rw [hkeeps.1] at hsuccess
    cases hsuccess
  · have heq : u = t := List.inj_on_of_nodup_map h.names_nodup hmakes.foremost.mem ht
      (Option.some.inj hname)
    rw [← heq]
    exact hmakes.foremost.1.elim (fun hexact => Or.inl hexact.1) fun hwildcard =>
      Or.inr hwildcard.2.1

/-- The analysis of a machine that has been accepted is sound for all its runs. -/
theorem soundAnalysis (σ : SetOrder String) (h : fsm.Accepted i) :
    ∃ result, analyzeFsm σ fsm = .ok result ∧ SoundAnalysis i fsm result := by
  have hvalid := h.valid
  rcases analyzeFsm_ok σ hvalid with ⟨result, hresult, hunreachable, hdead⟩
  have hnot : ∀ state, Visited i fsm state → state ∉ result.unreachableStates := by
    intro state hstate hmem
    rw [hunreachable, Finset.mem_sort, Finset.mem_sdiff] at hmem
    exact hmem.2 (mem_findReachableStates.mpr hstate.reach)
  refine ⟨result, hresult, fun state hstate => declared_of_reach hvalid hstate.reach,
    fun state hstate => mem_findReachableStates.mpr hstate.reach, hnot, ?_,
    findUnreachableStates_eq hvalid⟩
  intro state trigger context r hstate hr hsuccess name hname heq
  rw [hdead] at hname
  rcases mem_findDeadTransitions.mp hname with ⟨t, ht, rfl, hstar, hfrom⟩
  rcases fromState_of_executed hvalid hr hsuccess ht heq with hsame | hwildcard
  · rw [hsame] at hfrom
    exact hnot state hstate hfrom
  · exact hstar hwildcard

end

/-- A machine with a state that only it leads to. -/
def islandFsm : ModelFSMSubcontract :=
  { numericGuardFsm with
    states := numericGuardFsm.states ++ [
      { stateName := "island", isTerminal := false, isRecoverable := true, entryActions := [],
        exitActions := [], requiredData := [] }]
    transitions := numericGuardFsm.transitions ++ [
      { transitionName := "stay", fromState := "island", toState := "island", trigger := "go",
        priority := 1, actions := [], conditions := [] },
      { transitionName := "reset", fromState := "*", toState := "idle", trigger := "reset",
        priority := 1, actions := [], conditions := [] }] }

theorem soundAnalysis_islandFsm :
    ∃ result, analyzeFsm (SetOrder.ascending String) islandFsm = .ok result ∧
      SoundAnalysis plainInterpreter islandFsm result :=
  soundAnalysis (SetOrder.ascending String) (by decide +kernel)

example : findUnreachableStates islandFsm = .ok ["island"] ∧
    findDeadTransitions islandFsm ["island"] = ["stay"] := by decide +kernel

end OmnibaseCore.Fsm
