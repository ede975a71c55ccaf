import OmnibaseCore.Reducer.Snapshot

/-!
# Theorems about snapshots

A snapshot should be a checkpoint: whatever is called after it was taken, it can be restored,
and the node then goes on as it would have (`CheckpointLaw`). The validation rejects a history
with a repeated state and a context without the required keys, and a run can produce both.
`checkpointLaw_of_stepsMeet` says for which runs all snapshots are checkpoints.
-/

namespace OmnibaseCore.Reducer

open Fsm

/-! ## Checkpoints -/

def nodeAfter (i : Interpreter) (fsm : ModelFSMSubcontract) (calls : List Call) : NodeReducer :=
  ((NodeReducer.init (some fsm)).run i calls).1

def outcomesOf (i : Interpreter) (fsm : ModelFSMSubcontract) (calls : List Call) :
    List Outcome :=
  ((NodeReducer.init (some fsm)).run i calls).2

/-- The history is that of the successful transitions, and other calls change nothing. -/
structure HistoryLaw (i : Interpreter) (fsm : ModelFSMSubcontract) (calls : List Call) :
    Prop where
  history : ∃ s, (nodeAfter i fsm calls).fsmState = some s ∧
    s.history = (outcomesOf i fsm calls).filterMap oldState
  unchanged : ∀ c, succeeded ((nodeAfter i fsm calls).call i c).2 = false →
    ((nodeAfter i fsm calls).call i c).1 = nodeAfter i fsm calls
  oldState : ∀ c s, succeeded ((nodeAfter i fsm calls).call i c).2 = true →
    (nodeAfter i fsm calls).fsmState = some s →
      oldState ((nodeAfter i fsm calls).call i c).2 = some s.currentState

def PastTimestamps (i : Interpreter) (c : Call) : Prop :=
  ∀ context warnings, buildFsmContext i c.input = .ok (context, warnings) →
    ∀ key ∈ timestampKeys, ∀ instant, timestampOf i (context.get key) = some instant →
      instant ≤ c.now

/-- A snapshot taken after the calls, in a state that is not terminal, can be restored after
any further calls, and the node then behaves as when the snapshot was taken. -/
def CheckpointLaw (i : Interpreter) (fsm : ModelFSMSubcontract) (calls : List Call) : Prop :=
  ∀ snapshot later now, (nodeAfter i fsm calls).snapshotState = some snapshot →
    isTerminalState fsm snapshot.currentState = false →
    (((calls ++ later).map Call.now) ++ [now]).Pairwise (· ≤ ·) →
    (∀ c ∈ calls ++ later, PastTimestamps i c) →
      let restored := (nodeAfter i fsm (calls ++ later)).restoreState i now snapshot true false
      restored.2 = .ok () ∧ restored.1.snapshotState = some snapshot ∧
        ∀ further, restored.1.run i further = (nodeAfter i fsm calls).run i further

/-! ## The condition -/

/-- If the call commits a transition, then the last one did not lead from the state to itself,
and the context has the keys that the new state requires, unless it is terminal. -/
def LeavesCheckpoint (i : Interpreter) (fsm : ModelFSMSubcontract) (s : ModelFSMStateSnapshot)
    (input : ModelReducerInput) : Prop :=
  ∀ context copied t, Commits i fsm s input context copied t →
    s.history.getLast? ≠ some s.currentState ∧
      (isTerminalState fsm t.toState = false →
        ∀ key ∈ requiredData fsm t.toState, key ∈ context.keys)

/-- The first state requires nothing, unless it is terminal: its context is empty. -/
def StartsCheckpoint (fsm : ModelFSMSubcontract) : Prop :=
  isTerminalState fsm fsm.initialState = false → requiredData fsm fsm.initialState = []

def StepsMeet (i : Interpreter) (fsm : ModelFSMSubcontract) : NodeReducer → List Call → Prop
  | _, [] => True
  | node, c :: rest =>
    (∀ s, node.fsmState = some s → LeavesCheckpoint i fsm s c.input) ∧
      StepsMeet i fsm (node.call i c).1 rest

/-! ## Copies -/

section
variable {i : Interpreter} {fsm : ModelFSMSubcontract}

theorem timestampOf_deepcopy {v copied : Value} (h : i.deepcopy v = .ok copied) :
    timestampOf i copied = timestampOf i v := by
  cases v with
  | list items =>
    rw [Interpreter.deepcopy] at h
    rcases bind_eq_ok h with ⟨items', -, h⟩
    cases h
    rfl
  | dict entries =>
    rw [Interpreter.deepcopy] at h
    rcases bind_eq_ok h with ⟨entries', -, h⟩
    cases h
    rfl
  | obj cls address =>
    rw [Interpreter.deepcopy] at h
    rcases bind_eq_ok h with ⟨address', -, h⟩
    cases h
    rfl
  | _ =>
    simp only [Interpreter.deepcopy, Except.ok.injEq] at h
    rw [h]

variable {context copied : Context}

theorem keys_deepcopy (h : context.deepcopy i = .ok copied) : copied.keys = context.keys := by
  induction context generalizing copied with
  | nil =>
    cases h
    rfl
  | cons e context ih =>
    rcases e with ⟨key, value⟩
    rw [Context.deepcopy] at h
    rcases bind_eq_ok h with ⟨value', -, h⟩
    rcases bind_eq_ok h with ⟨rest, hrest, h⟩
    cases h
    show key :: Context.keys rest = key :: Context.keys context
    rw [ih hrest]

theorem timestampOf_get_deepcopy (h : context.deepcopy i = .ok copied) (key : String) :
    timestampOf i (copied.get key) = timestampOf i (context.get key) := by
  induction context generalizing copied with
  | nil =>
    cases h
    rfl
  | cons e context ih =>
    rcases e with ⟨key', value⟩
    rw [Context.deepcopy] at h
    rcases bind_eq_ok h with ⟨value', hvalue, h⟩
    rcases bind_eq_ok h with ⟨rest, hrest, h⟩
    cases h
    unfold Context.get
    rw [List.lookup_cons, List.lookup_cons]
    cases key == key' with
    | true => exact timestampOf_deepcopy hvalue
    | false => exact ih hrest

/-! ## The history -/

variable {s : ModelFSMStateSnapshot}

theorem history_run (i : Interpreter) (node : NodeReducer) (calls : List Call)
    (hcontract : node.fsmContract = some fsm) (hstate : node.fsmState = some s) :
    (node.run i calls).1.fsmContract = some fsm ∧
      ∃ s', (node.run i calls).1.fsmState = some s' ∧
        s'.history = s.history ++ (node.run i calls).2.filterMap oldState := by
  induction calls generalizing node s with
  | nil => exact ⟨hcontract, s, hstate, (List.append_nil _).symm⟩
  | cons c calls ih =>
    rw [NodeReducer.run]
    dsimp only
    rcases call_cases (i := i) hcontract hstate c with
      ⟨hnode, -, hold⟩ | ⟨context, copied, t, -, hnode, -, hold⟩
    · rw [hnode, List.filterMap_cons_none hold]
      exact ih node hcontract hstate
    · rw [hnode, List.filterMap_cons_some hold]
      rcases ih { node with fsmState := some (committed s copied t) } hcontract rfl with ⟨hcontract', s', hstate', hhistory⟩
      refine ⟨hcontract', s', hstate', ?_⟩
      rw [hhistory]
      show s.history ++ [s.currentState] ++ _ = _
      rw [List.append_assoc, List.singleton_append]

def initialSnapshot (fsm : ModelFSMSubcontract) : ModelFSMStateSnapshot :=
  { currentState := fsm.initialState, context := [], history := [] }

theorem nodeAfter_spec (i : Interpreter) (fsm : ModelFSMSubcontract) (calls : List Call) :
    (nodeAfter i fsm calls).fsmContract = some fsm ∧
      ∃ s, (nodeAfter i fsm calls).fsmState = some s ∧
        s.history = (outcomesOf i fsm calls).filterMap oldState := by
  have hrun := history_run i (NodeReducer.init (some fsm)) calls (s := initialSnapshot fsm)
    rfl rfl
  rw [show (initialSnapshot fsm).history = [] from rfl] at hrun
  exact hrun

theorem historyLaw (i : Interpreter) (fsm : ModelFSMSubcontract) (calls : List Call) :
    HistoryLaw i fsm calls := by
  rcases nodeAfter_spec i fsm calls with ⟨hcontract, s, hstate, hhistory⟩
  refine ⟨⟨s, hstate, hhistory⟩, fun c hfailed => ?_, fun c s' hsucceeded hs' => ?_⟩
  · rcases call_cases (i := i) hcontract hstate c with
      ⟨hnode, -, -⟩ | ⟨context, copied, t, -, -, hsucceeded, -⟩
    · exact hnode
    · rw [hfailed] at hsucceeded
      cases hsucceeded
  · rw [hstate] at hs'
    cases hs'
    rcases call_cases (i := i) hcontract hstate c with
      ⟨-, hfailed, -⟩ | ⟨context, copied, t, -, -, -, hold⟩
    · rw [hfailed] at hsucceeded
      cases hsucceeded
    · exact hold

/-! ## The invariant -/

/-- A snapshot of declared states, without a timestamp later than `now`. -/
structure WellFormed (i : Interpreter) (fsm : ModelFSMSubcontract) (now : ℤ)
    (s : ModelFSMStateSnapshot) : Prop where
  current : s.currentState ∈ fsm.stateNames
  history : ∀ state ∈ s.history, state ∈ fsm.stateNames
  past : ∀ key ∈ timestampKeys, ∀ instant, timestampOf i (s.context.get key) = some instant →
    instant ≤ now

/-- A snapshot that the validation accepts at `now`, unless its state is terminal. -/
structure Restorable (i : Interpreter) (fsm : ModelFSMSubcontract) (now : ℤ)
    (s : ModelFSMStateSnapshot) : Prop extends WellFormed i fsm now s where
  noRepeat : s.history.IsChain (· ≠ ·)
  required : isTerminalState fsm s.currentState = false →
    ∀ key ∈ requiredData fsm s.currentState, key ∈ s.context.keys

theorem restorable_initial (h : ValidSubcontract fsm) (hstart : StartsCheckpoint fsm) (now : ℤ) :
    Restorable i fsm now (initialSnapshot fsm) := by
  refine ⟨⟨h.initial_mem, by simp [initialSnapshot], ?_⟩, List.isChain_nil, ?_⟩
  · intro key _ instant hinstant
    cases hinstant
  · intro hterminal key hkey
    rw [initialSnapshot, hstart hterminal] at hkey
    cases hkey

variable {now : ℤ} {t : ModelFSMStateTransition}

/-- A call keeps the snapshot well-formed. -/
theorem WellFormed.committed (h : ValidSubcontract fsm) (hs : WellFormed i fsm now s) {c : Call}
    (hpast : PastTimestamps i c) (hnow : c.now ≤ now)
    (hcommits : Commits i fsm s c.input context copied t) :
    WellFormed i fsm now (committed s copied t) := by
  rcases hcommits with ⟨⟨warnings, hbuild⟩, hmakes, hcopy⟩
  constructor
  · exact h.to_mem t hmakes.foremost.mem
  · intro state hstate
    rcases List.mem_append.mp hstate with hstate | hstate
    · exact hs.history state hstate
    · rw [List.mem_singleton.mp hstate]
      exact hs.current
  · intro key hkey instant hinstant
    rw [Reducer.committed, timestampOf_get_deepcopy hcopy] at hinstant
    exact (hpast context warnings hbuild key hkey instant hinstant).trans hnow

theorem noRepeat_committed {context : Context} : (committed s context t).history.IsChain (· ≠ ·) ↔
      s.history.IsChain (· ≠ ·) ∧ s.history.getLast? ≠ some s.currentState := by
  rw [committed, List.isChain_append, and_iff_right (List.isChain_singleton s.currentState)]
  apply and_congr_right
  intro _
  constructor
  · intro hne hlast
    exact hne s.currentState hlast s.currentState rfl rfl
  · intro hlast x hx y hy
    rw [List.head?_cons, Option.mem_some] at hy
    rintro rfl
    rw [hy] at hlast
    exact hlast hx

/-- A call that meets the condition keeps the snapshot restorable. -/
theorem Restorable.committed (h : ValidSubcontract fsm) (hs : Restorable i fsm now s) {c : Call}
    (hpast : PastTimestamps i c) (hnow : c.now ≤ now) (hleaves : LeavesCheckpoint i fsm s c.input)
    (hcommits : Commits i fsm s c.input context copied t) :
    Restorable i fsm now (committed s copied t) := by
  rcases hleaves context copied t hcommits with ⟨hlast, hrequired⟩
  refine ⟨hs.toWellFormed.committed h hpast hnow hcommits,
    noRepeat_committed.mpr ⟨hs.noRepeat, hlast⟩, fun hterminal key hkey => ?_⟩
  show key ∈ copied.keys
  rw [keys_deepcopy hcommits.copies]
  exact hrequired hterminal key hkey

theorem restorable_run (h : ValidSubcontract fsm) (node : NodeReducer) (calls : List Call)
    (hcontract : node.fsmContract = some fsm) (hstate : node.fsmState = some s)
    (hs : Restorable i fsm now s) (hsteps : StepsMeet i fsm node calls)
    (hpast : ∀ c ∈ calls, PastTimestamps i c) (hnow : ∀ c ∈ calls, c.now ≤ now) :
    ∃ s', (node.run i calls).1.fsmState = some s' ∧ Restorable i fsm now s' := by
  induction calls generalizing node s with
  | nil => exact ⟨s, hstate, hs⟩
  | cons c calls ih =>
    rw [List.forall_mem_cons] at hpast hnow
    rw [NodeReducer.run]
    dsimp only
    rcases hsteps with ⟨hleaves, hrest⟩
    rcases call_cases (i := i) hcontract hstate c with
      ⟨hnode, -, -⟩ | ⟨context, copied, t, hcommits, hnode, -, -⟩
    · rw [hnode] at hrest ⊢
      exact ih node hcontract hstate hs hrest hpast.2 hnow.2
    · rw [hnode] at hrest ⊢
      have hcommitted := hs.committed h hpast.1 hnow.1 (hleaves s hstate) hcommits
      exact ih { node with fsmState := some (Reducer.committed s copied t) } hcontract rfl
        hcommitted hrest hpast.2 hnow.2

/-! ## The validation -/

theorem firstRepeat_eq_none_iff {l : List String} (position : ℤ) :
    firstRepeat position l = none ↔ l.IsChain (· ≠ ·) := by
  induction l generalizing position with
  | nil => exact iff_of_true rfl List.isChain_nil
  | cons a l ih =>
    cases l with
    | nil => exact iff_of_true rfl (List.isChain_singleton a)
    | cons b l =>
      rw [firstRepeat, List.isChain_cons_cons]
      by_cases hab : a = b
      · rw [if_pos hab]
        exact iff_of_false nofun fun h => h.1 hab
      · rw [if_neg hab, ih]
        exact (and_iff_right hab).symm

theorem checkTimestamps_ok {keys : List String}
    (h : ∀ key ∈ keys, ∀ instant, timestampOf i (s.context.get key) = some instant →
      instant ≤ now) : checkTimestamps i now s fsm keys = .ok () := by
  induction keys with
  | nil => rfl
  | cons key keys ih =>
    rw [List.forall_mem_cons] at h
    rw [checkTimestamps]
    by_cases hkey : key ∈ s.context.keys
    · rw [if_neg (not_not.mpr hkey)]
      cases htime : timestampOf i (s.context.get key) with
      | none => exact ih h.2
      | some instant =>
        have hle := h.1 instant htime
        have hnot : ¬ now + snapshotFutureToleranceSeconds * 1000000 < instant := by
          unfold snapshotFutureToleranceSeconds
          omega
        dsimp only
        rw [if_neg hnot]
        exact ih h.2
    · rw [if_pos hkey]
      exact ih h.2

theorem checkRequiredContext_ok_iff (i : Interpreter) : checkRequiredContext i s fsm = .ok () ↔
      ∀ key ∈ requiredData fsm s.currentState, key ∈ s.context.keys := by
  unfold checkRequiredContext
  dsimp only
  by_cases hmissing : ((requiredData fsm s.currentState).filter fun key =>
      key ∉ s.context.keys) = []
  · rw [if_neg (not_not.mpr hmissing)]
    rw [List.filter_eq_nil_iff] at hmissing
    refine iff_of_true rfl fun key hkey => ?_
    by_contra hnot
    exact hmissing key hkey (decide_eq_true hnot)
  · rw [if_pos hmissing]
    refine iff_of_false nofun fun h => hmissing ?_
    rw [List.filter_eq_nil_iff]
    exact fun key hkey hnot => of_decide_eq_true hnot (h key hkey)

theorem checkHistorySequence_ok_iff (fsm : ModelFSMSubcontract) :
    checkHistorySequence s fsm = .ok () ↔ s.history.IsChain (· ≠ ·) := by
  rw [← firstRepeat_eq_none_iff 0]
  unfold checkHistorySequence
  cases firstRepeat 0 s.history with
  | none => exact iff_of_true rfl rfl
  | some found => exact iff_of_false nofun nofun

variable {node : NodeReducer}

theorem WellFormed.restoreState_ok_iff (hs : WellFormed i fsm now s)
    (hcontract : node.fsmContract = some fsm)
    (hterminal : isTerminalState fsm s.currentState = false) :
    (node.restoreState i now s true false).2 = .ok () ↔
      s.history.IsChain (· ≠ ·) ∧
        ∀ key ∈ requiredData fsm s.currentState, key ∈ s.context.keys := by
  have hfind : (s.history.find? fun state => state ∉ fsm.stateNames) = none := by
    rw [List.find?_eq_none]
    intro state hstate hnot
    exact of_decide_eq_true hnot (hs.history state hstate)
  have hterminalCheck : checkTerminalState s fsm false = .ok () := by
    unfold checkTerminalState
    rw [hterminal]
    rfl
  rw [← checkRequiredContext_ok_iff i, ← checkHistorySequence_ok_iff fsm]
  unfold NodeReducer.restoreState validateFsmSnapshot
  rw [hcontract]
  dsimp only
  rw [if_pos rfl, if_neg (not_not.mpr hs.current), hfind, hterminalCheck,
    checkTimestamps_ok hs.past]
  cases hcontext : checkRequiredContext i s fsm with
  | error e => exact iff_of_false nofun fun h => nomatch h.2
  | ok _ =>
    cases hsequence : checkHistorySequence s fsm with
    | error e => exact iff_of_false nofun fun h => nomatch h.1
    | ok _ => exact iff_of_true rfl ⟨rfl, rfl⟩

theorem restoreState_eq (hcontract : node.fsmContract = some fsm)
    (h : (node.restoreState i now s true false).2 = .ok ()) :
    (node.restoreState i now s true false).1 = ⟨some fsm, some s⟩ := by
  unfold NodeReducer.restoreState at h ⊢
  rw [hcontract] at h ⊢
  dsimp only at h ⊢
  split at h
  · cases h
  · rfl

theorem Restorable.restore (hs : Restorable i fsm now s)
    (hterminal : isTerminalState fsm s.currentState = false)
    (hcontract : node.fsmContract = some fsm) : (node.restoreState i now s true false).2 = .ok () :=
  (hs.restoreState_ok_iff hcontract hterminal).mpr ⟨hs.noRepeat, hs.required hterminal⟩

theorem node_eq (hcontract : node.fsmContract = some fsm) (hstate : node.fsmState = some s) :
    node = ⟨some fsm, some s⟩ := by
  cases node
  cases hcontract
  cases hstate
  rfl

/-- The history is always that of the successful transitions, and the snapshots of a run whose
calls meet the condition are checkpoints. -/
theorem checkpointLaw_of_stepsMeet (h : fsm.Accepted i) (hstart : StartsCheckpoint fsm)
    {calls : List Call} (hsteps : StepsMeet i fsm (NodeReducer.init (some fsm)) calls) :
    HistoryLaw i fsm calls ∧ CheckpointLaw i fsm calls := by
  refine ⟨historyLaw i fsm calls, fun snapshot later now hsnapshot hterminal hclock hpast => ?_⟩
  have hnow : ∀ c ∈ calls, c.now ≤ now := by
    intro c hc
    rw [List.pairwise_append] at hclock
    exact hclock.2.2 c.now (List.mem_map_of_mem (List.mem_append_left later hc)) now
      (List.mem_singleton_self now)
  rcases restorable_run h.valid (NodeReducer.init (some fsm)) calls
      (s := initialSnapshot fsm) rfl rfl (restorable_initial h.valid hstart now) hsteps
      (fun c hc => hpast c (List.mem_append_left later hc)) hnow with ⟨s, hs, hrestorable⟩
  have heq : s = snapshot := Option.some.inj (hs.symm.trans hsnapshot)
  subst heq
  have hnode := node_eq (nodeAfter_spec i fsm calls).1 hsnapshot
  dsimp only
  have hcontract := (nodeAfter_spec i fsm (calls ++ later)).1
  have haccepted := hrestorable.restore hterminal hcontract
  rw [restoreState_eq hcontract haccepted, hnode]
  exact ⟨haccepted, rfl, fun _ => rfl⟩

end

/-! ## Runs that meet the condition, and runs that do not -/

def tickingFsm : ModelFSMSubcontract :=
  { numericGuardFsm with
    transitions := [
      { transitionName := "tick", fromState := "idle", toState := "idle", trigger := "tick",
        priority := 1, actions := [], conditions := [] },
      { transitionName := "start", fromState := "idle", toState := "busy", trigger := "start",
        priority := 1, actions := [], conditions := [] }] }

def demandingFsm : ModelFSMSubcontract :=
  { tickingFsm with
    states := [
      { stateName := "idle", isTerminal := false, isRecoverable := true, entryActions := [],
        exitActions := [], requiredData := ["order_id"] },
      { stateName := "busy", isTerminal := false, isRecoverable := true, entryActions := [],
        exitActions := [], requiredData := [] }] }

def triggerCall (trigger : String) : Call :=
  { input := {
      data := [], reductionType := .fold, operationId := ⟨0⟩, streamingMode := .batch
      metadata := {
        source := none, traceId := none, spanId := none, correlationId := none, groupKey := none
        partitionId := none, windowId := none, tags := [], trigger := some trigger
        extra := [] } }
    projectionIntents := []
    now := 0 }

theorem requiredData_tickingFsm (state : String) : requiredData tickingFsm state = [] := by
  unfold requiredData
  cases hstate : stateDefinition tickingFsm state with
  | none => rfl
  | some s =>
    have hmem := List.mem_reverse.mp (List.mem_of_find?_eq_some hstate)
    have hall : ∀ s ∈ tickingFsm.states, s.requiredData = [] := by decide
    exact hall s hmem

theorem stepsMeet_tickingFsm : StepsMeet plainInterpreter tickingFsm
    (NodeReducer.init (some tickingFsm)) [triggerCall "start", triggerCall "tick"] := by
  have hleaves : ∀ s : ModelFSMStateSnapshot, s.history.getLast? ≠ some s.currentState →
      ∀ input, LeavesCheckpoint plainInterpreter tickingFsm s input := by
    intro s hlast input context copied t _
    refine ⟨hlast, fun _ key hkey => ?_⟩
    rw [requiredData_tickingFsm] at hkey
    cases hkey
  have hsecond : (((NodeReducer.init (some tickingFsm)).call plainInterpreter
      (triggerCall "start")).1.fsmState.map fun s => (s.history.getLast?, s.currentState))
        = some (some "idle", "busy") := by decide +kernel
  refine ⟨fun s hs => ?_, fun s hs => ?_, trivial⟩
  · cases hs
    exact hleaves _ (by decide) _
  · rw [hs, Option.map_some, Option.some.injEq, Prod.mk.injEq] at hsecond
    apply hleaves
    rw [hsecond.1, hsecond.2]
    decide

theorem checkpointLaw_tickingFsm :
    HistoryLaw plainInterpreter tickingFsm [triggerCall "start", triggerCall "tick"] ∧
      CheckpointLaw plainInterpreter tickingFsm [triggerCall "start", triggerCall "tick"] :=
  checkpointLaw_of_stepsMeet (by decide +kernel) (fun _ => requiredData_tickingFsm _)
    stepsMeet_tickingFsm

theorem not_checkpointLaw {i : Interpreter} {fsm : ModelFSMSubcontract} {calls : List Call}
    (hclock : (calls.map Call.now ++ [0]).Pairwise (· ≤ ·))
    (hpast : ∀ c ∈ calls, PastTimestamps i c)
    (hrejected : (nodeAfter i fsm calls).snapshotState.map (fun s =>
      (isTerminalState fsm s.currentState,
        decide (((nodeAfter i fsm calls).restoreState i 0 s true false).2 = .ok ())))
          = some (false, false)) : ¬ CheckpointLaw i fsm calls := by
  intro hlaw
  cases hsnapshot : (nodeAfter i fsm calls).snapshotState with
  | none =>
    rw [hsnapshot] at hrejected
    cases hrejected
  | some s =>
    rw [hsnapshot, Option.map_some, Option.some.injEq, Prod.mk.injEq] at hrejected
    have hrestored := hlaw s [] 0 hsnapshot hrejected.1 (by rw [List.append_nil]; exact hclock)
      (by rw [List.append_nil]; exact hpast)
    rw [List.append_nil] at hrestored
    exact of_decide_eq_false hrejected.2 hrestored.1

theorem pastTimestamps_of_isNone {i : Interpreter} {c : Call}
    (h : (buildFsmContext i c.input).toOption.all (fun built => timestampKeys.all fun key =>
      (timestampOf i (built.1.get key)).isNone) = true) : PastTimestamps i c := by
  intro context warnings hbuild key hkey instant hinstant
  rw [hbuild] at h
  have hnone := List.all_eq_true.mp h key hkey
  dsimp only at hnone
  rw [hinstant] at hnone
  cases hnone

/-- After a transition from a state to itself and another one, and before the first transition
when the first state requires a key, a snapshot is rejected. -/
theorem tickingFsm_not_checkpointLaw :
    (tickingFsm.Accepted plainInterpreter ∧
      ¬ (HistoryLaw plainInterpreter tickingFsm [triggerCall "tick", triggerCall "tick"] ∧
        CheckpointLaw plainInterpreter tickingFsm [triggerCall "tick", triggerCall "tick"])) ∧
    demandingFsm.Accepted plainInterpreter ∧
      ¬ (HistoryLaw plainInterpreter demandingFsm [] ∧
        CheckpointLaw plainInterpreter demandingFsm []) := by
  refine ⟨⟨by decide +kernel, fun hlaw => ?_⟩, by decide +kernel, fun hlaw => ?_⟩
  · have htick : PastTimestamps plainInterpreter (triggerCall "tick") :=
      pastTimestamps_of_isNone (by decide +kernel)
    exact not_checkpointLaw (by decide) (by simp [htick]) (by decide +kernel) hlaw.2
  · exact not_checkpointLaw (by decide) (by simp) (by decide +kernel) hlaw.2

end OmnibaseCore.Reducer
