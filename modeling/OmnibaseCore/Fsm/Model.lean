import OmnibaseCore.Python.Value

/-!
# Finite state machines

`ModelFSMSubcontract` and its parts, with the validators that run when one is constructed. What
a validator that passes says about the machine is collected in `ValidSubcontract`.
-/

namespace OmnibaseCore.Fsm

/-! ## Conditions -/

structure ModelFSMTransitionCondition where
  conditionName : String
  expression : String
  required : Bool
deriving DecidableEq

def validOperators : List String := [
  "==", "!=", "equals", "not_equals",
  "<", ">", "<=", ">=",
  "greater_than", "less_than", "greater_than_or_equal", "less_than_or_equal",
  "min_length", "max_length",
  "exists", "not_exists",
  "in", "not_in", "contains",
  "matches"]

def ModelFSMTransitionCondition.validateExpressionFormat (c : ModelFSMTransitionCondition) :
    Except PyException Unit :=
  let tokens := words c.expression
  if tokens.length ≠ 3 then
    .error (.modelOnexError {
      errorCode := .validationError
      message := "Expression must have exactly 3 tokens (field operator value), got " ++
        toString tokens.length ++ " tokens: '" ++ c.expression ++ "'"
      context := [("condition_name", .str c.conditionName), ("expression", .str c.expression),
        ("token_count", .int tokens.length)] })
  else
    let operator := tokens.getD 1 ""
    if operator ∉ validOperators then
      .error (.modelOnexError {
        errorCode := .validationError
        message := "Invalid operator '" ++ operator ++ "'. Valid operators: " ++
          ", ".intercalate (validOperators.insertionSort (· ≤ ·))
        context := [("condition_name", .str c.conditionName), ("expression", .str c.expression),
          ("operator", .str operator),
          ("valid_operators", .strs (validOperators.insertionSort (· ≤ ·)))] })
    else
      .ok ()

/-! ## Transitions and states -/

structure ModelFSMTransitionAction where
  actionName : String
  actionType : String
  isCritical : Bool
  timeoutMs : Option ℤ
deriving DecidableEq

structure ModelFSMStateTransition where
  transitionName : String
  fromState : String
  toState : String
  trigger : String
  priority : ℤ
  conditions : List ModelFSMTransitionCondition
  actions : List ModelFSMTransitionAction
deriving DecidableEq

structure ModelFSMStateDefinition where
  stateName : String
  isTerminal : Bool
  isRecoverable : Bool
  entryActions : List String
  exitActions : List String
  requiredData : List String

def ModelFSMStateDefinition.validateTerminalNotRecoverable (s : ModelFSMStateDefinition) :
    Except PyException Unit :=
  if s.isTerminal ∧ s.isRecoverable then
    .error (.modelOnexError {
      errorCode := .validationError
      message := "Terminal state '" ++ s.stateName ++ "' cannot have is_recoverable=True. " ++
        "Terminal states represent completed workflows that cannot be recovered."
      context := [] })
  else
    .ok ()

/-! ## Subcontracts -/

structure ModelFSMSubcontract where
  stateMachineName : String
  correlationId : UUID
  states : List ModelFSMStateDefinition
  initialState : String
  terminalStates : List String
  errorStates : List String
  transitions : List ModelFSMStateTransition
  persistenceEnabled : Bool

namespace ModelFSMSubcontract

def stateNames (fsm : ModelFSMSubcontract) : List String :=
  fsm.states.map ModelFSMStateDefinition.stateName

def validatorError (message : String) : PyException :=
  .modelOnexError {
    errorCode := .validationError
    message := message
    context := [("details", .pairs [("error_type", "valueerror"),
      ("validation_context", "model_validation")])] }

def validateInitialStateExists (fsm : ModelFSMSubcontract) : Except PyException Unit :=
  if fsm.initialState ∉ fsm.stateNames then
    .error (validatorError
      ("Initial state '" ++ fsm.initialState ++ "' not found in states list[Any]"))
  else
    .ok ()

def validateSpecialStatesExist (fsm : ModelFSMSubcontract) : Except PyException Unit :=
  match fsm.terminalStates.find? (· ∉ fsm.stateNames) with
  | some stateName =>
    .error (validatorError ("Terminal state '" ++ stateName ++ "' not found in states list[Any]"))
  | none =>
    match fsm.errorStates.find? (· ∉ fsm.stateNames) with
    | some stateName =>
      .error (validatorError ("Error state '" ++ stateName ++ "' not found in states list[Any]"))
    | none => .ok ()

def validateTransitionStatesExist (fsm : ModelFSMSubcontract) : Except PyException Unit :=
  let wrong := fsm.transitions.findSome? fun t =>
    if t.fromState ∉ fsm.stateNames ++ ["*"] then
      some ("Transition from_state '" ++ t.fromState ++ "' not found in states list[Any]")
    else if t.toState ∉ fsm.stateNames then
      some ("Transition to_state '" ++ t.toState ++ "' not found in states list[Any]")
    else none
  match wrong with
  | some message => .error (validatorError message)
  | none => .ok ()

def validateUniqueTransitionNames (i : Interpreter) (fsm : ModelFSMSubcontract) :
    Except PyException Unit :=
  let duplicates := repeated ∅ (fsm.transitions.map ModelFSMStateTransition.transitionName)
  if duplicates ≠ [] then
    .error (validatorError ("Duplicate transition names found: " ++
      i.reprStrs (duplicates.dedup.insertionSort (· ≤ ·))))
  else
    .ok ()

def validateUniqueStructuralTransitions (i : Interpreter) (fsm : ModelFSMSubcontract) :
    Except PyException Unit :=
  let duplicates := repeated ∅ (fsm.transitions.map fun t => (t.fromState, t.trigger, t.priority))
  if duplicates ≠ [] then
    let duplicateStrs := duplicates.map fun d => "(from_state='" ++ d.1 ++ "', trigger='" ++
      d.2.1 ++ "', priority=" ++ toString d.2.2 ++ ")"
    .error (validatorError ("Duplicate structural transitions found: " ++
      i.reprStrs duplicateStrs))
  else
    .ok ()

/-- `terminal_state_names`: the states flagged as terminal, and those listed as such. -/
def terminalStateNames (fsm : ModelFSMSubcontract) : Finset String :=
  ((fsm.states.filter fun s => s.isTerminal).map
    ModelFSMStateDefinition.stateName ++ fsm.terminalStates).toFinset

def validateNoTransitionsFromTerminalStates (i : Interpreter) (fsm : ModelFSMSubcontract) :
    Except PyException Unit :=
  let violations := fsm.transitions.filter fun t =>
    t.fromState ∈ fsm.terminalStateNames ∧ t.fromState ≠ "*"
  if violations ≠ [] then
    .error (validatorError ("Transitions from terminal states are not allowed: " ++
      i.reprStrs (violations.map fun t => "Transition '" ++ t.transitionName ++
        "' from terminal state '" ++ t.fromState ++ "'")))
  else
    .ok ()

/-- The validators of the subcontract, in their order. -/
def validate (i : Interpreter) (fsm : ModelFSMSubcontract) : Except PyException Unit := do
  fsm.validateInitialStateExists
  fsm.validateSpecialStatesExist
  fsm.validateTransitionStatesExist
  fsm.validateUniqueTransitionNames i
  fsm.validateUniqueStructuralTransitions i
  fsm.validateNoTransitionsFromTerminalStates i

def FieldsValid (fsm : ModelFSMSubcontract) : Prop :=
  fsm.stateMachineName ≠ "" ∧ fsm.states ≠ [] ∧ fsm.initialState ≠ "" ∧ fsm.transitions ≠ [] ∧
  (∀ s ∈ fsm.states, s.stateName ≠ "") ∧
  ∀ t ∈ fsm.transitions, t.transitionName ≠ "" ∧ t.fromState ≠ "" ∧ t.toState ≠ "" ∧
    t.trigger ≠ "" ∧ 0 ≤ t.priority ∧ ∀ a ∈ t.actions, a.actionName ≠ "" ∧ a.actionType ≠ ""

instance (fsm : ModelFSMSubcontract) : Decidable fsm.FieldsValid :=
  inferInstanceAs (Decidable (_ ∧ _))

/-- The subcontract and its parts can be constructed. -/
def Accepted (i : Interpreter) (fsm : ModelFSMSubcontract) : Prop :=
  fsm.FieldsValid ∧ (∀ s ∈ fsm.states, s.validateTerminalNotRecoverable = .ok ()) ∧
  (∀ t ∈ fsm.transitions, ∀ c ∈ t.conditions, c.validateExpressionFormat = .ok ()) ∧
  fsm.validate i = .ok ()

instance (i : Interpreter) (fsm : ModelFSMSubcontract) : Decidable (fsm.Accepted i) :=
  inferInstanceAs (Decidable (_ ∧ _))

end ModelFSMSubcontract

/-- What the validators establish. -/
structure ValidSubcontract (fsm : ModelFSMSubcontract) : Prop where
  initial_mem : fsm.initialState ∈ fsm.stateNames
  terminal_mem : ∀ s ∈ fsm.terminalStates, s ∈ fsm.stateNames
  error_mem : ∀ s ∈ fsm.errorStates, s ∈ fsm.stateNames
  from_mem : ∀ t ∈ fsm.transitions, t.fromState = "*" ∨ t.fromState ∈ fsm.stateNames
  to_mem : ∀ t ∈ fsm.transitions, t.toState ∈ fsm.stateNames
  names_nodup : (fsm.transitions.map ModelFSMStateTransition.transitionName).Nodup
  structure_nodup : (fsm.transitions.map fun t => (t.fromState, t.trigger, t.priority)).Nodup
  terminal_final : ∀ t ∈ fsm.transitions, t.fromState ≠ "*" →
    t.fromState ∉ fsm.terminalStateNames

/-! ## What acceptance means -/

section
variable {i : Interpreter} {fsm : ModelFSMSubcontract}

theorem validateSpecialStatesExist_ok (h : fsm.validateSpecialStatesExist = .ok ()) :
    (∀ s ∈ fsm.terminalStates, s ∈ fsm.stateNames) ∧
      ∀ s ∈ fsm.errorStates, s ∈ fsm.stateNames := by
  unfold ModelFSMSubcontract.validateSpecialStatesExist at h
  split at h
  · cases h
  · rename_i hterminal
    split at h
    · cases h
    · rename_i herror
      simp only [List.find?_eq_none, decide_eq_true_eq, not_not] at hterminal herror
      exact ⟨hterminal, herror⟩

theorem validateTransitionStatesExist_ok (h : fsm.validateTransitionStatesExist = .ok ()) :
    ∀ t ∈ fsm.transitions,
      (t.fromState = "*" ∨ t.fromState ∈ fsm.stateNames) ∧ t.toState ∈ fsm.stateNames := by
  intro t ht
  unfold ModelFSMSubcontract.validateTransitionStatesExist at h
  dsimp only at h
  split at h
  · cases h
  · rename_i hwrong
    have hnone := List.findSome?_eq_none_iff.mp hwrong t ht
    split_ifs at hnone with hfrom hto
    rw [List.mem_append, List.mem_singleton] at hfrom
    exact ⟨hfrom.symm, hto⟩

/-- An accepted subcontract satisfies all that the validators check. -/
theorem ModelFSMSubcontract.Accepted.valid (h : fsm.Accepted i) : ValidSubcontract fsm := by
  rcases h with ⟨_, _, _, h⟩
  unfold validate at h
  rcases bind_eq_ok h with ⟨_, hinitial, h⟩
  rcases bind_eq_ok h with ⟨_, hspecial, h⟩
  rcases bind_eq_ok h with ⟨_, htransitions, h⟩
  rcases bind_eq_ok h with ⟨_, hnames, h⟩
  rcases bind_eq_ok h with ⟨_, hstructure, hterminal⟩
  have hspecial := validateSpecialStatesExist_ok hspecial
  have htransitions := validateTransitionStatesExist_ok htransitions
  unfold validateInitialStateExists at hinitial
  unfold validateUniqueTransitionNames at hnames
  unfold validateUniqueStructuralTransitions at hstructure
  unfold validateNoTransitionsFromTerminalStates at hterminal
  dsimp only at hnames hstructure hterminal
  split_ifs at hinitial hnames hstructure hterminal with hi hn hs ht
  rw [not_ne_iff] at hn hs ht
  refine ⟨hi, hspecial.1, hspecial.2, fun t ht => (htransitions t ht).1,
    fun t ht => (htransitions t ht).2, repeated_empty_eq_nil_iff.mp hn,
    repeated_empty_eq_nil_iff.mp hs, fun t hmem hstar hin => ?_⟩
  have hfilter : t ∈ fsm.transitions.filter fun t =>
      t.fromState ∈ fsm.terminalStateNames ∧ t.fromState ≠ "*" :=
    List.mem_filter.mpr ⟨hmem, decide_eq_true ⟨hin, hstar⟩⟩
  rw [ht] at hfilter
  cases hfilter

end

end OmnibaseCore.Fsm
