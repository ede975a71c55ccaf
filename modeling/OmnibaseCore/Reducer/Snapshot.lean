import OmnibaseCore.Reducer.Process

/-!
# Restoring a snapshot

`restore_state` and the validation of a snapshot against the contract.
-/

namespace OmnibaseCore.Reducer

open Fsm

def snapshotError (errorCode : EnumCoreErrorCode) (message : String)
    (context : List (String × ContextValue)) : PyException :=
  .modelOnexError { errorCode, message, context }

def sortedNames (names : List String) : List String := names.toFinset.sort (· ≤ ·)

/-- `state_definitions.get(name)`: a later definition replaces an earlier one of the same
name. -/
def stateDefinition (contract : ModelFSMSubcontract) (name : String) :
    Option ModelFSMStateDefinition :=
  contract.states.reverse.find? fun s => s.stateName = name

def isTerminalState (contract : ModelFSMSubcontract) (name : String) : Bool :=
  (match stateDefinition contract name with
    | some s => s.isTerminal
    | none => false) || name ∈ contract.terminalStates

/-- `required_data` of a state. -/
def requiredData (contract : ModelFSMSubcontract) (name : String) : List String :=
  match stateDefinition contract name with
  | some s => s.requiredData
  | none => []

def checkTerminalState (snapshot : ModelFSMStateSnapshot) (contract : ModelFSMSubcontract)
    (allowTerminalState : Bool) : Except PyException Unit :=
  if allowTerminalState then .ok ()
  else if isTerminalState contract snapshot.currentState then
    .error (snapshotError .invalidState
      ("Invalid FSM snapshot: restoring to terminal state '" ++ snapshot.currentState ++
        "' is not allowed (terminal states have no outgoing transitions). " ++
        "Use validate=False to skip this check for replay/debugging scenarios.")
      [("snapshot_state", .str snapshot.currentState),
        ("terminal_states", .strs (contract.terminalStates.insertionSort (· ≤ ·))),
        ("fsm_name", .str contract.stateMachineName),
        ("suggestion",
          .str "Use validate=False or allow_terminal_state=True for replay/debugging")])
  else .ok ()

def checkRequiredContext (i : Interpreter) (snapshot : ModelFSMStateSnapshot)
    (contract : ModelFSMSubcontract) : Except PyException Unit :=
  let requiredKeys := requiredData contract snapshot.currentState
  let missingKeys := requiredKeys.filter fun key => key ∉ snapshot.context.keys
  if missingKeys ≠ [] then
    .error (snapshotError .validationError
      ("Invalid FSM snapshot: state '" ++ snapshot.currentState ++ "' requires context keys " ++
        i.reprStrs (sortedNames requiredKeys) ++ ", but snapshot context is missing: " ++
        i.reprStrs (sortedNames missingKeys))
      [("snapshot_state", .str snapshot.currentState),
        ("required_keys", .strs (sortedNames requiredKeys)),
        ("missing_keys", .strs (sortedNames missingKeys)),
        ("provided_keys", .strs (sortedNames snapshot.context.keys)),
        ("fsm_name", .str contract.stateMachineName)])
  else .ok ()

/-- The first place where a list repeats an element, counted from `position`. -/
def firstRepeat : ℤ → List String → Option (ℤ × String)
  | position, a :: b :: rest =>
    if a = b then some (position, a) else firstRepeat (position + 1) (b :: rest)
  | _, _ => none

def checkHistorySequence (snapshot : ModelFSMStateSnapshot) (contract : ModelFSMSubcontract) :
    Except PyException Unit :=
  match firstRepeat 0 snapshot.history with
  | some (position, state) =>
    .error (snapshotError .invalidState
      ("Invalid FSM snapshot: history contains duplicate consecutive states at position " ++
        toString position ++ ": '" ++ state ++ "' -> '" ++ state ++
        "'. This indicates an invalid state transition sequence.")
      [("duplicate_state", .str state), ("position", .int position),
        ("history", .strs snapshot.history), ("fsm_name", .str contract.stateMachineName)])
  | none => .ok ()

def snapshotFutureToleranceSeconds : ℤ := 60

def timestampKeys : List String := ["created_at", "timestamp", "snapshot_time"]

/-- The instant of a timestamp. Other objects, and texts that are no date, are skipped. -/
def timestampOf (i : Interpreter) : Value → Option ℤ
  | .datetime instant => some instant
  | .str s => i.fromIsoFormat (replaceChar 'Z' "+00:00" s)
  | _ => none

def checkTimestamps (i : Interpreter) (now : ℤ) (snapshot : ModelFSMStateSnapshot)
    (contract : ModelFSMSubcontract) : List String → Except PyException Unit
  | [] => .ok ()
  | key :: rest =>
    if key ∉ snapshot.context.keys then checkTimestamps i now snapshot contract rest
    else
      match timestampOf i (snapshot.context.get key) with
      | none => checkTimestamps i now snapshot contract rest
      | some snapshotTime =>
        if now + snapshotFutureToleranceSeconds * 1000000 < snapshotTime then
          .error (snapshotError .invalidState
            ("Invalid FSM snapshot: timestamp " ++ i.isoformat snapshotTime ++
              " is in the future (current: " ++ i.isoformat now ++ ", difference: " ++
              i.formatSeconds (snapshotTime - now) ++ "s, tolerance: " ++
              toString snapshotFutureToleranceSeconds ++ "s)")
            [("snapshot_timestamp", .str (i.isoformat snapshotTime)),
              ("current_time", .str (i.isoformat now)),
              ("difference_seconds", .float ((snapshotTime - now : ℤ) / 1000000)),
              ("tolerance_seconds", .int snapshotFutureToleranceSeconds),
              ("fsm_name", .str contract.stateMachineName)])
        else checkTimestamps i now snapshot contract rest

/-- `_validate_fsm_snapshot`, at the time `now`. -/
def validateFsmSnapshot (i : Interpreter) (now : ℤ) (snapshot : ModelFSMStateSnapshot)
    (contract : ModelFSMSubcontract) (allowTerminalState validateRequiredContext
    validateHistorySequence : Bool) : Except PyException Unit := do
  if snapshot.currentState ∉ contract.stateNames then
    .error (snapshotError .invalidState
      ("Invalid FSM snapshot: state '" ++ snapshot.currentState ++
        "' is not defined in FSM contract")
      [("snapshot_state", .str snapshot.currentState),
        ("valid_states", .strs (sortedNames contract.stateNames)),
        ("fsm_name", .str contract.stateMachineName)])
  match snapshot.history.find? fun state => state ∉ contract.stateNames with
  | some state =>
    .error (snapshotError .invalidState
      ("Invalid FSM snapshot: history contains invalid state '" ++ state ++ "'")
      [("invalid_history_state", .str state),
        ("valid_states", .strs (sortedNames contract.stateNames)),
        ("fsm_name", .str contract.stateMachineName)])
  | none => .ok ()
  checkTerminalState snapshot contract allowTerminalState
  if validateRequiredContext then checkRequiredContext i snapshot contract else .ok ()
  if validateHistorySequence then checkHistorySequence snapshot contract else .ok ()
  checkTimestamps i now snapshot contract timestampKeys

/-- `restore_state`, at the time `now`. -/
def NodeReducer.restoreState (i : Interpreter) (now : ℤ) (node : NodeReducer)
    (snapshot : ModelFSMStateSnapshot) (validate allowTerminalState : Bool) :
    NodeReducer × Except PyException Unit :=
  match node.fsmContract with
  | none => (node, .error contractNotLoaded)
  | some contract =>
    let checked :=
      if validate then validateFsmSnapshot i now snapshot contract allowTerminalState true true
      else .ok ()
    match checked with
    | .error e => (node, .error e)
    | .ok _ => ({ node with fsmState := some snapshot }, .ok ())

end OmnibaseCore.Reducer
