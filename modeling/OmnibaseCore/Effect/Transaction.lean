import OmnibaseCore.Effect.Model

/-!
# Rollback of a transaction

`ModelEffectTransaction.rollback` calls the registered functions in reverse order and collects
what they raise. It catches three classes of exceptions, and any other ends the loop.

* `rollbackLaw_iff`: everything is attempted and reported if and only if nothing else is raised.
-/

namespace OmnibaseCore.Effect

/-! ## Exceptions -/

/-- A class of exceptions, as far as `rollback` tells classes apart. -/
inductive ExceptionClass
  | exception
  | attributeError
  | runtimeError
  | valueError
  | other (name : String)
deriving DecidableEq

/-- `cls.__name__` -/
def ExceptionClass.name : ExceptionClass → String
  | .exception => "Exception"
  | .attributeError => "AttributeError"
  | .runtimeError => "RuntimeError"
  | .valueError => "ValueError"
  | .other name => name

/-- An instance of a subclass of `Exception`. -/
structure RaisedException where
  /-- `type(e)` -/
  cls : ExceptionClass
  /-- The classes above `cls` -/
  bases : List ExceptionClass
  /-- `str(e)` -/
  text : String
  isException : .exception ∈ cls :: bases

/-- `isinstance(e, (AttributeError, RuntimeError, ValueError))` -/
def RaisedException.isCaught (e : RaisedException) : Bool :=
  (e.cls :: e.bases).any fun c => c ∈ [.attributeError, .runtimeError, .valueError]

/-! ## Transactions -/

/-- The `ModelOnexError` for a function that has raised. -/
structure RollbackError where
  message : String
  errorCode : String
  operation : String
  transactionId : String
  operationIndex : ℕ
  originalError : String
  originalErrorType : String
  cause : RaisedException

structure ModelEffectTransaction (F : Type) where
  transactionId : UUID
  state : EnumTransactionState := .pending
  rollbackOperations : List (String × F) := []
  rollbackFailures : List String := []
  rollbackErrors : List RollbackError := []

/-- `EnumLogLevel`, as far as it is used. -/
inductive LogLevel
  | debug
  | info
  | error

/-- What a rollback does outside of the transaction. -/
inductive RollbackEvent (F : Type)
  | invoked (rollbackFunc : F)
  | logged (level : LogLevel) (message : String)

/-- The function of a call. -/
def RollbackEvent.invoked? {F : Type} : RollbackEvent F → Option F
  | .invoked rollbackFunc => some rollbackFunc
  | .logged _ _ => none

structure RollbackLoop (F : Type) where
  events : List (RollbackEvent F)
  result : Except RaisedException (List RollbackError)

/-- A call of `rollback`. -/
structure RollbackRun (F : Type) where
  events : List (RollbackEvent F)
  transaction : ModelEffectTransaction F
  result : Except RaisedException (Bool × List RollbackError)

section
variable {F : Type} (outcome : ℕ → Option RaisedException)

/-- The functions that a run has called, in order. -/
def RollbackRun.invocations (run : RollbackRun F) : List F :=
  run.events.filterMap RollbackEvent.invoked?

/-- The error for a function, which is the `idx`-th to be called. -/
def rollbackError (transactionId : UUID) (idx : ℕ) (operationName : String)
    (e : RaisedException) : RollbackError where
  message := "Rollback failed for operation: " ++ operationName ++ " - " ++ e.text
  errorCode := "ROLLBACK_FAILURE"
  operation := operationName
  transactionId := transactionId.str
  operationIndex := idx
  originalError := e.text
  originalErrorType := e.cls.name
  cause := e

/-- The loop over the functions, from the `idx`-th on. What a call comes to is given by its
number: nothing if it returns. -/
def rollbackLoop (transactionId : UUID) :
    ℕ → List (String × F) → List RollbackError → RollbackLoop F
  | _, [], failures => { events := [], result := .ok failures }
  | idx, (operationName, rollbackFunc) :: rest, failures =>
    match outcome idx with
    | none =>
      let loop := rollbackLoop transactionId (idx + 1) rest failures
      { loop with
        events := .invoked rollbackFunc ::
          .logged .debug ("Rolled back operation: " ++ operationName) :: loop.events }
    | some e =>
      if e.isCaught then
        let error := rollbackError transactionId idx operationName e
        let loop := rollbackLoop transactionId (idx + 1) rest (failures ++ [error])
        { loop with
          events := .invoked rollbackFunc ::
            .logged .error ("Rollback failed for operation " ++ operationName ++ ": " ++ e.text) ::
            loop.events }
      else { events := [.invoked rollbackFunc], result := .error e }

def rollbackSummary (failures : List RollbackError) : RollbackEvent F :=
  if failures ≠ [] then
    .logged .error ("Transaction rollback completed with " ++ toString failures.length ++
      " failures")
  else .logged .info "Transaction rollback completed successfully"

def ModelEffectTransaction.rollback (transaction : ModelEffectTransaction F) : RollbackRun F :=
  let loop := rollbackLoop outcome transaction.transactionId 0
    transaction.rollbackOperations.reverse []
  match loop.result with
  | .error e => { events := loop.events, transaction := transaction, result := .error e }
  | .ok failures =>
    { events := loop.events ++ [rollbackSummary failures]
      transaction :=
        { transaction with
          rollbackFailures := failures.map RollbackError.message
          rollbackErrors := failures
          state := if failures = [] then .rolledBack else .failed }
      result := .ok (failures.length = 0, failures) }

/-! ## The law -/

/-- The errors for the functions that raise, in the order of the calls. -/
def expectedFailures (transactionId : UUID) : ℕ → List (String × F) → List RollbackError
  | _, [] => []
  | idx, (operationName, _) :: rest =>
    ((outcome idx).map (rollbackError transactionId idx operationName)).toList ++
      expectedFailures transactionId (idx + 1) rest

/-- Every function is called once, and every failure is reported. -/
structure RollbackLaw (transaction : ModelEffectTransaction F) : Prop where
  invocations : (transaction.rollback outcome).invocations
    = transaction.rollbackOperations.reverse.map Prod.snd
  result : ∃ failures, (transaction.rollback outcome).result = .ok (decide (failures = []), failures) ∧
    failures = expectedFailures outcome transaction.transactionId 0
      transaction.rollbackOperations.reverse
  state : (transaction.rollback outcome).transaction.state =
    if ∀ idx < transaction.rollbackOperations.length, outcome idx = none then .rolledBack
    else .failed

variable {outcome}

@[simp] theorem invoked?_invoked (rollbackFunc : F) :
    (RollbackEvent.invoked rollbackFunc).invoked? = some rollbackFunc := rfl

@[simp] theorem invoked?_logged (level : LogLevel) (message : String) :
    (RollbackEvent.logged level message : RollbackEvent F).invoked? = none := rfl

@[simp] theorem invoked?_rollbackSummary (failures : List RollbackError) :
    (rollbackSummary failures : RollbackEvent F).invoked? = none := by
  unfold rollbackSummary
  split_ifs <;> rfl

theorem rollbackLoop_caught (transactionId : UUID) (operations : List (String × F)) (idx : ℕ)
    (failures : List RollbackError)
    (hcaught : ∀ k < operations.length, ∀ e, outcome (idx + k) = some e → e.isCaught = true) :
    (rollbackLoop outcome transactionId idx operations failures).events.filterMap
        RollbackEvent.invoked? = operations.map Prod.snd ∧
      (rollbackLoop outcome transactionId idx operations failures).result
        = .ok (failures ++ expectedFailures outcome transactionId idx operations) := by
  induction operations generalizing idx failures with
  | nil => simp [rollbackLoop, expectedFailures]
  | cons operation operations ih =>
    have hrest : ∀ k < operations.length, ∀ e, outcome (idx + 1 + k) = some e →
        e.isCaught = true := by
      intro k hk e he
      apply hcaught (k + 1) (by simp; omega) e
      rw [← he]
      congr 1
      omega
    rw [rollbackLoop, expectedFailures]
    cases houtcome : outcome idx with
    | none =>
      obtain ⟨hevents, hresult⟩ := ih (idx + 1) failures hrest
      simp [List.filterMap_cons, hevents, hresult]
    | some e =>
      have he : e.isCaught = true := hcaught 0 (by simp) e (by simpa using houtcome)
      obtain ⟨hevents, hresult⟩ := ih (idx + 1)
        (failures ++ [rollbackError transactionId idx operation.1 e]) hrest
      simp [List.filterMap_cons, he, hevents, hresult]

theorem rollbackLoop_raises (transactionId : UUID) (operations : List (String × F)) (idx : ℕ)
    (failures : List RollbackError) {k : ℕ} (hk : k < operations.length) {e : RaisedException}
    (houtcome : outcome (idx + k) = some e) (he : e.isCaught = false) :
    ∃ e', (rollbackLoop outcome transactionId idx operations failures).result = .error e' := by
  induction operations generalizing idx k failures with
  | nil => exact absurd hk (Nat.not_lt_zero k)
  | cons operation operations ih =>
    rw [rollbackLoop]
    cases k with
    | zero =>
      rw [Nat.add_zero] at houtcome
      rw [houtcome]
      simp [he]
    | succ k =>
      have hlater : outcome (idx + 1 + k) = some e := by
        rw [← houtcome]
        congr 1
        omega
      have hless : k < operations.length := by
        simp at hk
        omega
      cases outcome idx with
      | none => exact ih (idx + 1) failures hless hlater
      | some e' =>
        dsimp only
        split_ifs with he'
        · exact ih (idx + 1) _ hless hlater
        · exact ⟨e', rfl⟩

theorem expectedFailures_eq_nil_iff {transactionId : UUID} {operations : List (String × F)}
    {idx : ℕ} : expectedFailures outcome transactionId idx operations = [] ↔
      ∀ k < operations.length, outcome (idx + k) = none := by
  induction operations generalizing idx with
  | nil => simp [expectedFailures]
  | cons operation operations ih =>
    rw [expectedFailures, List.append_eq_nil_iff, ih]
    constructor
    · rintro ⟨hfirst, hrest⟩ k hk
      cases k with
      | zero => simpa using hfirst
      | succ k =>
        rw [← hrest k (by simp at hk; omega)]
        congr 1
        omega
    · intro h
      refine ⟨by simpa using h 0 (by simp), fun k hk => ?_⟩
      rw [← h (k + 1) (by simp; omega)]
      congr 1
      omega

/-- Everything is attempted and reported if and only if each exception is of a class that is
caught. -/
theorem rollbackLaw_iff (transaction : ModelEffectTransaction F) :
    RollbackLaw outcome transaction ↔
      ∀ idx < transaction.rollbackOperations.length, ∀ e, outcome idx = some e →
        e.isCaught = true := by
  constructor
  · intro hlaw idx hidx e he
    by_contra hcaught
    have hless : idx < transaction.rollbackOperations.reverse.length := by simpa using hidx
    have hlater : outcome (0 + idx) = some e := by simpa using he
    obtain ⟨e', hresult⟩ := rollbackLoop_raises transaction.transactionId _ 0 [] hless hlater
      (Bool.eq_false_iff.mpr hcaught)
    obtain ⟨failures, hok, -⟩ := hlaw.result
    unfold ModelEffectTransaction.rollback at hok
    simp [hresult] at hok
  · intro hcaught
    have hall : ∀ k < transaction.rollbackOperations.reverse.length, ∀ e,
        outcome (0 + k) = some e → e.isCaught = true := by simpa using hcaught
    obtain ⟨hevents, hresult⟩ := rollbackLoop_caught transaction.transactionId
      transaction.rollbackOperations.reverse 0 [] hall
    rw [List.nil_append] at hresult
    refine ⟨?_, ⟨_, ?_, rfl⟩, ?_⟩
    · unfold RollbackRun.invocations ModelEffectTransaction.rollback
      simp [hresult, hevents]
    · unfold ModelEffectTransaction.rollback
      simp [hresult]
    · unfold ModelEffectTransaction.rollback
      simp [hresult, expectedFailures_eq_nil_iff]

end

/-! ## A rollback that stops -/

/-- A `KeyError`. -/
def keyError : RaisedException where
  cls := .other "KeyError"
  bases := [.other "LookupError", .exception]
  text := "'order-7'"
  isException := by decide

def ordersTransaction : ModelEffectTransaction String where
  transactionId := ⟨1⟩
  state := .committed
  rollbackOperations := [("insert-order", "delete-order"), ("charge", "refund")]

/-- The first call raises a `KeyError`, and the other function is never called. -/
theorem keyError_not_rollbackLaw :
    ¬ RollbackLaw (fun idx => if idx = 0 then some keyError else none) ordersTransaction := by
  intro hlaw
  exact absurd hlaw.invocations (by decide +kernel)

end OmnibaseCore.Effect
