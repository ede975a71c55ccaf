import OmnibaseCore.Effect.RetryTheorems

/-!
# The trace of the retry loop

Attempt `j` of `_execute_with_retry` meets the breakers that `j` failed attempts leave
(`breakersAt`). The loop makes the attempts from `0` up to a last one, every one admitted, every
one but the last failed: `retryLaw`.
-/

namespace OmnibaseCore.Effect

/-- The loop waits. -/
def RetryEvent.isSleep : RetryEvent → Bool
  | .slept _ => true
  | .executed _ | .recorded _ => false

section
variable (env : EffectEnvironment) (handlerType : EnumEffectHandlerType)
  (input : ModelEffectInput) (operationTimeoutMs : ℤ)
  (start : ℚ) (turns : ℕ → Turn) (breakers : CircuitBreakers)

/-! ## Attempts -/

/-- The elapsed time is below the timeout, and the breaker, if it is on, lets the attempt pass. -/
def Admits (turn : Turn) (breakers : CircuitBreakers) : Prop :=
  elapsedMs start turn.time < operationTimeoutMs ∧
    (input.circuitBreakerEnabled = true → (checkCircuitBreaker breakers input.operationId
      turn.checkNow turn.checkLater).1 = true)

def checkedBreakers (turn : Turn) (breakers : CircuitBreakers) : CircuitBreakers :=
  if input.circuitBreakerEnabled then
    (checkCircuitBreaker breakers input.operationId turn.checkNow turn.checkLater).2
  else breakers

def breakersAt : ℕ → CircuitBreakers
  | 0 => breakers
  | attempt + 1 =>
    (record input false (turns attempt)
      (checkedBreakers input (turns attempt) (breakersAt attempt))).2

def Admitted (attempt : ℕ) : Prop :=
  Admits input operationTimeoutMs start (turns attempt) (breakersAt input turns breakers attempt)

def attempted (attempt : ℕ) : Except PyException Value :=
  executeOperation env handlerType input (turns attempt).outcome

/-- What an attempt does: it executes, and its result is recorded once, if the breaker is on. -/
def attemptEvents (attempt : ℕ) : List RetryEvent :=
  executedEvents (turns attempt).outcome ++
    if input.circuitBreakerEnabled then
      [.recorded (attempted env handlerType input turns attempt).isOk]
    else []

/-- The run makes the attempts from `first` up to, and without, `last`. It may make attempts up
to `stop`. -/
structure TraceFrom (first last stop : ℕ) (run : RetryRun) : Prop where
  first_le : first ≤ last
  le_stop : last ≤ stop
  admitted : ∀ j, first ≤ j → j < last →
    Admitted input operationTimeoutMs start turns breakers j
  failed : ∀ j, first ≤ j → j + 1 < last →
    ∃ e, attempted env handlerType input turns j = .error e
  events : run.events.filter (fun event => !event.isSleep) =
    (List.range' first (last - first)).flatMap (attemptEvents env handlerType input turns)
  returned : ∀ result n, run.result = .ok (result, n) ↔
    first ≤ n ∧ n + 1 = last ∧ attempted env handlerType input turns n = .ok result
  exhausted : ∀ e, run.result = .error e →
    last = stop ∨ ¬ Admitted input operationTimeoutMs start turns breakers last ∨
      first < last ∧ floatOverflows (input.retryDelayMs * 2 ^ (last - 1)) = true

end

/-! ## One attempt -/

section
variable {env : EffectEnvironment} {handlerType : EnumEffectHandlerType}
  {input : ModelEffectInput} {operationTimeoutMs : ℤ} {formatMs : ℚ → String}
  {start : ℚ} {turns : ℕ → Turn} {breakers : CircuitBreakers} {first last stop : ℕ}

variable {attempt : ℕ}

theorem isSleep_of_mem_attemptEvents {event : RetryEvent}
    (h : event ∈ attemptEvents env handlerType input turns attempt) : event.isSleep = false := by
  unfold attemptEvents executedEvents at h
  rcases List.mem_append.mp h with h | h
  · split_ifs at h
    · rw [List.mem_singleton.mp h]
      rfl
    · exact absurd h List.not_mem_nil
  · split_ifs at h
    · rw [List.mem_singleton.mp h]
      rfl
    · exact absurd h List.not_mem_nil

theorem filter_attemptEvents (attempt : ℕ) :
    (attemptEvents env handlerType input turns attempt).filter (fun event => !event.isSleep) =
      attemptEvents env handlerType input turns attempt := by
  apply List.filter_eq_self.mpr
  intro event hevent
  rw [isSleep_of_mem_attemptEvents hevent]
  rfl

/-! ## Traces -/

/-- A failed attempt, the delay behind it, and the attempts that follow. -/
theorem TraceFrom.cons {run rest : RetryRun} {e : PyException} {delayMs : ℤ}
    (hrest : TraceFrom env handlerType input operationTimeoutMs start turns breakers (first + 1)
      last stop rest)
    (hadmitted : Admitted input operationTimeoutMs start turns breakers first)
    (hfailed : attempted env handlerType input turns first = .error e)
    (hevents : run.events =
      attemptEvents env handlerType input turns first ++ .slept delayMs :: rest.events)
    (hresult : run.result = rest.result) :
    TraceFrom env handlerType input operationTimeoutMs start turns breakers first last stop
      run where
  first_le := by
    have hle := hrest.first_le
    omega
  le_stop := hrest.le_stop
  admitted j hfirst hlast := by
    by_cases hj : j = first
    · rw [hj]
      exact hadmitted
    · exact hrest.admitted j (by omega) hlast
  failed j hfirst hlast := by
    by_cases hj : j = first
    · rw [hj]
      exact ⟨e, hfailed⟩
    · exact hrest.failed j (by omega) hlast
  events := by
    have hle := hrest.first_le
    rw [hevents, List.filter_append, filter_attemptEvents,
      List.filter_cons_of_neg (by simp [RetryEvent.isSleep]), hrest.events,
      show last - first = (last - (first + 1)) + 1 by omega, List.range'_succ, List.flatMap_cons]
  returned result n := by
    rw [hresult, hrest.returned]
    constructor
    · intro h
      exact ⟨by omega, h.2⟩
    · intro h
      -- the attempt `first` has failed, so a success is a later one
      have hn : n ≠ first := by
        intro hn
        rw [hn, hfailed] at h
        exact (nomatch h.2.2)
      exact ⟨by omega, h.2⟩
  exhausted e' he' := by
    rw [hresult] at he'
    rcases hrest.exhausted e' he' with h | h | h
    · exact Or.inl h
    · exact Or.inr (Or.inl h)
    · exact Or.inr (Or.inr ⟨by omega, h.2⟩)

end

end OmnibaseCore.Effect
