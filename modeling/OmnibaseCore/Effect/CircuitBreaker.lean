import OmnibaseCore.Python.Float

/-!
# The circuit breaker

`ModelCircuitBreaker`. An instant is a number of microseconds. A call reads the clock once, and
once more if it moves to another state: `now` and `later`.
-/

namespace OmnibaseCore.Effect

inductive EnumCircuitBreakerState
  | closed
  | «open»
  | halfOpen
deriving DecidableEq

def EnumCircuitBreakerState.value : EnumCircuitBreakerState → String
  | .closed => "closed"
  | .open => "open"
  | .halfOpen => "half_open"

theorem half_mem : (0 : ℚ) ≤ 1 / 2 ∧ (1 / 2 : ℚ) ≤ 1 := by decide +kernel

structure ModelCircuitBreaker where
  enabled : Bool := true
  failureThreshold : ℕ := 5
  successThreshold : ℕ := 3
  timeoutSeconds : ℕ := 60
  windowSizeSeconds : ℕ := 120
  halfOpenMaxRequests : ℕ := 3
  failureRateThreshold : ℚ := 1 / 2
  minimumRequestThreshold : ℕ := 10
  slowCallDurationThresholdMs : Option ℕ := none
  state : EnumCircuitBreakerState := .closed
  lastFailureTime : Option ℤ := none
  lastStateChange : Option ℤ := none
  failureCount : ℕ := 0
  successCount : ℕ := 0
  totalRequests : ℕ := 0
  halfOpenRequests : ℕ := 0
  failureThreshold_mem : 1 ≤ failureThreshold ∧ failureThreshold ≤ 100 := by decide
  successThreshold_mem : 1 ≤ successThreshold ∧ successThreshold ≤ 20 := by decide
  timeoutSeconds_mem : 10 ≤ timeoutSeconds ∧ timeoutSeconds ≤ 3600 := by decide
  windowSizeSeconds_mem : 30 ≤ windowSizeSeconds ∧ windowSizeSeconds ≤ 3600 := by decide
  halfOpenMaxRequests_mem : 1 ≤ halfOpenMaxRequests ∧ halfOpenMaxRequests ≤ 10 := by decide
  failureRateThreshold_mem : 0 ≤ failureRateThreshold ∧ failureRateThreshold ≤ 1 := by
    first | exact half_mem | decide +kernel
  minimumRequestThreshold_mem :
    1 ≤ minimumRequestThreshold ∧ minimumRequestThreshold ≤ 1000 := by decide
  slowCallDurationThresholdMs_mem : ∀ ms ∈ slowCallDurationThresholdMs,
    100 ≤ ms ∧ ms ≤ 60000 := by simp

namespace ModelCircuitBreaker

def createFastFail : ModelCircuitBreaker where
  enabled := true
  failureThreshold := 3
  successThreshold := 2
  timeoutSeconds := 30
  windowSizeSeconds := 60
  failureRateThreshold := nearestFloat (3 / 10)
  minimumRequestThreshold := 5

def createResilient : ModelCircuitBreaker where
  enabled := true
  failureThreshold := 10
  successThreshold := 5
  timeoutSeconds := 120
  windowSizeSeconds := 300
  failureRateThreshold := nearestFloat (6 / 10)
  minimumRequestThreshold := 20

def microseconds (seconds : ℕ) : ℤ := seconds * 1000000

/-! ## Steps under the lock -/

/-- `_get_failure_rate_unlocked`. -/
def getFailureRate (b : ModelCircuitBreaker) : ℚ :=
  if b.totalRequests = 0 then 0 else nearestFloat (b.failureCount / b.totalRequests)

def shouldOpenCircuit (b : ModelCircuitBreaker) : Bool :=
  if b.totalRequests < b.minimumRequestThreshold then false
  else if b.failureThreshold ≤ b.failureCount then true
  else b.failureRateThreshold ≤ b.getFailureRate

def shouldTransitionToHalfOpen (b : ModelCircuitBreaker) (now : ℤ) : Bool :=
  match b.lastStateChange with
  | none => true
  | some change => microseconds b.timeoutSeconds ≤ now - change

/-- `_transition_to_open_unlocked`. -/
def transitionToOpen (b : ModelCircuitBreaker) (later : ℤ) : ModelCircuitBreaker :=
  { b with
    state := .open
    lastStateChange := some later
    halfOpenRequests := 0
    successCount := 0 }

/-- `_transition_to_half_open_unlocked`. -/
def transitionToHalfOpen (b : ModelCircuitBreaker) (later : ℤ) : ModelCircuitBreaker :=
  { b with
    state := .halfOpen
    lastStateChange := some later
    halfOpenRequests := 0
    successCount := 0 }

/-- `_transition_to_closed_unlocked`. -/
def transitionToClosed (b : ModelCircuitBreaker) (later : ℤ) : ModelCircuitBreaker :=
  { b with
    state := .closed
    lastStateChange := some later
    failureCount := 0
    successCount := 0
    totalRequests := 0
    halfOpenRequests := 0 }

/-- `_cleanup_old_data_unlocked`. -/
def cleanupOldData (b : ModelCircuitBreaker) (now : ℤ) : ModelCircuitBreaker :=
  match b.lastFailureTime with
  | none => b
  | some failure =>
    if failure < now - microseconds b.windowSizeSeconds then
      { b with failureCount := 0, totalRequests := 0 }
    else b

/-! ## Calls -/

def shouldAllowRequest (b : ModelCircuitBreaker) (now later : ℤ) : Bool × ModelCircuitBreaker :=
  if !b.enabled then (true, b)
  else
    let b := b.cleanupOldData now
    match b.state with
    | .closed => (true, b)
    | .open =>
      if b.shouldTransitionToHalfOpen now then (true, b.transitionToHalfOpen later)
      else (false, b)
    | .halfOpen =>
      if b.halfOpenRequests < b.halfOpenMaxRequests then
        (true, { b with halfOpenRequests := b.halfOpenRequests + 1 })
      else (false, b)

def recordSuccess (b : ModelCircuitBreaker) (now later : ℤ) : ModelCircuitBreaker :=
  if !b.enabled then b
  else
    let b := { b with totalRequests := b.totalRequests + 1 }
    let b :=
      if b.state = .halfOpen then
        let b := { b with successCount := b.successCount + 1 }
        if b.successThreshold ≤ b.successCount then b.transitionToClosed later else b
      else b
    b.cleanupOldData now

def recordFailure (b : ModelCircuitBreaker) (now later : ℤ) : ModelCircuitBreaker :=
  if !b.enabled then b
  else
    let b := { b with
      failureCount := b.failureCount + 1
      totalRequests := b.totalRequests + 1
      lastFailureTime := some now }
    let b :=
      match b.state with
      | .halfOpen => b.transitionToOpen later
      | .closed => if b.shouldOpenCircuit then b.transitionToOpen later else b
      | .open => b
    b.cleanupOldData now

def recordSlowCall (b : ModelCircuitBreaker) (durationMs : ℤ) (now later : ℤ) :
    ModelCircuitBreaker :=
  match b.slowCallDurationThresholdMs with
  | none => b
  | some threshold =>
    if !b.enabled then b
    else if threshold ≤ durationMs then b.recordFailure now later
    else b

def getCurrentState (b : ModelCircuitBreaker) (now later : ℤ) : String × ModelCircuitBreaker :=
  if !b.enabled then ("disabled", b)
  else
    let b :=
      if b.state = .open && b.shouldTransitionToHalfOpen now then b.transitionToHalfOpen later
      else b
    (b.state.value, b)

def forceOpen (b : ModelCircuitBreaker) (later : ℤ) : ModelCircuitBreaker :=
  b.transitionToOpen later

def forceClose (b : ModelCircuitBreaker) (later : ℤ) : ModelCircuitBreaker :=
  b.transitionToClosed later

/-- `reset_state`, which `reset` calls. -/
def resetState (b : ModelCircuitBreaker) (later : ℤ) : ModelCircuitBreaker :=
  { b with
    state := .closed
    failureCount := 0
    successCount := 0
    totalRequests := 0
    halfOpenRequests := 0
    lastFailureTime := none
    lastStateChange := some later }

end ModelCircuitBreaker

end OmnibaseCore.Effect
