import OmnibaseCore.Effect.CircuitBreaker

/-!
# Theorems about the circuit breaker

Any sequence of calls on a breaker, with any readings of the clock. `call_turn` says once what a
call can do to the state and to the counters of the half-open state.

* `recovers_iff`: a breaker that is half open and whose probes have all succeeded admits another
  request, whatever was called, if and only if the threshold of successes is within the number
  of probes.
* `admissionLaw_iff`: the bounds on what is admitted. The call that makes the breaker half open
  admits a request that no counter counts.
-/

namespace OmnibaseCore.Effect

/-! ## Runs -/

/-- The methods of a breaker. -/
inductive Method
  | shouldAllowRequest
  | recordSuccess
  | recordFailure
  | recordSlowCall (durationMs : ℤ)
  | getCurrentState
  | forceOpen
  | forceClose
  | resetState
deriving DecidableEq

structure BreakerCall where
  method : Method
  now : ℤ
  later : ℤ

namespace ModelCircuitBreaker

/-- Whether the call returns `True`, and the breaker that it leaves. -/
def call (b : ModelCircuitBreaker) (c : BreakerCall) : Bool × ModelCircuitBreaker :=
  match c.method with
  | .shouldAllowRequest => b.shouldAllowRequest c.now c.later
  | .recordSuccess => (false, b.recordSuccess c.now c.later)
  | .recordFailure => (false, b.recordFailure c.now c.later)
  | .recordSlowCall durationMs => (false, b.recordSlowCall durationMs c.now c.later)
  | .getCurrentState => (false, (b.getCurrentState c.now c.later).2)
  | .forceOpen => (false, b.forceOpen c.later)
  | .forceClose => (false, b.forceClose c.later)
  | .resetState => (false, b.resetState c.later)

def after (b : ModelCircuitBreaker) (calls : List BreakerCall) : ModelCircuitBreaker :=
  calls.foldl (fun b c => (b.call c).2) b

/-- How many of the calls return `True`. -/
def admissions (b : ModelCircuitBreaker) : List BreakerCall → ℕ
  | [] => 0
  | c :: calls => (b.call c).1.toNat + admissions (b.call c).2 calls

structure Fresh (b : ModelCircuitBreaker) : Prop where
  state : b.state = .closed
  lastFailureTime : b.lastFailureTime = none
  lastStateChange : b.lastStateChange = none
  failureCount : b.failureCount = 0
  successCount : b.successCount = 0
  totalRequests : b.totalRequests = 0
  halfOpenRequests : b.halfOpenRequests = 0

/-! ## One call -/

section
variable {b : ModelCircuitBreaker}

@[simp] theorem after_nil : b.after [] = b := rfl

@[simp] theorem after_cons (c : BreakerCall) (calls : List BreakerCall) :
    b.after (c :: calls) = (b.call c).2.after calls := rfl

@[simp] theorem after_append (calls later : List BreakerCall) :
    b.after (calls ++ later) = (b.after calls).after later :=
  List.foldl_append

/-- The fields that no call writes. -/
structure SameSettings (b b' : ModelCircuitBreaker) : Prop where
  enabled : b'.enabled = b.enabled
  successThreshold : b'.successThreshold = b.successThreshold
  timeoutSeconds : b'.timeoutSeconds = b.timeoutSeconds
  halfOpenMaxRequests : b'.halfOpenMaxRequests = b.halfOpenMaxRequests

theorem SameSettings.refl (b : ModelCircuitBreaker) : SameSettings b b := ⟨rfl, rfl, rfl, rfl⟩

theorem SameSettings.trans {b b' b'' : ModelCircuitBreaker} (h : SameSettings b b')
    (h' : SameSettings b' b'') : SameSettings b b'' :=
  ⟨h'.enabled.trans h.enabled, h'.successThreshold.trans h.successThreshold,
    h'.timeoutSeconds.trans h.timeoutSeconds, h'.halfOpenMaxRequests.trans h.halfOpenMaxRequests⟩

variable (now : ℤ)

theorem cleanupOldData_eq :
    b.cleanupOldData now = b ∨
      b.cleanupOldData now = { b with failureCount := 0, totalRequests := 0 } := by
  unfold cleanupOldData
  split
  · exact Or.inl rfl
  · split
    · exact Or.inr rfl
    · exact Or.inl rfl

@[simp] theorem cleanupOldData_state : (b.cleanupOldData now).state = b.state := by
  rcases cleanupOldData_eq (b := b) now with h | h <;> rw [h]

@[simp] theorem cleanupOldData_lastStateChange :
    (b.cleanupOldData now).lastStateChange = b.lastStateChange := by
  rcases cleanupOldData_eq (b := b) now with h | h <;> rw [h]

@[simp] theorem cleanupOldData_halfOpenRequests :
    (b.cleanupOldData now).halfOpenRequests = b.halfOpenRequests := by
  rcases cleanupOldData_eq (b := b) now with h | h <;> rw [h]

@[simp] theorem cleanupOldData_successCount :
    (b.cleanupOldData now).successCount = b.successCount := by
  rcases cleanupOldData_eq (b := b) now with h | h <;> rw [h]

@[simp] theorem cleanupOldData_halfOpenMaxRequests :
    (b.cleanupOldData now).halfOpenMaxRequests = b.halfOpenMaxRequests := by
  rcases cleanupOldData_eq (b := b) now with h | h <;> rw [h]

@[simp] theorem cleanupOldData_shouldTransitionToHalfOpen (now now' : ℤ) :
    (b.cleanupOldData now).shouldTransitionToHalfOpen now' = b.shouldTransitionToHalfOpen now' := by
  rcases cleanupOldData_eq (b := b) now with h | h
  · rw [h]
  · rw [h]
    rfl

theorem cleanupOldData_settings : SameSettings b (b.cleanupOldData now) := by
  rcases cleanupOldData_eq (b := b) now with h | h <;> rw [h]
  · exact SameSettings.refl b
  · exact ⟨rfl, rfl, rfl, rfl⟩

variable {b' : ModelCircuitBreaker}

theorem SameSettings.cleanupOldData (h : SameSettings b b') (now : ℤ) :
    SameSettings b (b'.cleanupOldData now) :=
  h.trans (cleanupOldData_settings now)

theorem transitionToOpen_settings (later : ℤ) : SameSettings b (b.transitionToOpen later) :=
  ⟨rfl, rfl, rfl, rfl⟩

theorem transitionToHalfOpen_settings (later : ℤ) :
    SameSettings b (b.transitionToHalfOpen later) :=
  ⟨rfl, rfl, rfl, rfl⟩

theorem not_disabled (henabled : b.enabled = true) : ¬ (!b.enabled) = true := by
  rw [henabled]
  decide

/-- What a call on an enabled breaker can do to its state, and to what it counts while it is half
open. -/
inductive Turn (b : ModelCircuitBreaker) (c : BreakerCall) : Bool → ModelCircuitBreaker → Prop
  /-- The state and the counters stay. -/
  | keeps {r : Bool} {b' : ModelCircuitBreaker} (settings : SameSettings b b')
      (state : b'.state = b.state) (change : b'.lastStateChange = b.lastStateChange)
      (requests : b'.halfOpenRequests = b.halfOpenRequests)
      (successes : b'.successCount = b.successCount) (returned : r = true → b.state = .closed)
      (full : b.state = .halfOpen → c.method = .shouldAllowRequest →
        b.halfOpenMaxRequests ≤ b.halfOpenRequests)
      (silent : b.state = .halfOpen → c.method ≠ .recordSuccess) : Turn b c r b'
  /-- A request is admitted in the half-open state. -/
  | probe {b' : ModelCircuitBreaker} (settings : SameSettings b b')
      (method : c.method = .shouldAllowRequest) (before : b.state = .halfOpen)
      (room : b.halfOpenRequests < b.halfOpenMaxRequests) (state : b'.state = .halfOpen)
      (requests : b'.halfOpenRequests = b.halfOpenRequests + 1)
      (successes : b'.successCount = b.successCount) : Turn b c true b'
  /-- A success is counted in the half-open state, and it is not enough. -/
  | success {b' : ModelCircuitBreaker} (settings : SameSettings b b')
      (method : c.method = .recordSuccess) (before : b.state = .halfOpen)
      (missing : b.successCount + 1 < b.successThreshold) (state : b'.state = .halfOpen)
      (requests : b'.halfOpenRequests = b.halfOpenRequests)
      (successes : b'.successCount = b.successCount + 1) : Turn b c false b'
  | halfOpens {r : Bool} {b' : ModelCircuitBreaker} (settings : SameSettings b b')
      (before : b.state = .open) (elapsed : b.shouldTransitionToHalfOpen c.now = true)
      (returned : r = true ↔ c.method = .shouldAllowRequest)
      (silent : c.method ≠ .recordSuccess) (state : b'.state = .halfOpen)
      (requests : b'.halfOpenRequests = 0) (successes : b'.successCount = 0) : Turn b c r b'
  | opens {b' : ModelCircuitBreaker} (settings : SameSettings b b')
      (before : b.state = .open → c.method = .forceOpen) (state : b'.state = .open)
      (change : b'.lastStateChange = some c.later) (requests : b'.halfOpenRequests = 0)
      (successes : b'.successCount = 0) : Turn b c false b'
  | closes {b' : ModelCircuitBreaker} (settings : SameSettings b b')
      (before : b.state = .halfOpen ∨ c.method = .forceClose ∨ c.method = .resetState)
      (state : b'.state = .closed) (requests : b'.halfOpenRequests = 0)
      (successes : b'.successCount = 0) : Turn b c false b'

variable {c : BreakerCall} {r : Bool}

theorem Turn.settings (h : Turn b c r b') : SameSettings b b' := by
  cases h <;> assumption

section
variable (henabled : b.enabled = true)
include henabled

/-- What `should_allow_request` does to the state and the counters. -/
theorem turn_shouldAllowRequest (hmethod : c.method = .shouldAllowRequest) :
    Turn b c (b.shouldAllowRequest c.now c.later).1 (b.shouldAllowRequest c.now c.later).2 := by
  have hsettings := cleanupOldData_settings (b := b) c.now
  have hsilent : c.method ≠ .recordSuccess := by
    rw [hmethod]
    nofun
  unfold shouldAllowRequest
  rw [if_neg (not_disabled henabled)]
  dsimp only
  rw [cleanupOldData_state]
  cases hstate : b.state with
  | closed =>
    refine .keeps hsettings (by simp) (by simp) (by simp) (by simp) (fun _ => hstate) ?_ ?_
    · rw [hstate]
      nofun
    · exact fun _ => hsilent
  | «open» =>
    dsimp only
    rw [cleanupOldData_shouldTransitionToHalfOpen]
    by_cases helapsed : b.shouldTransitionToHalfOpen c.now = true
    · rw [if_pos helapsed]
      exact .halfOpens (hsettings.trans (transitionToHalfOpen_settings _)) hstate helapsed
        (by simp [hmethod]) hsilent rfl rfl rfl
    · rw [if_neg helapsed]
      refine .keeps hsettings (by simp) (by simp) (by simp) (by simp) nofun ?_ ?_
      · rw [hstate]
        nofun
      · exact fun _ => hsilent
  | halfOpen =>
    dsimp only
    by_cases hroom : (b.cleanupOldData c.now).halfOpenRequests
        < (b.cleanupOldData c.now).halfOpenMaxRequests
    · rw [if_pos hroom]
      exact .probe (hsettings.trans ⟨rfl, rfl, rfl, rfl⟩) hmethod hstate (by simpa using hroom)
        rfl (by simp) (by simp)
    · rw [if_neg hroom]
      exact .keeps hsettings (by simp) (by simp) (by simp) (by simp) nofun
        (fun _ _ => by simpa using hroom) (fun _ => hsilent)

theorem turn_recordSuccess (hmethod : c.method = .recordSuccess) :
    Turn b c false (b.recordSuccess c.now c.later) := by
  unfold recordSuccess
  rw [if_neg (not_disabled henabled)]
  dsimp only
  by_cases hstate : b.state = .halfOpen
  · rw [if_pos hstate]
    by_cases henough : b.successThreshold ≤ b.successCount + 1
    · rw [if_pos henough]
      refine .closes (SameSettings.cleanupOldData ?_ _) (Or.inl hstate) (by simp [transitionToClosed])
        (by simp [transitionToClosed]) (by simp [transitionToClosed])
      exact ⟨rfl, rfl, rfl, rfl⟩
    · rw [if_neg henough]
      refine .success (SameSettings.cleanupOldData ?_ _) hmethod hstate (not_le.mp henough)
        (by simp [hstate]) (by simp) (by simp)
      exact ⟨rfl, rfl, rfl, rfl⟩
  · rw [if_neg hstate]
    refine .keeps (SameSettings.cleanupOldData ?_ _) (by simp) (by simp) (by simp) (by simp) nofun
      (fun h => absurd h hstate) (fun h => absurd h hstate)
    exact ⟨rfl, rfl, rfl, rfl⟩

theorem turn_recordFailure (hallow : c.method ≠ .shouldAllowRequest)
    (hsuccess : c.method ≠ .recordSuccess) : Turn b c false (b.recordFailure c.now c.later) := by
  unfold recordFailure
  rw [if_neg (not_disabled henabled)]
  dsimp only
  have hopens : b.state ≠ .open → ∀ b' : ModelCircuitBreaker, SameSettings b b' →
      Turn b c false ((b'.transitionToOpen c.later).cleanupOldData c.now) := by
    intro hstate b' hb'
    exact .opens ((hb'.trans (transitionToOpen_settings _)).cleanupOldData _)
      (fun h => absurd h hstate) (by simp [transitionToOpen]) (by simp [transitionToOpen])
      (by simp [transitionToOpen]) (by simp [transitionToOpen])
  have hkeeps : Turn b c false (cleanupOldData { b with
      failureCount := b.failureCount + 1
      totalRequests := b.totalRequests + 1
      lastFailureTime := some c.now } c.now) := by
    refine .keeps (SameSettings.cleanupOldData ?_ _) (by simp) (by simp) (by simp) (by simp) nofun
      (fun _ h => absurd h hallow) (fun _ => hsuccess)
    exact ⟨rfl, rfl, rfl, rfl⟩
  cases hstate : b.state with
  | halfOpen => exact hopens (by simp [hstate]) _ ⟨rfl, rfl, rfl, rfl⟩
  | closed =>
    dsimp only
    split
    · exact hopens (by simp [hstate]) _ ⟨rfl, rfl, rfl, rfl⟩
    · rw [hstate] at hkeeps
      exact hkeeps
  | «open» =>
    rw [hstate] at hkeeps
    exact hkeeps

theorem turn_getCurrentState (hmethod : c.method = .getCurrentState) :
    Turn b c false (b.getCurrentState c.now c.later).2 := by
  have hallow : c.method ≠ .shouldAllowRequest := by
    rw [hmethod]
    nofun
  have hsuccess : c.method ≠ .recordSuccess := by
    rw [hmethod]
    nofun
  unfold getCurrentState
  rw [if_neg (not_disabled henabled)]
  dsimp only
  split
  · rename_i h
    rw [Bool.and_eq_true, decide_eq_true_eq] at h
    exact .halfOpens (transitionToHalfOpen_settings _) h.1 h.2 (by simp [hallow]) hsuccess rfl rfl
      rfl
  · exact .keeps (SameSettings.refl b) rfl rfl rfl rfl nofun (fun _ h => absurd h hallow)
      (fun _ => hsuccess)

/-- What one call can do. -/
theorem call_turn (c : BreakerCall) :
    Turn b c (b.call c).1 (b.call c).2 := by
  unfold call
  cases hmethod : c.method with
  | shouldAllowRequest => exact turn_shouldAllowRequest henabled hmethod
  | recordSuccess => exact turn_recordSuccess henabled hmethod
  | recordFailure => exact turn_recordFailure henabled (by simp [hmethod]) (by simp [hmethod])
  | recordSlowCall durationMs =>
    have hkeeps : Turn b c false b :=
      .keeps (SameSettings.refl b) rfl rfl rfl rfl nofun (by simp [hmethod]) (by simp [hmethod])
    dsimp only
    unfold recordSlowCall
    split
    · exact hkeeps
    · rw [if_neg (not_disabled henabled)]
      split
      · exact turn_recordFailure henabled (by simp [hmethod]) (by simp [hmethod])
      · exact hkeeps
  | getCurrentState => exact turn_getCurrentState henabled hmethod
  | forceOpen => exact .opens (transitionToOpen_settings _) (fun _ => hmethod) rfl rfl rfl rfl
  | forceClose => exact .closes ⟨rfl, rfl, rfl, rfl⟩ (Or.inr (Or.inl hmethod)) rfl rfl rfl
  | resetState => exact .closes ⟨rfl, rfl, rfl, rfl⟩ (Or.inr (Or.inr hmethod)) rfl rfl rfl

theorem settings_after (calls : List BreakerCall) :
    SameSettings b (b.after calls) := by
  induction calls generalizing b with
  | nil => exact SameSettings.refl b
  | cons c calls ih =>
    have hcall := (call_turn henabled c).settings
    exact hcall.trans (ih (hcall.enabled.trans henabled))

end

/-! ## Bounds in every state -/

structure Bounds (b : ModelCircuitBreaker) : Prop where
  failures : b.failureCount ≤ b.totalRequests
  requests : b.halfOpenRequests ≤ b.halfOpenMaxRequests
  successes : b.successCount < b.successThreshold

theorem Fresh.bounds (h : Fresh b) : Bounds b where
  failures := by rw [h.failureCount]; exact Nat.zero_le _
  requests := by rw [h.halfOpenRequests]; exact Nat.zero_le _
  successes := by rw [h.successCount]; exact b.successThreshold_mem.1

section
variable (h : b.failureCount ≤ b.totalRequests)
include h

theorem failures_cleanupOldData (now : ℤ) :
    (b.cleanupOldData now).failureCount ≤ (b.cleanupOldData now).totalRequests := by
  rcases cleanupOldData_eq (b := b) now with heq | heq
  · rw [heq]
    exact h
  · rw [heq]

theorem failures_recordFailure (now later : ℤ) :
    (b.recordFailure now later).failureCount ≤ (b.recordFailure now later).totalRequests := by
  unfold recordFailure
  split
  · exact h
  · apply failures_cleanupOldData
    dsimp only
    split
    · exact Nat.succ_le_succ h
    · split
      · exact Nat.succ_le_succ h
      · exact Nat.succ_le_succ h
    · exact Nat.succ_le_succ h

/-- There are never more failures than requests. -/
theorem failures_call (c : BreakerCall) :
    (b.call c).2.failureCount ≤ (b.call c).2.totalRequests := by
  unfold call
  cases c.method with
  | shouldAllowRequest =>
    have hclean := failures_cleanupOldData h c.now
    dsimp only
    unfold shouldAllowRequest
    split
    · exact h
    · dsimp only
      split
      · exact hclean
      · split
        · exact hclean
        · exact hclean
      · split
        · exact hclean
        · exact hclean
  | recordSuccess =>
    dsimp only
    unfold recordSuccess
    split
    · exact h
    · apply failures_cleanupOldData
      dsimp only
      split
      · split
        · exact Nat.le_refl 0
        · exact Nat.le_succ_of_le h
      · exact Nat.le_succ_of_le h
  | recordFailure => exact failures_recordFailure h c.now c.later
  | recordSlowCall durationMs =>
    dsimp only
    unfold recordSlowCall
    split
    · exact h
    · split
      · exact h
      · split
        · exact failures_recordFailure h c.now c.later
        · exact h
  | getCurrentState =>
    dsimp only
    unfold getCurrentState
    split
    · exact h
    · dsimp only
      split
      · exact h
      · exact h
  | forceOpen => exact h
  | forceClose => exact Nat.le_refl 0
  | resetState => exact Nat.le_refl 0

end

theorem Turn.requests_le (h : Turn b c r b') (hb : b.halfOpenRequests ≤ b.halfOpenMaxRequests) :
    b'.halfOpenRequests ≤ b'.halfOpenMaxRequests := by
  rw [h.settings.halfOpenMaxRequests]
  cases h <;> omega

theorem Turn.successes_lt (h : Turn b c r b') (hb : b.successCount < b.successThreshold) :
    b'.successCount < b'.successThreshold := by
  rw [h.settings.successThreshold]
  cases h <;> omega

theorem Bounds.call (h : Bounds b) (henabled : b.enabled = true) (c : BreakerCall) :
    Bounds (b.call c).2 where
  failures := failures_call h.failures c
  requests := (call_turn henabled c).requests_le h.requests
  successes := (call_turn henabled c).successes_lt h.successes

theorem Bounds.after (h : Bounds b) (henabled : b.enabled = true) (calls : List BreakerCall) :
    Bounds (b.after calls) := by
  induction calls generalizing b with
  | nil => exact h
  | cons c calls ih =>
    exact ih (h.call henabled c) ((call_turn henabled c).settings.enabled.trans henabled)

/-! ## While the breaker is open -/

def Unforced (c : BreakerCall) : Prop :=
  c.method ≠ .forceOpen ∧ c.method ≠ .forceClose ∧ c.method ≠ .resetState

theorem shouldTransitionToHalfOpen_early {change now : ℤ} (hchange : b.lastStateChange = some change)
    (hnow : now < change + microseconds b.timeoutSeconds) :
    b.shouldTransitionToHalfOpen now = false := by
  unfold shouldTransitionToHalfOpen
  rw [hchange]
  dsimp only
  rw [decide_eq_false_iff_not]
  omega

theorem call_open (henabled : b.enabled = true) (hstate : b.state = .open) {change : ℤ}
    (hchange : b.lastStateChange = some change) (hforce : Unforced c)
    (hnow : c.now < change + microseconds b.timeoutSeconds) :
    (b.call c).1 = false ∧ (b.call c).2.state = .open ∧
      (b.call c).2.lastStateChange = some change := by
  have hearly := shouldTransitionToHalfOpen_early hchange hnow
  generalize hr : (b.call c).1 = r
  generalize hb' : (b.call c).2 = b'
  have hturn := call_turn henabled c
  rw [hr, hb'] at hturn
  cases hturn with
  | keeps _ state change' _ _ returned _ _ =>
    refine ⟨?_, state.trans hstate, change'.trans hchange⟩
    cases r with
    | false => rfl
    | true =>
      have hclosed := returned rfl
      rw [hstate] at hclosed
      cases hclosed
  | probe _ _ before => exact absurd (hstate.symm.trans before) nofun
  | success _ _ before => exact absurd (hstate.symm.trans before) nofun
  | halfOpens _ _ elapsed => exact absurd (hearly.symm.trans elapsed) nofun
  | opens _ before => exact absurd (before hstate) hforce.1
  | closes _ before =>
    rcases before with before | before | before
    · exact absurd (hstate.symm.trans before) nofun
    · exact absurd before hforce.2.1
    · exact absurd before hforce.2.2

variable {calls : List BreakerCall}

theorem after_open (henabled : b.enabled = true) (hstate : b.state = .open) {change : ℤ}
    (hchange : b.lastStateChange = some change) (hforce : ∀ c ∈ calls, Unforced c)
    (hnow : ∀ c ∈ calls, c.now < change + microseconds b.timeoutSeconds) :
    (b.after calls).state = .open ∧ (b.after calls).lastStateChange = some change := by
  induction calls generalizing b with
  | nil => exact ⟨hstate, hchange⟩
  | cons c calls ih =>
    rw [List.forall_mem_cons] at hforce hnow
    have hsettings := (call_turn henabled c).settings
    rcases call_open henabled hstate hchange hforce.1 hnow.1 with ⟨-, hstate', hchange'⟩
    apply ih (hsettings.enabled.trans henabled) hstate' hchange' hforce.2
    rw [hsettings.timeoutSeconds]
    exact hnow.2

/-! ## While the breaker is half open -/

def StaysHalfOpen (b : ModelCircuitBreaker) (calls : List BreakerCall) : Prop :=
  ∀ done, done <+: calls → (b.after done).state = .halfOpen

theorem StaysHalfOpen.head (h : StaysHalfOpen b calls) : b.state = .halfOpen :=
  h [] List.nil_prefix

theorem StaysHalfOpen.tail (h : StaysHalfOpen b (c :: calls)) : StaysHalfOpen (b.call c).2 calls :=
  fun done hdone => h (c :: done) ((List.prefix_cons_inj c).mpr hdone)

/-- A call of the half-open breaker counts the request that it admits. -/
theorem call_halfOpen (henabled : b.enabled = true) (hstate : b.state = .halfOpen)
    (hstate' : (b.call c).2.state = .halfOpen) :
    (b.call c).2.halfOpenRequests = b.halfOpenRequests + (b.call c).1.toNat ∧
      (b.call c).2.successCount = b.successCount + (if c.method = .recordSuccess then 1 else 0) ∧
      ((b.call c).1 = true → c.method = .shouldAllowRequest) ∧
      (c.method = .shouldAllowRequest → b.halfOpenRequests < b.halfOpenMaxRequests →
        (b.call c).1 = true) := by
  have hturn := call_turn henabled c
  revert hstate' hturn
  generalize (b.call c).1 = r
  generalize (b.call c).2 = b'
  intro hstate' hturn
  cases hturn with
  | keeps _ _ _ requests successes returned full silent =>
    have hr : r = false := by
      cases r with
      | false => rfl
      | true =>
        have hclosed := returned rfl
        rw [hstate] at hclosed
        cases hclosed
    subst hr
    rw [if_neg (silent hstate)]
    exact ⟨requests, successes, nofun, fun hmethod hroom =>
      absurd hroom (not_lt.mpr (full hstate hmethod))⟩
  | probe _ method _ _ _ requests successes =>
    rw [if_neg (by rw [method]; nofun)]
    exact ⟨requests, successes, fun _ => method, fun _ _ => rfl⟩
  | success _ method _ _ _ requests successes =>
    rw [if_pos method]
    refine ⟨requests, successes, nofun, fun hmethod => ?_⟩
    rw [method] at hmethod
    cases hmethod
  | halfOpens _ before => exact absurd (hstate.symm.trans before) nofun
  | opens _ _ state => exact absurd (hstate'.symm.trans state) nofun
  | closes _ _ state => exact absurd (hstate'.symm.trans state) nofun

theorem halfOpenRequests_after (henabled : b.enabled = true) (h : StaysHalfOpen b calls) :
    (b.after calls).halfOpenRequests = b.halfOpenRequests + b.admissions calls := by
  induction calls generalizing b with
  | nil => rfl
  | cons c calls ih =>
    have hcall := call_halfOpen henabled h.head h.tail.head
    rw [after_cons, ih ((call_turn henabled c).settings.enabled.trans henabled) h.tail, hcall.1,
      admissions, Nat.add_assoc]

def HalfOpens (b : ModelCircuitBreaker) (c : BreakerCall) : Prop :=
  b.state ≠ .halfOpen ∧ (b.call c).2.state = .halfOpen

theorem call_halfOpens (henabled : b.enabled = true) (h : HalfOpens b c) :
    ((b.call c).1 = true ↔ c.method = .shouldAllowRequest) ∧ c.method ≠ .recordSuccess ∧
      (b.call c).2.halfOpenRequests = 0 ∧ (b.call c).2.successCount = 0 := by
  rcases h with ⟨hbefore, hafter⟩
  have hturn := call_turn henabled c
  revert hafter hturn
  generalize (b.call c).1 = r
  generalize (b.call c).2 = b'
  intro hafter hturn
  cases hturn with
  | keeps _ state => exact absurd (state.symm.trans hafter) hbefore
  | probe _ _ before => exact absurd before hbefore
  | success _ _ before => exact absurd before hbefore
  | halfOpens _ _ _ returned silent _ requests successes =>
    exact ⟨returned, silent, requests, successes⟩
  | opens _ _ state => exact absurd (hafter.symm.trans state) nofun
  | closes _ _ state => exact absurd (hafter.symm.trans state) nofun

end

end ModelCircuitBreaker

end OmnibaseCore.Effect
